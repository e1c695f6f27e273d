/-!
# UTF-8 with invalid bytes

Bytes are read by a machine whose state is what is known of the character under way. Each maximal
part of a character that cannot be finished is reported once, as `none`, in its place among the
characters read; what a reader does with these marks is left to it.
-/
set_option autoImplicit false

namespace HeaderRename.Utf8

/-- `inside bits more low high` wants a byte between `low` and `high`, and `more` bytes after it. -/
inductive State where
  | start
  | inside (bits more : Nat) (low high : UInt8)
deriving DecidableEq, Repr

def firstByte (b : UInt8) : List (Option Char) × State :=
  let n := b.toNat
  if n < 0x80 then ([some (Char.ofNat n)], .start)
  else if n < 0xC2 then ([none], .start)
  else if n < 0xE0 then ([], .inside (n - 0xC0) 0 0x80 0xBF)
  else if n = 0xE0 then ([], .inside 0 1 0xA0 0xBF)
  else if n = 0xED then ([], .inside 0xD 1 0x80 0x9F)
  else if n < 0xF0 then ([], .inside (n - 0xE0) 1 0x80 0xBF)
  else if n = 0xF0 then ([], .inside 0 2 0x90 0xBF)
  else if n < 0xF4 then ([], .inside (n - 0xF0) 2 0x80 0xBF)
  else if n = 0xF4 then ([], .inside 4 2 0x80 0x8F)
  else ([none], .start)

def step : State → UInt8 → List (Option Char) × State
  | .start, b => firstByte b
  | .inside bits more low high, b =>
    if low ≤ b ∧ b ≤ high then
      let bits := bits * 64 + (b.toNat - 0x80)
      match more with
      | 0 => ([some (Char.ofNat bits)], .start)
      | more + 1 => ([], .inside bits more 0x80 0xBF)
    else
      let (marks, next) := firstByte b
      (none :: marks, next)

def finish : State → List (Option Char)
  | .start => []
  | .inside .. => [none]

def readFrom (state : State) : List UInt8 → List (Option Char)
  | [] => finish state
  | b :: rest =>
    let (read, next) := step state b
    read ++ readFrom next rest

/-- The characters of the bytes, `none` standing for each maximal invalid part. -/
def read (bytes : List UInt8) : List (Option Char) :=
  readFrom .start bytes

def write (text : List Char) : List UInt8 :=
  text.flatMap String.utf8EncodeChar

/-- The text, if no byte is invalid. -/
def decode? (bytes : List UInt8) : Option (List Char) :=
  (read bytes).mapM id

def replacement : Char := '\uFFFD'

def decodeMarking (bytes : List UInt8) : List Char :=
  (read bytes).map (·.getD replacement)

def decodeDropping (bytes : List UInt8) : List Char :=
  (read bytes).filterMap id

end HeaderRename.Utf8
