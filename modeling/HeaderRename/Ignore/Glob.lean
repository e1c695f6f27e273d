import HeaderRename.Pattern.Regular

/-!
# Globs of ignore files

A glob is matched against the bytes of a whole path. Stars stop at slashes, two stars between
slashes do not; classes are sets of bytes. A bracket that is not closed stands for itself, and so do
all brackets after it.
-/
set_option autoImplicit false

namespace HeaderRename.Ignore

abbrev PathExpr := Regular UInt8

namespace PathExpr

def byte (b : UInt8) : PathExpr :=
  .symbol (· == b)

def slashByte : UInt8 := 0x2F

def slash : PathExpr :=
  byte slashByte

def within : PathExpr :=
  .symbol (· != slashByte)

def anything : PathExpr :=
  .star .any

def char (c : Char) : PathExpr :=
  .sequence ((String.utf8EncodeChar c).map byte)

/-- The bytes of a class. Of a range between longer characters only its two inner bytes form a
range; such a range running backwards spoils the class. -/
def classSpans? : List (Char × Char) → Option (List (UInt8 × UInt8))
  | [] => some []
  | (first, last) :: rest => do
    let spans ← classSpans? rest
    let single := fun b => (b, b)
    let low := String.utf8EncodeChar first
    if first = last then return low.map single ++ spans
    let high := String.utf8EncodeChar last
    let a ← low.getLast?
    let z ← high.head?
    if z < a then none
    else return low.dropLast.map single ++ [(a, z)] ++ (high.drop 1).map single ++ spans

def oneOf (negated : Bool) (items : List (Char × Char)) : PathExpr :=
  match classSpans? items with
  | none => .never
  | some spans => .symbol fun b => (spans.any fun (a, z) => a ≤ b && b ≤ z) != negated

end PathExpr

inductive Token where
  | char (c : Char)
  | one
  | many
  | deepStart
  | deepEnd
  | deep
  | oneOf (negated : Bool) (items : List (Char × Char))
  | alternatives (branches : List (List Token))

namespace Token

mutual

def expr : Token → PathExpr
  | char c => PathExpr.char c
  | one => PathExpr.within
  | many => .star PathExpr.within
  | deepStart => .alt (.optional PathExpr.slash) (.seq PathExpr.anything PathExpr.slash)
  | deepEnd => .seq PathExpr.slash PathExpr.anything
  | deep =>
    .alt PathExpr.slash (.sequence [PathExpr.slash, PathExpr.anything, PathExpr.slash])
  | oneOf negated items => PathExpr.oneOf negated items
  | alternatives branches =>
    if branches.all List.isEmpty then .nothing else branchesExpr branches

def listExpr : List Token → PathExpr
  | [] => .nothing
  | token :: tokens => .seq (expr token) (listExpr tokens)

/-- Empty branches are left out. -/
def branchesExpr : List (List Token) → PathExpr
  | [] => .never
  | branch :: branches =>
    if branch.isEmpty then branchesExpr branches
    else .alt (listExpr branch) (branchesExpr branches)

end

end Token

/-- The groups being read, innermost first: for each its finished branches and the branch under
way, both backwards. -/
structure Reader where
  current : List Token
  outer : List (List (List Token) × List Token)
  done : List (List Token)

namespace Reader

def push (reader : Reader) (token : Token) : Reader :=
  { reader with current := token :: reader.current }

def openGroup (reader : Reader) : Reader :=
  { current := [], done := [], outer := (reader.done, reader.current) :: reader.outer }

def closeGroup? (reader : Reader) : Option Reader :=
  match reader.outer with
  | [] => none
  | (done, current) :: outer =>
    let branches := (reader.current.reverse :: reader.done).reverse
    some { current := .alternatives branches :: current, done, outer }

def comma (reader : Reader) : Reader :=
  if reader.outer.isEmpty then reader.push (.char ',')
  else { reader with current := [], done := reader.current.reverse :: reader.done }

end Reader

inductive ClassResult where
  | closed (items : List (Char × Char)) (rest : List Char)
  | unclosed
  | backwards

/-- Reads the inside of a class; `items` are those read, the last one first. -/
def readClass (items : List (Char × Char)) (inRange : Bool) : List Char → ClassResult
  | [] => .unclosed
  | c :: rest =>
    if c = ']' && !items.isEmpty then
      .closed ((if inRange then ('-', '-') :: items else items).reverse) rest
    else if c = '-' && !items.isEmpty && !inRange then readClass items true rest
    else if inRange then
      match items with
      | (first, _) :: others =>
        if c < first then .backwards else readClass ((first, c) :: others) false rest
      | [] => .backwards
    else readClass ((c, c) :: items) false rest

def readClassFrom (rest : List Char) : Bool × ClassResult :=
  match rest with
  | '!' :: rest => (true, readClass [] false rest)
  | '^' :: rest => (true, readClass [] false rest)
  | rest => (false, readClass [] false rest)

/-- The two stars just read: what they mean, and how many of the characters behind them they
take. -/
def readStars (reader : Reader) (before : Option Char) (rest : List Char) : Reader × Nat :=
  let plain := ((reader.push .many).push .many, 0)
  let next := rest.head?
  if reader.current.isEmpty then
    match next with
    | none => (reader.push .deepStart, 0)
    | some c => if c = '/' then (reader.push .deepStart, 1) else plain
  else if before ≠ some '/' &&
      (reader.outer.isEmpty || (before ≠ some ',' && before ≠ some '\x7b')) then plain
  else
    let last := next.isNone ||
      (!reader.outer.isEmpty && (next = some ',' || next = some '\x7d'))
    if !last && next ≠ some '/' then plain
    else
      let taken := if last then 0 else 1
      match reader.current with
      | .deepStart :: tokens => ({ reader with current := .deepStart :: tokens }, taken)
      | .deepEnd :: tokens => ({ reader with current := .deepEnd :: tokens }, taken)
      | _ :: tokens =>
        ({ reader with current := (if last then .deepEnd else .deep) :: tokens }, taken)
      | [] => plain

/-- Reads a glob; `bare` tells that brackets stand for themselves. The fuel is the length. -/
def readTokens : Nat → Bool → Option Char → Reader → List Char → Option Reader
  | _, _, _, reader, [] => some reader
  | 0, _, _, _, _ => none
  | fuel + 1, bare, before, reader, c :: rest =>
    match c with
    | '?' => readTokens fuel bare (some c) (reader.push .one) rest
    | '*' =>
      match rest with
      | '*' :: more =>
        let (reader, taken) := readStars reader before more
        readTokens fuel bare (if taken = 0 then some '*' else more.head?) reader (more.drop taken)
      | _ => readTokens fuel bare (some c) (reader.push .many) rest
    | '[' =>
      if bare then readTokens fuel bare (some c) (reader.push (.char c)) rest
      else
        match readClassFrom rest with
        | (negated, .closed items more) =>
          readTokens fuel bare (some ']') (reader.push (.oneOf negated items)) more
        | (_, .unclosed) => readTokens fuel true (some c) (reader.push (.char c)) rest
        | (_, .backwards) => none
    | '\x7b' => readTokens fuel bare (some c) reader.openGroup rest
    | '\x7d' =>
      match reader.closeGroup? with
      | some reader => readTokens fuel bare (some c) reader rest
      | none => none
    | ',' => readTokens fuel bare (some c) reader.comma rest
    | '\\' =>
      match rest with
      | [] => none
      | d :: rest => readTokens fuel bare (some d) (reader.push (.char d)) rest
    | c => readTokens fuel bare (some c) (reader.push (.char c)) rest

def parseGlob? (glob : List Char) : Option (List Token) :=
  match readTokens glob.length false none ⟨[], [], []⟩ glob with
  | some ⟨current, [], _⟩ => some current.reverse
  | _ => none

/-- The expression of a glob; two stars alone match every path. -/
def globExpr? (glob : List Char) : Option PathExpr :=
  match parseGlob? glob with
  | none => none
  | some [.deepStart] => some PathExpr.anything
  | some tokens => some (Token.listExpr tokens)

end HeaderRename.Ignore
