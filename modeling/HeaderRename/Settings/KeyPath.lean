import HeaderRename.Number.Decimal
import HeaderRename.Settings.Setting

/-!
# Key paths

A path names a setting by keys and list indexes, as in `lib.mappings[0].to`. Setting through a path
makes tables and lists on the way and replaces what is of another kind. Tables that are set are
merged entry by entry into the table that is there; anything else replaces what is there.
-/
set_option autoImplicit false

namespace HeaderRename

inductive KeyStep where
  | key (name : String)
  | index (position : Int)
deriving DecidableEq, Repr

abbrev KeyPath := List KeyStep

namespace KeyPath

def isKeyChar (c : Char) : Bool :=
  ('a' ≤ c && c ≤ 'z') || ('A' ≤ c && c ≤ 'Z') || ('0' ≤ c && c ≤ '9') || c == '_' || c == '-'

def isSpace (c : Char) : Bool :=
  c == ' ' || c == '\t'

/-- A key at the start of a text, not empty. -/
def key? (text : List Char) : Option (KeyStep × List Char) :=
  let name := text.takeWhile isKeyChar
  if name.isEmpty then none
  else some (.key (String.ofList name), text.dropWhile isKeyChar)

/-- An index behind its opening bracket, with blanks around the number. -/
def index? (text : List Char) : Option (KeyStep × List Char) := do
  let text := text.dropWhile isSpace
  let (negative, digits) := match text with
    | '-' :: rest => (true, rest)
    | rest => (false, rest)
  let number := digits.takeWhile Char.isDigit
  if number.isEmpty then none
  else
    let magnitude := Int.ofNat (Decimal.ofDigits number)
    let position := if negative then -magnitude else magnitude
    if !Decimal.fitsSigned position then none
    else
      match (digits.dropWhile Char.isDigit).dropWhile isSpace with
      | ']' :: rest => some (.index position, rest)
      | _ => none

/-- The steps behind the first key; the fuel is the length of the text. -/
def stepsFrom : Nat → List Char → Option KeyPath
  | _, [] => some []
  | 0, _ => none
  | fuel + 1, c :: rest =>
    let step :=
      if c = '.' then key? rest else if c = '[' then index? rest else none
    match step with
    | none => none
    | some (step, rest) => (stepsFrom fuel rest).map (step :: ·)

def parse? (text : String) : Option KeyPath := do
  let (first, rest) ← key? text.toList
  return first :: (← stepsFrom rest.length rest)

end KeyPath

namespace Setting

mutual

/-- What is left when a value is set where another is: tables are merged, the first table losing
its place of origin to none if it was no table. -/
def merge : Setting → Option Setting → Setting
  | .table _ incoming, current =>
    match current with
    | some (.table origin entries) => .table origin (mergeEntries incoming entries)
    | _ => .table none (mergeEntries incoming [])
  | other, _ => other

def mergeEntries : List (String × Setting) → List (String × Setting) → List (String × Setting)
  | [], entries => entries
  | (key, value) :: rest, entries =>
    mergeEntries rest (modifyEntry key (fun current => merge value current) entries)

end

/-- The items of a list with one changed; nils are added behind or in front to reach it. -/
def modifyItem (position : Int) (change : Option Setting → Setting) (items : List Setting) :
    List Setting :=
  let size : Int := items.length
  if 0 ≤ position then
    let padded := items ++ List.replicate (position.toNat + 1 - items.length) nil
    padded.modify position.toNat fun value => change (some value)
  else if -size ≤ position then
    items.modify (size + position).toNat fun value => change (some value)
  else
    let inFront := (-position - size).toNat
    (List.replicate inFront nil ++ items).modify 0 fun value => change (some value)

/-- Sets a value at the end of a path. -/
def setAt (value : Setting) : KeyPath → Option Setting → Setting
  | [], current => merge value current
  | .key name :: path, current =>
    match current with
    | some (.table origin entries) =>
      .table origin (modifyEntry name (setAt value path) entries)
    | _ => .table none (modifyEntry name (setAt value path) [])
  | .index position :: path, current =>
    match current with
    | some (.list origin items) => .list origin (modifyItem position (setAt value path) items)
    | _ => .list none (modifyItem position (setAt value path) [])

/-- Sets a value under a name, which is read as a path if it is one. -/
def setNamed (root : Setting) (name : String) (value : Setting) : Setting :=
  setAt value ((KeyPath.parse? name).getD [.key name]) (some root)

end Setting

end HeaderRename
