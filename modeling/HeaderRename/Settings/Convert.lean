import HeaderRename.Number.Decimal
import HeaderRename.Settings.Fault
import HeaderRename.Text.Lowercase

/-!
# Converting settings

Scalars are converted into each other where that makes sense: words and numbers into booleans,
booleans, words and numbers into numbers, all scalars into text. A structure is read from a table,
or from a list of its fields in order.
-/
set_option autoImplicit false

namespace HeaderRename.Setting

abbrev Result (α : Type) := Except SettingFault α

def wrongType {α : Type} (value : Setting) (expected : String) : Result α :=
  .error (.type value.origin (SettingFault.describe value) expected none)

def trueWords : List String := ["1", "true", "on", "yes"]
def falseWords : List String := ["0", "false", "off", "no"]

def toBool (value : Setting) : Result Bool :=
  match value with
  | .scalar _ (.bool b) => .ok b
  | .scalar _ (.int n) => .ok (n != 0)
  | .scalar _ (.float x) => .ok (!x.isZero)
  | .scalar origin (.text word) =>
    let word := Lowercase.lower word
    if trueWords.contains word then .ok true
    else if falseWords.contains word then .ok false
    else wrongType (.scalar origin (.text word)) "a boolean"
  | other => wrongType other "a boolean"

def unsignedLimit : Nat := Nat.pow 2 64

/-- A float as a natural number of 64 bits: rounded, and cut to the range. -/
def floatToNat (x : Binary64) : Nat :=
  match x with
  | .infinite negative => if negative then 0 else unsignedLimit - 1
  | other =>
    match other.toInt? with
    | some n => min n.toNat (unsignedLimit - 1)
    | none => 0

def toNat (value : Setting) : Result Nat :=
  match value with
  | .scalar _ (.bool b) => .ok (if b then 1 else 0)
  | .scalar _ (.int n) =>
    if 0 ≤ n then .ok n.toNat else wrongType value "an unsigned 64 bit or less integer"
  | .scalar _ (.float x) => .ok (floatToNat x)
  | .scalar _ (.text word) =>
    let lowered := Lowercase.lower word
    if (trueWords.drop 1).contains lowered then .ok 1
    else if (falseWords.drop 1).contains lowered then .ok 0
    else
      match Decimal.parseUnsigned? word.toList with
      | some n => .ok n
      | none => wrongType value "an integer"
  | other => wrongType other "an integer"

/-- A natural number of eight bits; beyond it, nothing is told of where the value is from. -/
def toByte (value : Setting) : Result Nat := do
  let n ← value.toNat
  if n < 256 then return n
  else throw (.type none s!"64-bit unsigned integer `{n}`" "an unsigned 8 bit integer" none)

def toText (value : Setting) : Result String :=
  match value with
  | .scalar _ (.text text) => .ok text
  | .scalar _ (.bool b) => .ok (toString b)
  | .scalar _ (.int n) => .ok (toString n)
  | .scalar _ (.float x) => .ok x.display
  | other => wrongType other "a string"

def toOption {α : Type} (convert : Setting → Result α) (value : Setting) : Result (Option α) :=
  match value with
  | .scalar _ .nil => .ok none
  | value => (convert value).map some

def wrongShape {α : Type} (value : Setting) (expected : String) : Result α :=
  .error (.message s!"invalid type: {SettingFault.describeShape value}, expected {expected}" none)

/-- Converts items, each fault told with the index of its item; the first has index `position`. -/
def convertItems {α : Type} (convert : Setting → Result α) (position : Nat) :
    List Setting → Result (List α)
  | [] => .ok []
  | item :: items => do
    let head ← (convert item).mapError (.underIndex position)
    let tail ← convertItems convert (position + 1) items
    return head :: tail

def toList {α : Type} (convert : Setting → Result α) (value : Setting) : Result (List α) :=
  match value with
  | .list _ items => convertItems convert 0 items
  | other => wrongShape other "a sequence"

/-- One of the named variants: its name, or a table whose only key is its name. -/
def toVariant {α : Type} (typeName : String) (variants : List (String × α)) (value : Setting) :
    Result α :=
  let named := fun name =>
    match variants.lookup name with
    | some variant => .ok variant
    | none => .error (.message s!"enum {typeName} does not have variant constructor {name}" none)
  match value with
  | .scalar _ (.text name) => named name
  | .table _ [(name, _)] => named name
  | _ =>
    .error (.message (s!"value of enum {typeName} should be represented by either string or " ++
      "table with exactly one key") none)

/-- A field of a structure: how a value changes the structure being read. -/
structure FieldReader (σ : Type) where
  name : String
  assign : σ → Setting → Result σ

def FieldReader.of {σ α : Type} (name : String) (convert : Setting → Result α)
    (update : σ → α → σ) : FieldReader σ where
  name := name
  assign := fun state value => (convert value).map (update state)

def ticked (name : String) : String :=
  s!"`{name}`"

def unknownField {α : Type} (name : String) (known : List String) : Result α :=
  let expected := match known with
    | [a, b] => s!"{ticked a} or {ticked b}"
    | names => "one of " ++ ", ".intercalate (names.map ticked)
  .error (.message s!"unknown field {ticked name}, expected {expected}" none)

/-- Reads the entries of a table one after another. -/
def readEntries {σ : Type} (fields : List (FieldReader σ)) (state : σ) :
    List (String × Setting) → Result σ
  | [] => .ok state
  | (key, value) :: rest =>
    match fields.find? (·.name == key) with
    | none => unknownField key (fields.map (·.name))
    | some field => do
      let state ← (field.assign state value).mapError (.underKey key)
      readEntries fields state rest

/-- Reads items as the fields in order; items beyond the fields are left unread. -/
def readItems {σ : Type} (state : σ) (position : Nat) :
    List (FieldReader σ) → List Setting → Result σ
  | field :: fields, item :: items => do
    let state ← (field.assign state item).mapError (.underIndex position)
    readItems state (position + 1) fields items
  | _, _ => .ok state

def readStruct {σ : Type} (name : String) (fields : List (FieldReader σ)) (start : σ)
    (value : Setting) : Result σ :=
  match value with
  | .table _ entries => readEntries fields start entries
  | .list _ items => readItems start 0 fields items
  | other => wrongShape other s!"struct {name}"

end HeaderRename.Setting
