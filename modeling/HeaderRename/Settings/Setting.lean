import HeaderRename.Number.Binary64

/-!
# Setting values

The values that configuration layers give, each with the place it was read from, where it has one.
Tables keep their entries in the order in which they were first set; no key occurs twice.
-/
set_option autoImplicit false

namespace HeaderRename

/-- Where a value was read: the path of a file, or the environment. -/
abbrev Origin := Option String

inductive Scalar where
  | nil
  | bool (value : Bool)
  | int (value : Int)
  | float (value : Binary64)
  | text (value : String)
deriving DecidableEq, Repr

inductive Setting where
  | scalar (origin : Origin) (value : Scalar)
  | list (origin : Origin) (items : List Setting)
  | table (origin : Origin) (entries : List (String × Setting))

namespace Setting

mutual

def same : Setting → Setting → Bool
  | .scalar origin value, .scalar origin' value' => origin == origin' && value == value'
  | .list origin items, .list origin' items' => origin == origin' && sameItems items items'
  | .table origin entries, .table origin' entries' =>
    origin == origin' && sameEntries entries entries'
  | _, _ => false

def sameItems : List Setting → List Setting → Bool
  | [], [] => true
  | item :: items, item' :: items' => same item item' && sameItems items items'
  | _, _ => false

def sameEntries : List (String × Setting) → List (String × Setting) → Bool
  | [], [] => true
  | (key, value) :: rest, (key', value') :: rest' =>
    key == key' && same value value' && sameEntries rest rest'
  | _, _ => false

end

mutual

theorem same_eq_true_iff (value value' : Setting) : same value value' = true ↔ value = value' := by
  cases value <;> cases value' <;>
    simp [same, sameItems_eq_true_iff, sameEntries_eq_true_iff]

theorem sameItems_eq_true_iff (items items' : List Setting) :
    sameItems items items' = true ↔ items = items' := by
  cases items <;> cases items' <;> simp [sameItems, same_eq_true_iff, sameItems_eq_true_iff]

theorem sameEntries_eq_true_iff (entries entries' : List (String × Setting)) :
    sameEntries entries entries' = true ↔ entries = entries' := by
  rcases entries with _ | ⟨⟨key, value⟩, rest⟩ <;>
    rcases entries' with _ | ⟨⟨key', value'⟩, rest'⟩ <;>
    simp [sameEntries, same_eq_true_iff, sameEntries_eq_true_iff]

end

instance : DecidableEq Setting := fun value value' =>
  decidable_of_iff (same value value' = true) (same_eq_true_iff value value')

def nil : Setting :=
  .scalar none .nil

def emptyTable : Setting :=
  .table none []

def origin : Setting → Origin
  | scalar origin _ => origin
  | list origin _ => origin
  | table origin _ => origin

def ofBool (value : Bool) : Setting :=
  .scalar none (.bool value)

def ofInt (value : Int) : Setting :=
  .scalar none (.int value)

def ofText (value : String) : Setting :=
  .scalar none (.text value)

/-- The entries with the value of one key changed, which is added at the end if it is not there. -/
def modifyEntry (key : String) (change : Option Setting → Setting) :
    List (String × Setting) → List (String × Setting)
  | [] => [(key, change none)]
  | (k, value) :: rest =>
    if k = key then (k, change (some value)) :: rest
    else (k, value) :: modifyEntry key change rest

theorem keys_modifyEntry (key : String) (change : Option Setting → Setting)
    (entries : List (String × Setting)) (k : String) :
    k ∈ (modifyEntry key change entries).map (·.1) ↔ k = key ∨ k ∈ entries.map (·.1) := by
  induction entries with
  | nil => simp [modifyEntry]
  | cons e rest ih =>
    by_cases h : e.1 = key
    · subst h
      simp [modifyEntry]
    · simp only [modifyEntry, h, if_false, List.map_cons, List.mem_cons, ih]
      exact or_left_comm

end Setting

end HeaderRename
