import HeaderRename.Proofs.Settings.Merge
import Mathlib.Logic.Basic

/-!
# What a path reaches

Setting through a path that starts with a key keeps every key of a table and of its sections from
occurring twice. A field that the path spares keeps its value; and settings that agree but for one
field agree but for that field after both were changed through a path that spares it.
-/
set_option autoImplicit false

namespace HeaderRename.Setting

/-- A table in which no key occurs twice, and in none of its sections that are tables either. -/
structure Keyed (root : Setting) : Prop where
  isTable : root.isTable = true
  nodup : ((entriesOf (some root)).map (·.1)).Nodup
  sections : ∀ name, ((entriesOf ((entriesOf (some root)).lookup name)).map (·.1)).Nodup

theorem keyed_emptyTable : Keyed emptyTable where
  isTable := rfl
  nodup := List.nodup_nil
  sections := fun _ => List.nodup_nil

theorem Sectioned.keyed {root : Setting} (h : Sectioned root) : Keyed root where
  isTable := h.isTable
  nodup := h.nodup
  sections := fun name => by
    cases hValue : (entriesOf (some root)).lookup name with
    | none => exact List.nodup_nil
    | some value => exact (h.sections name value hValue).2

def StartsWithKey (path : KeyPath) : Prop :=
  ∃ name rest, path = .key name :: rest

theorem startsWithKey_of_parse? {text : String} {path : KeyPath}
    (h : KeyPath.parse? text = some path) : StartsWithKey path := by
  simp only [KeyPath.parse?, bind, Option.bind_eq_some_iff, pure, Option.some.injEq,
    Prod.exists] at h
  obtain ⟨first, rest, hFirst, steps, _, rfl⟩ := h
  unfold KeyPath.key? at hFirst
  dsimp only at hFirst
  split at hFirst
  · cases hFirst
  · cases hFirst
    exact ⟨_, steps, rfl⟩

theorem nodup_keys_setAt (value : Setting) (path : KeyPath) {current : Option Setting}
    (h : ((entriesOf current).map (·.1)).Nodup) :
    ((entriesOf (some (setAt value path current))).map (·.1)).Nodup := by
  rcases path with _ | ⟨name | position, rest⟩
  · rw [setAt]
    cases value with
    | scalar | list => exact List.nodup_nil
    | table origin incoming =>
      obtain ⟨origin', hMerge⟩ := merge_table origin incoming current
      rw [hMerge]
      exact nodup_keys_mergeEntries incoming h
  · obtain ⟨origin, hSet⟩ := setAt_key value name rest current
    rw [hSet]
    exact nodup_keys_modifyEntry _ _ _ h
  · rcases current with _ | _ | _ | _ <;> exact List.nodup_nil

theorem lookup_place (section_ : String) (rest : KeyPath) (value root : Setting) (name : String) :
    (entriesOf (some (place root (.key section_ :: rest, value)))).lookup name =
      if name = section_ then some (setAt value rest ((entriesOf (some root)).lookup section_))
      else (entriesOf (some root)).lookup name := by
  obtain ⟨origin, hPlace⟩ := setAt_key value section_ rest (some root)
  rw [place, hPlace, entriesOf, lookup_modifyEntry]

theorem keyed_place {root : Setting} (hRoot : Keyed root) {placed : KeyPath × Setting}
    (hPlaced : StartsWithKey placed.1) : Keyed (place root placed) := by
  obtain ⟨path, value⟩ := placed
  obtain ⟨section_, rest, hPath⟩ := hPlaced
  obtain rfl : path = .key section_ :: rest := hPath
  obtain ⟨origin, hPlace⟩ := setAt_key value section_ rest (some root)
  refine ⟨?_, ?_, fun name => ?_⟩
  · rw [place, hPlace]
    rfl
  · rw [place, hPlace]
    exact nodup_keys_modifyEntry _ _ _ hRoot.nodup
  · rw [lookup_place]
    split
    · exact nodup_keys_setAt value rest (hRoot.sections section_)
    · exact hRoot.sections name

theorem keyed_foldl_place {layers : List (KeyPath × Setting)}
    (hLayers : ∀ placed ∈ layers, StartsWithKey placed.1) {root : Setting} (hRoot : Keyed root) :
    Keyed (layers.foldl place root) := by
  induction layers generalizing root with
  | nil => exact hRoot
  | cons placed layers ih =>
    obtain ⟨hPlaced, hRest⟩ := List.forall_mem_cons.mp hLayers
    exact ih hRest (keyed_place hRoot hPlaced)

def fieldPath (section_ name : String) : KeyPath :=
  [.key section_, .key name]

theorem field?_place_key_key (section_ name : String) (rest : KeyPath) (value root : Setting)
    (section' name' : String) :
    field? section' name' (place root (.key section_ :: .key name :: rest, value)) =
      if section' = section_ ∧ name' = name then some (setAt value rest (field? section_ name root))
      else field? section' name' root := by
  rw [field?, lookup_place]
  by_cases hSection : section' = section_
  · subst hSection
    obtain ⟨origin, hSet⟩ :=
      setAt_key value name rest ((entriesOf (some root)).lookup section')
    rw [if_pos rfl, hSet, entriesOf, lookup_modifyEntry]
    simp only [true_and, field?]
  · rw [if_neg hSection, if_neg (fun hBoth => hSection hBoth.1), field?]

/-- A path leaves a field as it is if it leads into another section, or to another field. -/
def spares (section_ name : String) : KeyPath → Bool
  | .key section' :: .key name' :: _ => section' != section_ || name' != name
  | .key section' :: _ => section' != section_
  | _ => false

theorem exists_of_spares {section_ name : String} {path : KeyPath}
    (h : spares section_ name path = true) :
    (∃ section' rest, path = .key section' :: rest ∧ section' ≠ section_) ∨
      ∃ name' rest, path = .key section_ :: .key name' :: rest ∧ name' ≠ name := by
  unfold spares at h
  split at h
  · next section' name' rest =>
    by_cases hSection : section' = section_
    · subst hSection
      exact .inr ⟨name', rest, rfl, by simpa using h⟩
    · exact .inl ⟨section', .key name' :: rest, rfl, hSection⟩
  · next section' rest _ => exact .inl ⟨section', rest, rfl, by simpa using h⟩
  · cases h

section Field

variable {section_ name : String} {root root' : Setting}

theorem field?_place_of_spares {placed : KeyPath × Setting}
    (h : spares section_ name placed.1 = true) :
    field? section_ name (place root placed) = field? section_ name root := by
  obtain ⟨path, value⟩ := placed
  rcases exists_of_spares h with ⟨section', rest, hPath, hOther⟩ | ⟨name', rest, hPath, hOther⟩
  · obtain rfl : path = .key section' :: rest := hPath
    rw [field?, lookup_place, if_neg hOther.symm, field?]
  · obtain rfl : path = .key section_ :: .key name' :: rest := hPath
    rw [field?_place_key_key, if_neg fun hBoth => hOther hBoth.2.symm]

theorem field?_place_fieldPath {value : Setting} (hValue : value.isTable = false) :
    field? section_ name (place root (fieldPath section_ name, value)) = some value := by
  rw [fieldPath, field?_place_key_key, if_pos ⟨rfl, rfl⟩, setAt, merge_of_not_isTable hValue]

/-- Settings that have the same value everywhere but in one field. -/
structure AgreeBut (section_ name : String) (root root' : Setting) : Prop where
  sections : ∀ section', section' ≠ section_ →
    (entriesOf (some root)).lookup section' = (entriesOf (some root')).lookup section'
  fields : ∀ name', name' ≠ name → field? section_ name' root = field? section_ name' root'

theorem AgreeBut.refl (root : Setting) : AgreeBut section_ name root root :=
  ⟨fun _ _ => rfl, fun _ _ => rfl⟩

theorem AgreeBut.symm (h : AgreeBut section_ name root root') : AgreeBut section_ name root' root :=
  ⟨fun section' hOther => (h.sections section' hOther).symm,
    fun name' hOther => (h.fields name' hOther).symm⟩

theorem AgreeBut.trans {root'' : Setting} (h : AgreeBut section_ name root root')
    (h' : AgreeBut section_ name root' root'') : AgreeBut section_ name root root'' :=
  ⟨fun section' hOther => (h.sections section' hOther).trans (h'.sections section' hOther),
    fun name' hOther => (h.fields name' hOther).trans (h'.fields name' hOther)⟩

theorem AgreeBut.place_of_spares (h : AgreeBut section_ name root root')
    {placed : KeyPath × Setting} (hSpares : spares section_ name placed.1 = true) :
    AgreeBut section_ name (place root placed) (place root' placed) := by
  obtain ⟨path, value⟩ := placed
  rcases exists_of_spares hSpares with
    ⟨section', rest, hPath, hOther⟩ | ⟨name', rest, hPath, hOther⟩
  · obtain rfl : path = .key section' :: rest := hPath
    refine ⟨fun section'' hSection => ?_, fun name' hName => ?_⟩
    · rw [lookup_place, lookup_place, h.sections section' hOther, h.sections section'' hSection]
    · rw [field?, lookup_place, if_neg hOther.symm, field?, lookup_place, if_neg hOther.symm]
      exact h.fields name' hName
  · obtain rfl : path = .key section_ :: .key name' :: rest := hPath
    refine ⟨fun section' hSection => ?_, fun name'' hName => ?_⟩
    · rw [lookup_place, if_neg hSection, lookup_place, if_neg hSection]
      exact h.sections section' hSection
    · rw [field?_place_key_key, field?_place_key_key, h.fields name' hOther, h.fields name'' hName]

theorem agreeBut_place_fieldPath (root : Setting) (value : Setting) :
    AgreeBut section_ name (place root (fieldPath section_ name, value)) root := by
  refine ⟨fun section' hSection => ?_, fun name' hName => ?_⟩
  · rw [fieldPath, lookup_place, if_neg hSection]
  · rw [fieldPath, field?_place_key_key, if_neg fun hBoth => hName hBoth.2]

/-- A field is set as a whole, to no table, or left as it is. -/
def SetsOrSpares (section_ name : String) (placed : KeyPath × Setting) : Prop :=
  placed.1 = fieldPath section_ name ∧ placed.2.isTable = false ∨
    spares section_ name placed.1 = true

instance (placed : KeyPath × Setting) : Decidable (SetsOrSpares section_ name placed) :=
  inferInstanceAs (Decidable (_ ∨ _))

theorem setsOrSpares_fieldPath (section' name' : String) {value : Setting}
    (hValue : value.isTable = false) :
    SetsOrSpares section_ name (fieldPath section' name', value) := by
  by_cases hPath : fieldPath section' name' = fieldPath section_ name
  · exact .inl ⟨hPath, hValue⟩
  · refine .inr ?_
    simp only [fieldPath, List.cons.injEq, KeyStep.key.injEq, and_true] at hPath
    simp only [spares, fieldPath, Bool.or_eq_true, bne_iff_ne]
    exact not_and_or.mp hPath

theorem spares_fieldPath : spares section_ name (fieldPath section_ name) = false := by
  simp [spares, fieldPath]

variable {layers : List (KeyPath × Setting)}
  (hLayers : ∀ placed ∈ layers, SetsOrSpares section_ name placed)

include hLayers

theorem field?_foldl_place_eq_last? (root : Setting) :
    field? section_ name (layers.foldl place root) =
      (last? (fieldPath section_ name) layers).or (field? section_ name root) := by
  induction layers generalizing root with
  | nil => rfl
  | cons placed layers ih =>
    obtain ⟨hPlaced, hRest⟩ := List.forall_mem_cons.mp hLayers
    rw [List.foldl_cons, ih hRest, last?_cons, last?_singleton, Option.or_assoc]
    congr 1
    rcases hPlaced with ⟨hPath, hValue⟩ | hSpares
    · obtain ⟨path, value⟩ := placed
      obtain rfl : path = fieldPath section_ name := hPath
      rw [if_pos rfl, field?_place_fieldPath hValue, Option.some_or]
    · have hOther : fieldPath section_ name ≠ placed.1 := by
        intro hSame
        rw [← hSame, spares_fieldPath] at hSpares
        cases hSpares
      rw [if_neg hOther, field?_place_of_spares hSpares, Option.none_or]

/-- What such layers leave elsewhere does not depend on those that set the field. -/
theorem AgreeBut.foldl_place (h : AgreeBut section_ name root root') :
    AgreeBut section_ name (layers.foldl place root)
      ((layers.filter (·.1 ≠ fieldPath section_ name)).foldl place root') := by
  induction layers generalizing root root' with
  | nil => exact h
  | cons placed layers ih =>
    obtain ⟨hPlaced, hRest⟩ := List.forall_mem_cons.mp hLayers
    by_cases hPath : placed.1 = fieldPath section_ name
    · obtain ⟨path, value⟩ := placed
      obtain rfl : path = fieldPath section_ name := hPath
      rw [List.filter_cons_of_neg (by simp)]
      exact ih hRest ((agreeBut_place_fieldPath root value).trans h)
    · rw [List.filter_cons_of_pos (by simpa using hPath)]
      have hSpares := hPlaced.resolve_left fun hSets => hPath hSets.1
      exact ih hRest (h.place_of_spares hSpares)

omit hLayers in
theorem last?_fieldPath_eq_none
    (hSpares : ∀ placed ∈ layers, spares section_ name placed.1 = true) :
    last? (fieldPath section_ name) layers = none := by
  refine last?_eq_none_of_not_mem _ fun hMem => ?_
  obtain ⟨placed, hPlaced, hPath⟩ := List.mem_map.mp hMem
  have hNot := hSpares placed hPlaced
  rw [hPath, spares_fieldPath] at hNot
  cases hNot

omit hLayers in
/-- A field that is set before layers that spare it. -/
theorem foldl_place_insert (value : Setting) (hValue : value.isTable = false)
    (front : List (KeyPath × Setting))
    (hSpares : ∀ placed ∈ layers, spares section_ name placed.1 = true) (root : Setting) :
    AgreeBut section_ name
        ((front ++ (fieldPath section_ name, value) :: layers).foldl place root)
        ((front ++ layers).foldl place root) ∧
      field? section_ name
        ((front ++ (fieldPath section_ name, value) :: layers).foldl place root) = some value := by
  have hRest : ∀ placed ∈ layers, SetsOrSpares section_ name placed :=
    fun placed hPlaced => .inr (hSpares placed hPlaced)
  have hAll : ∀ placed ∈ (fieldPath section_ name, value) :: layers,
      SetsOrSpares section_ name placed :=
    List.forall_mem_cons.mpr ⟨.inl ⟨rfl, hValue⟩, hRest⟩
  rw [List.foldl_append, List.foldl_append]
  constructor
  · have hWith := (AgreeBut.refl (front.foldl place root)).foldl_place hAll
    have hWithout := (AgreeBut.refl (front.foldl place root)).foldl_place hRest
    rw [List.filter_cons_of_neg (by simp)] at hWith
    exact hWith.trans hWithout.symm
  · rw [field?_foldl_place_eq_last? hAll, last?_cons, last?_fieldPath_eq_none hSpares,
      last?_singleton, if_pos rfl, Option.none_or, Option.some_or]

end Field

end HeaderRename.Setting
