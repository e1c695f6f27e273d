import HeaderRename.Settings.KeyPath
import Mathlib.Data.List.Nodup

/-!
# Merged settings

When all that is set are fields of sections, and no field is set to a table, then a field has in the
end the value that was set last, as it was set: what is set elsewhere, or was set before, leaves no
trace in it.
-/
set_option autoImplicit false

namespace HeaderRename.Setting

section Last

variable {α β : Type} [BEq α] (key : α)

/-- The value that is listed last under a key. -/
def last? (entries : List (α × β)) : Option β :=
  entries.reverse.lookup key

theorem last?_append (entries entries' : List (α × β)) :
    last? key (entries ++ entries') = (last? key entries').or (last? key entries) := by
  rw [last?, List.reverse_append, List.lookup_append, last?, last?]

theorem last?_cons (entry : α × β) (entries : List (α × β)) :
    last? key (entry :: entries) = (last? key entries).or (last? key [entry]) := by
  rw [← List.singleton_append, last?_append]

theorem last?_flatMap {γ : Type} (entriesOf : γ → List (α × β)) (items : List γ) :
    last? key (items.flatMap entriesOf) =
      items.reverse.findSome? fun item => last? key (entriesOf item) := by
  induction items with
  | nil => rfl
  | cons item items ih =>
    rw [List.flatMap_cons, last?_append, ih, List.reverse_cons, List.findSome?_append,
      List.findSome?_singleton]

variable [LawfulBEq α]

theorem lookup_eq_none_of_not_mem {entries : List (α × β)} (h : key ∉ entries.map (·.1)) :
    entries.lookup key = none := by
  rw [List.lookup_eq_none_iff]
  intro entry hEntry
  rw [bne_iff_ne]
  rintro rfl
  exact h (List.mem_map_of_mem hEntry)

theorem last?_eq_none_of_not_mem {entries : List (α × β)} (h : key ∉ entries.map (·.1)) :
    last? key entries = none := by
  refine lookup_eq_none_of_not_mem key fun hMem => h ?_
  rwa [List.map_reverse, List.mem_reverse] at hMem

theorem mem_of_lookup_eq_some {entries : List (α × β)} {value : β}
    (h : entries.lookup key = some value) : (key, value) ∈ entries := by
  obtain ⟨front, rest, rfl, _⟩ := List.lookup_eq_some_iff.mp h
  exact List.mem_append_right front List.mem_cons_self

theorem mem_of_last?_eq_some {entries : List (α × β)} {value : β}
    (h : last? key entries = some value) : (key, value) ∈ entries :=
  List.mem_reverse.mp (mem_of_lookup_eq_some key h)

variable [DecidableEq α]

theorem lookup_cons_eq_ite (entry : α × β) (entries : List (α × β)) :
    (entry :: entries).lookup key = if key = entry.1 then some entry.2 else entries.lookup key := by
  obtain ⟨name, value⟩ := entry
  rw [List.lookup_cons]
  cases hKey : key == name with
  | true => rw [if_pos (beq_iff_eq.mp hKey)]
  | false => rw [if_neg (beq_eq_false_iff_ne.mp hKey)]

theorem last?_singleton (entry : α × β) :
    last? key [entry] = if key = entry.1 then some entry.2 else none := by
  rw [last?, List.reverse_singleton, lookup_cons_eq_ite, List.lookup_nil]

theorem last?_eq_lookup {entries : List (α × β)} (h : (entries.map (·.1)).Nodup) :
    last? key entries = entries.lookup key := by
  induction entries with
  | nil => rfl
  | cons entry entries ih =>
    obtain ⟨hNew, hNodup⟩ := List.nodup_cons.mp h
    rw [last?_cons, ih hNodup, last?_singleton, lookup_cons_eq_ite]
    by_cases hKey : key = entry.1
    · subst hKey
      rw [lookup_eq_none_of_not_mem _ hNew, Option.none_or]
    · rw [if_neg hKey, if_neg hKey, Option.or_none]

end Last

section Entries

variable (key : String) (change : Option Setting → Setting) (entries : List (String × Setting))

theorem lookup_modifyEntry (name : String) : (modifyEntry key change entries).lookup name =
    if name = key then some (change (entries.lookup key)) else entries.lookup name := by
  induction entries with
  | nil => rw [modifyEntry, lookup_cons_eq_ite, List.lookup_nil, List.lookup_nil]
  | cons entry rest ih =>
    rw [modifyEntry, lookup_cons_eq_ite, lookup_cons_eq_ite]
    by_cases hKey : entry.1 = key
    · rw [if_pos hKey, lookup_cons_eq_ite, hKey, if_pos rfl]
      split <;> rfl
    · rw [if_neg hKey, lookup_cons_eq_ite, ih, if_neg (Ne.symm hKey)]
      by_cases hName : name = entry.1
      · rw [if_pos hName, if_pos hName, if_neg (hName ▸ hKey)]
      · rw [if_neg hName, if_neg hName]

theorem nodup_keys_modifyEntry (h : (entries.map (·.1)).Nodup) :
    ((modifyEntry key change entries).map (·.1)).Nodup := by
  induction entries with
  | nil => simp [modifyEntry]
  | cons entry rest ih =>
    rw [List.map_cons, List.nodup_cons] at h
    by_cases hKey : entry.1 = key
    · rw [modifyEntry, if_pos hKey, List.map_cons, List.nodup_cons]
      exact h
    · rw [modifyEntry, if_neg hKey, List.map_cons, List.nodup_cons, keys_modifyEntry]
      exact ⟨fun hMem => hMem.elim hKey h.1, ih h.2⟩

end Entries

def isTable : Setting → Bool
  | table .. => true
  | _ => false

theorem merge_of_not_isTable {value : Setting} (h : value.isTable = false)
    (current : Option Setting) : merge value current = value := by
  cases value with
  | table => cases h
  | scalar | list =>
    rw [merge]
    intro _ _ hTable
    cases hTable

theorem lookup_mergeEntries {incoming : List (String × Setting)}
    (hPlain : ∀ entry ∈ incoming, entry.2.isTable = false) (entries : List (String × Setting))
    (name : String) : (mergeEntries incoming entries).lookup name =
      (last? name incoming).or (entries.lookup name) := by
  induction incoming generalizing entries with
  | nil => rw [mergeEntries]; rfl
  | cons entry incoming ih =>
    obtain ⟨hEntry, hRest⟩ := List.forall_mem_cons.mp hPlain
    rw [mergeEntries, ih hRest, lookup_modifyEntry, merge_of_not_isTable hEntry, last?_cons,
      Option.or_assoc, last?_singleton]
    by_cases hName : name = entry.1 <;> simp [hName]

theorem nodup_keys_mergeEntries (incoming : List (String × Setting))
    {entries : List (String × Setting)} (h : (entries.map (·.1)).Nodup) :
    ((mergeEntries incoming entries).map (·.1)).Nodup := by
  induction incoming generalizing entries with
  | nil => rwa [mergeEntries]
  | cons entry incoming ih =>
    rw [mergeEntries]
    exact ih (nodup_keys_modifyEntry _ _ _ h)

def entriesOf : Option Setting → List (String × Setting)
  | some (table _ entries) => entries
  | _ => []

/-- The value of a field of a section. -/
def field? (section_ name : String) (root : Setting) : Option Setting :=
  (entriesOf ((entriesOf (some root)).lookup section_)).lookup name

/-- A table of tables, in none of which a key occurs twice. -/
structure Sectioned (root : Setting) : Prop where
  isTable : root.isTable = true
  nodup : ((entriesOf (some root)).map (·.1)).Nodup
  sections : ∀ name value, (entriesOf (some root)).lookup name = some value →
    value.isTable = true ∧ ((entriesOf (some value)).map (·.1)).Nodup

theorem sectioned_emptyTable : Sectioned emptyTable where
  isTable := rfl
  nodup := List.nodup_nil
  sections := fun _ _ h => by cases h

/-- The section and the fields that are set, where a section or a field is. -/
def block? : KeyPath × Setting → Option (String × List (String × Setting))
  | ([.key section_], .table _ entries) => some (section_, entries)
  | ([.key section_, .key name], value) => some (section_, [(name, value)])
  | _ => none

/-- All that is set are fields of a section, and none is set to a table. -/
def isPlain (placed : KeyPath × Setting) : Bool :=
  (block? placed).any fun block => block.2.all fun entry => !entry.2.isTable

theorem exists_block_of_isPlain {placed : KeyPath × Setting} (h : isPlain placed = true) :
    ∃ section_ incoming, block? placed = some (section_, incoming) ∧
      ∀ entry ∈ incoming, entry.2.isTable = false := by
  unfold isPlain at h
  cases hBlock : block? placed with
  | none =>
    rw [hBlock] at h
    cases h
  | some block =>
    rw [hBlock] at h
    exact ⟨block.1, block.2, rfl, by simpa using h⟩

def fieldsOf (placed : KeyPath × Setting) : List ((String × String) × Setting) :=
  (block? placed).elim [] fun block => block.2.map fun entry => ((block.1, entry.1), entry.2)

def place (root : Setting) (placed : KeyPath × Setting) : Setting :=
  setAt placed.2 placed.1 (some root)

theorem merge_table (origin : Origin) (incoming : List (String × Setting))
    (current : Option Setting) : ∃ origin', merge (.table origin incoming) current =
      .table origin' (mergeEntries incoming (entriesOf current)) := by
  unfold merge
  split
  · exact ⟨_, rfl⟩
  · next hTable =>
    refine ⟨none, ?_⟩
    rw [entriesOf]
    exact hTable

theorem setAt_key (value : Setting) (name : String) (path : KeyPath) (current : Option Setting) :
    ∃ origin, setAt value (.key name :: path) current =
      .table origin (modifyEntry name (setAt value path) (entriesOf current)) := by
  rcases current with _ | _ | _ | ⟨origin, entries⟩
  · exact ⟨none, rfl⟩
  · exact ⟨none, rfl⟩
  · exact ⟨none, rfl⟩
  · exact ⟨origin, rfl⟩

theorem exists_place_eq {placed : KeyPath × Setting} {section_ : String}
    {incoming : List (String × Setting)} (h : block? placed = some (section_, incoming))
    (root : Setting) : ∃ origin change,
      place root placed = .table origin (modifyEntry section_ change (entriesOf (some root))) ∧
      ∀ current, ∃ origin',
        change current = .table origin' (mergeEntries incoming (entriesOf current)) := by
  obtain ⟨path, value⟩ := placed
  unfold block? at h
  split at h
  · next origin entries hPlaced =>
    cases hPlaced
    cases h
    obtain ⟨origin', hRoot⟩ := setAt_key (.table origin incoming) section_ [] (some root)
    exact ⟨origin', _, hRoot, merge_table origin incoming⟩
  · next name value' hPlaced =>
    cases hPlaced
    cases h
    obtain ⟨origin, hRoot⟩ := setAt_key value section_ [.key name] (some root)
    -- a single field is set just as a table of one field is merged
    refine ⟨origin, _, hRoot, fun current => ?_⟩
    obtain ⟨origin', hSection⟩ := setAt_key value name [] current
    refine ⟨origin', ?_⟩
    rw [hSection, mergeEntries, mergeEntries]
    rfl
  · cases h

theorem last?_map (section_ section' name : String) (entries : List (String × Setting)) :
    last? (section', name) (entries.map fun entry => ((section_, entry.1), entry.2)) =
      if section' = section_ then last? name entries else none := by
  induction entries with
  | nil => split <;> rfl
  | cons entry entries ih =>
    rw [List.map_cons, last?_cons, ih, last?_singleton, last?_cons name, last?_singleton]
    by_cases hSection : section' = section_ <;> simp [hSection]

theorem sectioned_place {root : Setting} {placed : KeyPath × Setting} (hRoot : Sectioned root)
    (hPlain : isPlain placed = true) : Sectioned (place root placed) := by
  obtain ⟨section_, incoming, hBlock, _⟩ := exists_block_of_isPlain hPlain
  obtain ⟨origin, change, hPlace, hChange⟩ := exists_place_eq hBlock root
  rw [hPlace]
  refine ⟨rfl, nodup_keys_modifyEntry _ _ _ hRoot.nodup, fun name value hLookup => ?_⟩
  rw [entriesOf, lookup_modifyEntry] at hLookup
  split at hLookup
  · obtain ⟨origin', hValue⟩ := hChange ((entriesOf (some root)).lookup section_)
    obtain rfl := Option.some.inj hLookup
    rw [hValue]
    refine ⟨rfl, nodup_keys_mergeEntries incoming ?_⟩
    cases hCurrent : (entriesOf (some root)).lookup section_ with
    | none => exact List.nodup_nil
    | some current => exact (hRoot.sections section_ current hCurrent).2
  · exact hRoot.sections name value hLookup

theorem field?_place {placed : KeyPath × Setting} (hPlain : isPlain placed = true)
    (root : Setting) (section_ name : String) : field? section_ name (place root placed) =
      (last? (section_, name) (fieldsOf placed)).or (field? section_ name root) := by
  obtain ⟨section', incoming, hBlock, hNoTable⟩ := exists_block_of_isPlain hPlain
  obtain ⟨origin, change, hPlace, hChange⟩ := exists_place_eq hBlock root
  rw [fieldsOf, hBlock, Option.elim_some, last?_map, field?, hPlace, entriesOf, lookup_modifyEntry]
  by_cases hSection : section_ = section'
  · subst hSection
    obtain ⟨origin', hValue⟩ := hChange ((entriesOf (some root)).lookup section_)
    rw [if_pos rfl, if_pos rfl, hValue, entriesOf, lookup_mergeEntries hNoTable, field?]
  · rw [if_neg hSection, if_neg hSection, Option.none_or, field?]

theorem field?_foldl_place (layers : List (KeyPath × Setting))
    (hPlain : ∀ placed ∈ layers, isPlain placed = true) {root : Setting} (hRoot : Sectioned root) :
    Sectioned (layers.foldl place root) ∧ ∀ section_ name,
      field? section_ name (layers.foldl place root) =
        (last? (section_, name) (layers.flatMap fieldsOf)).or (field? section_ name root) := by
  induction layers generalizing root with
  | nil => exact ⟨hRoot, fun _ _ => rfl⟩
  | cons placed layers ih =>
    obtain ⟨hPlaced, hRest⟩ := List.forall_mem_cons.mp hPlain
    obtain ⟨hSectioned, hField⟩ := ih hRest (sectioned_place hRoot hPlaced)
    refine ⟨hSectioned, fun section_ name => ?_⟩
    rw [List.foldl_cons, hField, field?_place hPlaced, List.flatMap_cons, last?_append,
      Option.or_assoc]

end HeaderRename.Setting
