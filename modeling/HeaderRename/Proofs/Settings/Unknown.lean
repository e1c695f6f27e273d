import HeaderRename.Proofs.Settings.Layers
import HeaderRename.Proofs.Settings.Reading

/-!
# Names that are not known

Where every layer leaves the sections tables, a name that is set once stays, whatever is set after
it. A table is read only if each of its names has a reader. So a name that is no section, or no
field of its section, makes the whole configuration fail, in whichever layer it stands. A name at
the top that is itself a path, as `global.dry` in quotes is, counts as the path: its first key is
the section.
-/
set_option autoImplicit false

namespace HeaderRename

namespace Setting

def keys (value? : Option Setting) : List String :=
  (entriesOf value?).map (·.1)

theorem mem_keys_mergeEntries (incoming entries : List (String × Setting)) (name : String) :
    name ∈ (mergeEntries incoming entries).map (·.1) ↔
      name ∈ incoming.map (·.1) ∨ name ∈ entries.map (·.1) := by
  induction incoming generalizing entries with
  | nil => simp [mergeEntries]
  | cons entry incoming ih =>
    rw [mergeEntries, ih, keys_modifyEntry, List.map_cons, List.mem_cons, or_left_comm, or_assoc]

/-- The names that a path, or the value at its end, sets in the table where it starts. -/
def namesSet : KeyPath → Setting → List String
  | .key name :: _, _ => [name]
  | [], .table _ entries => entries.map (·.1)
  | _, _ => []

/-- What is set through the path leaves a table where it starts. -/
def leavesTable : KeyPath → Setting → Bool
  | .key _ :: _, _ => true
  | .index _ :: _, _ => false
  | [], value => value.isTable

/-- No name is lost from a table. -/
theorem mem_keys_setAt {path : KeyPath} {value : Setting} (h : leavesTable path value = true)
    (current : Option Setting) (name : String) :
    name ∈ keys (some (setAt value path current)) ↔
      name ∈ namesSet path value ∨ name ∈ keys current := by
  rcases path with _ | ⟨key | position, rest⟩
  · cases value with
    | scalar | list => cases h
    | table origin incoming =>
      obtain ⟨origin', hMerge⟩ := merge_table origin incoming current
      rw [setAt, hMerge, keys, entriesOf, mem_keys_mergeEntries]
      rfl
  · obtain ⟨origin, hSet⟩ := setAt_key value key rest current
    rw [hSet, keys, entriesOf, keys_modifyEntry, namesSet, List.mem_singleton]
    rfl
  · cases h

theorem exists_mem_entries_of_mem_keys_lookup {entries : List (String × Setting)}
    {section_ name : String} (h : name ∈ keys (entries.lookup section_)) :
    ∃ value, (section_, value) ∈ entries ∧ name ∈ keys (some value) := by
  cases hValue : entries.lookup section_ with
  | none =>
    rw [hValue] at h
    cases h
  | some value =>
    rw [hValue] at h
    exact ⟨value, mem_of_lookup_eq_some _ hValue, h⟩

section Readers

variable {σ : Type} {readers : List (FieldReader σ)}

/-- Entries are read only if there is a reader for each of them, which takes its value. -/
theorem exists_reader_of_readEntries {entries : List (String × Setting)} {state result : σ}
    (h : readEntries readers state entries = .ok result) :
    ∀ entry ∈ entries, ∃ reader ∈ readers, reader.name = entry.1 ∧
      ∃ before after, reader.assign before entry.2 = .ok after := by
  induction entries generalizing state with
  | nil => exact List.forall_mem_nil _
  | cons entry rest ih =>
    obtain ⟨key, value⟩ := entry
    rw [readEntries] at h
    split at h
    · cases h
    · next reader hReader =>
      obtain ⟨next, hAssign, hRest⟩ := (bind_eq_ok_iff _ _ _).mp h
      rw [mapError_eq_ok_iff] at hAssign
      refine List.forall_mem_cons.mpr ⟨?_, ih hRest⟩
      have hName : reader.name = key := by simpa using List.find?_some hReader
      exact ⟨reader, List.mem_of_find?_eq_some hReader, hName, state, next, hAssign⟩

theorem mem_names_of_readStruct {name : String} {start result : σ} {value : Setting}
    (h : readStruct name readers start value = .ok result) :
    ∀ key ∈ keys (some value), key ∈ readers.map (·.name) := by
  intro key hKey
  cases value with
  | scalar | list => cases hKey
  | table origin entries =>
    obtain ⟨entry, hEntry, rfl⟩ := List.mem_map.mp hKey
    obtain ⟨reader, hReader, hName, _⟩ := exists_reader_of_readEntries h entry hEntry
    exact List.mem_map.mpr ⟨reader, hReader, hName⟩

end Readers

end Setting

namespace Config

open Setting

/-- The fields of a configuration, each under the name of its section. -/
def fieldNames : List (String × String) :=
  fields.map fun field => (field.section_, field.name)

def sectionNames : List String :=
  fieldNames.map (·.1)

/-- A name that stands among the sections and is none, or stands in a section and is no field of
it. -/
def HasUnknown (root : Setting) : Prop :=
  (∃ section_ ∈ keys (some root), section_ ∉ sectionNames) ∨
    ∃ section_ ∈ sectionNames, ∃ name ∈ keys ((entriesOf (some root)).lookup section_),
      (section_, name) ∉ fieldNames

theorem mem_sectionNames_of_mem_sections : ∀ reader ∈ sections, reader.name ∈ sectionNames := by
  simp only [sections, List.forall_mem_cons, FieldReader.name_of]
  decide +kernel

/-- A section is read only if each name in it is one of its fields. -/
theorem mem_fieldNames_of_assign : ∀ reader ∈ sections, ∀ before value after,
    reader.assign before value = .ok after →
      ∀ name ∈ keys (some value), (reader.name, name) ∈ fieldNames := by
  have hSection : ∀ {σ : Type} (section_ structName : String) (readers : List (FieldReader σ))
      (start : σ) (update : Config → σ → Config),
      (∀ name ∈ readers.map (·.name), (section_, name) ∈ fieldNames) →
      ∀ before value after,
        (FieldReader.of section_ (readStruct structName readers start) update).assign before value =
          .ok after → ∀ name ∈ keys (some value), (section_, name) ∈ fieldNames := by
    intro σ section_ structName readers start update hNames before value after hAssign name hName
    obtain ⟨_, hRead, _⟩ := (FieldReader.assign_of_eq_ok_iff _ _ _ _ _ _).mp hAssign
    exact hNames name (mem_names_of_readStruct hRead name hName)
  simp only [sections, List.forall_mem_cons, FieldReader.name_of]
  refine ⟨hSection _ _ _ _ _ ?_, hSection _ _ _ _ _ ?_, hSection _ _ _ _ _ ?_,
    hSection _ _ _ _ _ ?_, hSection _ _ _ _ _ ?_, List.forall_mem_nil _⟩
  all_goals decide +kernel

theorem not_hasUnknown_of_ofSetting {root : Setting} {config : Config}
    (h : ofSetting root = .ok config) : ¬ HasUnknown root := by
  cases root with
  | scalar | list =>
    rintro (⟨_, hKey, _⟩ | ⟨_, _, _, hKey, _⟩) <;> cases hKey
  | table origin entries =>
    have hReaders := exists_reader_of_readEntries h
    rintro (⟨section_, hKey, hUnknown⟩ | ⟨section_, _, name, hKey, hUnknown⟩)
    · obtain ⟨entry, hEntry, rfl⟩ := List.mem_map.mp hKey
      obtain ⟨reader, hReader, hName, _⟩ := hReaders entry hEntry
      exact hUnknown (hName ▸ mem_sectionNames_of_mem_sections reader hReader)
    · obtain ⟨value, hEntry, hIn⟩ := exists_mem_entries_of_mem_keys_lookup hKey
      obtain ⟨reader, hReader, hName, before, after, hAssign⟩ := hReaders _ hEntry
      have hKnown := mem_fieldNames_of_assign reader hReader before value after hAssign name hIn
      rw [hName] at hKnown
      exact hUnknown hKnown

/-- What is set leaves each section a table. -/
def KeepsSections : KeyPath × Setting → Prop
  | (.key section_ :: rest, value) => section_ ∈ sectionNames → leavesTable rest value = true
  | _ => False

/-- What is set is no section, or a name in a section that is no field of it. -/
def IsMisspelt : KeyPath × Setting → Prop
  | (.key section_ :: rest, value) =>
    section_ ∉ sectionNames ∨ ∃ name ∈ namesSet rest value, (section_, name) ∉ fieldNames
  | _ => False

instance : DecidablePred KeepsSections
  | (.key _ :: _, _) => inferInstanceAs (Decidable (_ → _))
  | ([], _) => inferInstanceAs (Decidable False)
  | (.index _ :: _, _) => inferInstanceAs (Decidable False)

instance : DecidablePred IsMisspelt
  | (.key _ :: _, _) => inferInstanceAs (Decidable (_ ∨ _))
  | ([], _) => inferInstanceAs (Decidable False)
  | (.index _ :: _, _) => inferInstanceAs (Decidable False)

theorem hasUnknown_place_of_isMisspelt {placed : KeyPath × Setting} (hKeeps : KeepsSections placed)
    (hMisspelt : IsMisspelt placed) (root : Setting) : HasUnknown (place root placed) := by
  obtain ⟨_ | ⟨section_ | _, rest⟩, value⟩ := placed
  · cases hKeeps
  · by_cases hSection : section_ ∈ sectionNames
    · obtain ⟨name, hName, hUnknown⟩ := hMisspelt.resolve_left (not_not_intro hSection)
      refine .inr ⟨section_, hSection, name, ?_, hUnknown⟩
      rw [lookup_place, if_pos rfl, mem_keys_setAt (hKeeps hSection)]
      exact .inl hName
    · exact .inl ⟨section_, (mem_keys_setAt rfl _ _).mpr (.inl List.mem_cons_self), hSection⟩
  · cases hKeeps

theorem HasUnknown.place {root : Setting} (h : HasUnknown root) {placed : KeyPath × Setting}
    (hKeeps : KeepsSections placed) : HasUnknown (place root placed) := by
  obtain ⟨_ | ⟨section_ | _, rest⟩, value⟩ := placed
  · cases hKeeps
  · rcases h with ⟨section', hKey, hUnknown⟩ | ⟨section', hSection, name, hKey, hUnknown⟩
    · exact .inl ⟨section', (mem_keys_setAt rfl _ _).mpr (.inr hKey), hUnknown⟩
    · refine .inr ⟨section', hSection, name, ?_, hUnknown⟩
      rw [lookup_place]
      split
      · next hSame =>
        subst hSame
        exact (mem_keys_setAt (hKeeps hSection) _ _).mpr (.inr hKey)
      · exact hKey
  · cases hKeeps

/-- A misspelt name stays to the end, wherever it stands among the layers. -/
theorem hasUnknown_foldl_place {layers : List (KeyPath × Setting)}
    (hKeeps : ∀ placed ∈ layers, KeepsSections placed) (root : Setting)
    (h : HasUnknown root ∨ ∃ placed ∈ layers, IsMisspelt placed) :
    HasUnknown (layers.foldl place root) := by
  induction layers generalizing root with
  | nil => exact h.resolve_right fun ⟨_, hMem, _⟩ => List.not_mem_nil hMem
  | cons placed layers ih =>
    obtain ⟨hPlaced, hRest⟩ := List.forall_mem_cons.mp hKeeps
    refine ih hRest _ ?_
    rcases h with hRoot | ⟨misspelt, hMem, hMisspelt⟩
    · exact .inl (hRoot.place hPlaced)
    · rcases List.mem_cons.mp hMem with rfl | hMem
      · exact .inl (hasUnknown_place_of_isMisspelt hPlaced hMisspelt root)
      · exact .inr ⟨misspelt, hMem, hMisspelt⟩

end Config

namespace Loader

open Setting Config

/-- Files and texts below the environment. -/
def ofSources (sources : List Source) : Loader :=
  { empty with sources, variablesOf := some variableStart }

/-- What the sources, the variables and the options set, each on its own. -/
def given (disk : Disk) (vars : Variables) (sources : List Source) (options : List String) :
    List (KeyPath × Setting) :=
  sources.flatMap (Source.placed disk) ++ Environment.placed variableStart vars ++
    options.filterMap placed?

theorem namesSet_ofText (path : KeyPath) (text text' : String) :
    namesSet path (.ofText text) = namesSet path (.ofText text') := by
  rcases path with _ | ⟨_ | _, _⟩ <;> rfl

/-- Where an option is given again with another value, its name is misspelt still. -/
theorem exists_isMisspelt_foldl_put {options : List String} {placed : KeyPath × Setting}
    (hPlaced : placed ∈ options.filterMap placed?) (hMisspelt : IsMisspelt placed) :
    ∃ placed' ∈ (options.filterMap placed?).foldl put [], IsMisspelt placed' := by
  have hText : ∀ placed ∈ options.filterMap placed?, ∃ text, placed.2 = .ofText text := by
    intro placed hMem
    obtain ⟨raw, _, hRaw⟩ := List.mem_filterMap.mp hMem
    exact (of_placed?_eq_some hRaw).2
  obtain ⟨path, value⟩ := placed
  obtain ⟨value', hLast⟩ : ∃ value', last? path (options.filterMap placed?) = some value' := by
    refine Option.ne_none_iff_exists'.mp fun hNone => ?_
    have hOther := List.lookup_eq_none_iff.mp hNone _ (List.mem_reverse.mpr hPlaced)
    exact absurd rfl (bne_iff_ne.mp hOther)
  have hPut := hLast
  rw [← last?_path_foldl_put] at hPut
  refine ⟨_, mem_of_last?_eq_some _ hPut, ?_⟩
  obtain ⟨text, rfl⟩ := hText _ hPlaced
  obtain ⟨text', rfl⟩ := hText _ (mem_of_last?_eq_some _ hLast)
  obtain _ | ⟨section_ | _, rest⟩ := path
  · cases hMisspelt
  · rwa [IsMisspelt, namesSet_ofText rest text' text]
  · cases hMisspelt

/-- Where all that is set leaves the sections tables, a name that is no section, or no field of its
section, is an error in whichever layer it stands and whatever the other layers set. -/
theorem build_eq_error_of_isMisspelt (disk : Disk) (vars : Variables) (sources : List Source)
    (options : List String)
    (hKeeps : ∀ placed ∈ given disk vars sources options, KeepsSections placed)
    (hMisspelt : ∃ placed ∈ given disk vars sources options, IsMisspelt placed) :
    ∃ fault, ((ofSources sources).applyOverrides options >>= fun loader => loader.build disk vars) =
      .error fault := by
  cases hResult : (ofSources sources).applyOverrides options >>= fun loader =>
      loader.build disk vars with
  | error fault => exact ⟨fault, rfl⟩
  | ok config =>
    obtain ⟨loader, hLoader, hBuild⟩ := (bind_eq_ok_iff _ _ _).mp hResult
    obtain ⟨_, rfl⟩ := applyOverrides_eq_ok_iff.mp hLoader
    obtain ⟨_, hConfig, _⟩ := build_eq_ok_iff.mp hBuild
    refine absurd (hasUnknown_foldl_place ?_ _ (.inr ?_)) (not_hasUnknown_of_ofSetting hConfig)
    · intro placed hPlaced
      rcases List.mem_append.mp hPlaced with hBelow | hOption
      · exact hKeeps placed (List.mem_append_left _ hBelow)
      · have hGiven := (of_mem_foldl_put _ hOption).resolve_right List.not_mem_nil
        exact hKeeps placed (List.mem_append_right _ hGiven)
    · obtain ⟨placed, hPlaced, hPlacedMisspelt⟩ := hMisspelt
      rcases List.mem_append.mp hPlaced with hBelow | hOption
      · exact ⟨placed, List.mem_append_left _ hBelow, hPlacedMisspelt⟩
      · obtain ⟨placed', hPut, hPutMisspelt⟩ := exists_isMisspelt_foldl_put hOption hPlacedMisspelt
        exact ⟨placed', List.mem_append_right _ hPut, hPutMisspelt⟩

/-- A text without a fault, and below it one in which letters of the same field are swapped. -/
def layeredTexts : List Source :=
  [.text "[global]\nrdy = true\n", .text "[global]\ndry = true\n"]

def dryVariables : Variables :=
  [("INCFIX_GLOBAL__DRY", "1")]

theorem build_eq_error_of_isMisspelt_layeredTexts :
    (∀ placed ∈ given .empty dryVariables layeredTexts ["global/dry=1"], KeepsSections placed) ∧
      (∃ placed ∈ given .empty dryVariables layeredTexts ["global/dry=1"], IsMisspelt placed) ∧
      ((ofSources layeredTexts.tail).applyOverrides ["global/dry=1"] >>= fun loader =>
        loader.build .empty dryVariables).isOk = true ∧
      ∃ fault, ((ofSources layeredTexts).applyOverrides ["global/dry=1"] >>= fun loader =>
        loader.build .empty dryVariables) = .error fault := by
  have hKeeps : ∀ placed ∈ given .empty dryVariables layeredTexts ["global/dry=1"],
      KeepsSections placed := by
    decide +kernel
  have hMisspelt : ∃ placed ∈ given .empty dryVariables layeredTexts ["global/dry=1"],
      IsMisspelt placed := by
    decide +kernel
  exact ⟨hKeeps, hMisspelt, by decide +kernel,
    build_eq_error_of_isMisspelt _ _ _ _ hKeeps hMisspelt⟩

end Loader

end HeaderRename
