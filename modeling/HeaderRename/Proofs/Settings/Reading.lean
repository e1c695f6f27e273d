import HeaderRename.Proofs.Settings.Fields

/-!
# Values that read alike

What is read from a table depends on the values under its keys alone, not on their order; and of
each value it depends on what the reader of its key makes of it.
-/
set_option autoImplicit false

namespace HeaderRename

namespace Setting

theorem lookup_eq_some_of_mem {α : Type} {entries : List (String × α)} {entry : String × α}
    (hNodup : (entries.map (·.1)).Nodup) (h : entry ∈ entries) :
    entries.lookup entry.1 = some entry.2 := by
  induction entries with
  | nil => cases h
  | cons first rest ih =>
    obtain ⟨hNew, hRest⟩ := List.nodup_cons.mp hNodup
    rw [lookup_cons_eq_ite]
    rcases List.mem_cons.mp h with rfl | hMem
    · rw [if_pos rfl]
    · have hOther : entry.1 ≠ first.1 := by
        intro hSame
        exact hNew (List.mem_map.mpr ⟨entry, hMem, hSame⟩)
      rw [if_neg hOther, ih hRest hMem]

section Readers

variable {σ : Type} {readers : List (FieldReader σ)} {views : List (FieldView σ)}

/-- Whether the reader takes a value does not depend on the structure it changes. -/
def FieldReader.IsUniform (reader : FieldReader σ) : Prop :=
  ∀ value state state' result, reader.assign state value = .ok result →
    ∃ result', reader.assign state' value = .ok result'

/-- The fields tell structures apart and are all that the readers set. -/
structure Describes (views : List (FieldView σ)) (readers : List (FieldReader σ)) : Prop where
  follows : ∀ view ∈ views, view.Follows readers
  uniform : ∀ reader ∈ readers, reader.IsUniform
  ext : ∀ state state' : σ, (∀ view ∈ views, view.get state = view.get state') → state = state'

/-- The reader of the key takes the value. -/
def Accepted (readers : List (FieldReader σ)) (entry : String × Setting) : Prop :=
  ∃ reader, readers.find? (·.name == entry.1) = some reader ∧
    ∀ state, ∃ result, reader.assign state entry.2 = .ok result

theorem exists_readEntries_iff (hViews : Describes views readers)
    (entries : List (String × Setting)) (state : σ) :
    (∃ result, readEntries readers state entries = .ok result) ↔
      ∀ entry ∈ entries, Accepted readers entry := by
  induction entries generalizing state with
  | nil => exact iff_of_true ⟨state, rfl⟩ (List.forall_mem_nil _)
  | cons entry rest ih =>
    obtain ⟨key, value⟩ := entry
    rw [List.forall_mem_cons]
    constructor
    · rintro ⟨result, h⟩
      rw [readEntries] at h
      split at h
      · cases h
      · next reader hReader =>
        obtain ⟨next, hAssign, hRead⟩ := (bind_eq_ok_iff _ _ _).mp h
        rw [mapError_eq_ok_iff] at hAssign
        have hMem := List.mem_of_find?_eq_some hReader
        exact ⟨⟨reader, hReader, fun state' => hViews.uniform reader hMem _ _ state' _ hAssign⟩,
          (ih next).mp ⟨result, hRead⟩⟩
    · rintro ⟨⟨reader, hReader, hAny⟩, hRest⟩
      obtain ⟨next, hAssign⟩ := hAny state
      obtain ⟨result, hRead⟩ := (ih next).mpr hRest
      refine ⟨result, ?_⟩
      rw [readEntries, hReader]
      exact (bind_eq_ok_iff _ _ _).mpr ⟨next, (mapError_eq_ok_iff _ _ _).mpr hAssign, hRead⟩

/-- The reader of a name makes the same of both values. -/
def AssignedAlike (readers : List (FieldReader σ)) (name : String) (value value' : Setting) :
    Prop :=
  ∀ reader ∈ readers, reader.name = name → ∀ state result,
    reader.assign state value = .ok result ↔ reader.assign state value' = .ok result

theorem AssignedAlike.symm {name : String} {value value' : Setting}
    (h : AssignedAlike readers name value value') : AssignedAlike readers name value' value :=
  fun reader hMem hName state result => (h reader hMem hName state result).symm

/-- Tables with the same keys, in whatever order, whose values are read alike. -/
def ReadAlike (readers : List (FieldReader σ)) (entries entries' : List (String × Setting)) :
    Prop :=
  ∀ name, Option.Rel (AssignedAlike readers name) (entries.lookup name) (entries'.lookup name)

theorem rel_of_eq {name : String} {value? value?' : Option Setting} (h : value? = value?') :
    Option.Rel (AssignedAlike readers name) value? value?' := by
  subst h
  cases value? with
  | none => exact .none
  | some value => exact .some fun _ _ _ _ _ => Iff.rfl

theorem ReadAlike.symm {entries entries' : List (String × Setting)}
    (h : ReadAlike readers entries entries') : ReadAlike readers entries' entries := by
  intro name
  generalize hValue : entries.lookup name = value?, hValue' : entries'.lookup name = value?'
  have hRel := h name
  rw [hValue, hValue'] at hRel
  cases hRel with
  | none => exact .none
  | some hAlike => exact .some hAlike.symm

variable (hViews : Describes views readers) {entries entries' : List (String × Setting)}
  (hAlike : ReadAlike readers entries entries')

include hAlike in
/-- A value of the second table is under a key of the first one, whose reader takes both values and
makes the same of them. -/
theorem ReadAlike.exists_assign (hAccepted : ∀ entry ∈ entries, Accepted readers entry)
    {name : String} {value' : Setting} (hValue' : entries'.lookup name = some value') (state : σ) :
    ∃ value reader next, entries.lookup name = some value ∧
      readers.find? (·.name == name) = some reader ∧ reader.name = name ∧
      reader.assign state value = .ok next ∧ reader.assign state value' = .ok next := by
  have hRel := hAlike name
  rw [hValue'] at hRel
  generalize hValue : entries.lookup name = value? at hRel
  cases hRel with
  | @some value _ hSame =>
    obtain ⟨reader, hReader, hAny⟩ := hAccepted (name, value) (mem_of_lookup_eq_some _ hValue)
    obtain ⟨next, hNext⟩ := hAny state
    have hName : reader.name = name := by simpa using List.find?_some hReader
    exact ⟨value, reader, next, rfl, hReader, hName, hNext,
      (hSame reader (List.mem_of_find?_eq_some hReader) hName state next).mp hNext⟩

variable (hNodup : (entries.map (·.1)).Nodup) (hNodup' : (entries'.map (·.1)).Nodup)

include hViews hNodup hNodup' hAlike

theorem eq_of_readEntries_of_readAlike {state result result' : σ}
    (h : readEntries readers state entries = .ok result)
    (h' : readEntries readers state entries' = .ok result') : result = result' := by
  have hAccepted := (exists_readEntries_iff hViews entries state).mp ⟨result, h⟩
  refine hViews.ext result result' fun view hView => ?_
  have hFollows := hViews.follows view hView
  have hReads := readsAs_of_readEntries hFollows hNodup h
  have hReads' := readsAs_of_readEntries hFollows hNodup' h'
  cases hValue' : entries'.lookup view.name with
  | none =>
    have hRel := hAlike view.name
    rw [hValue'] at hReads' hRel
    generalize hValue : entries.lookup view.name = value? at hRel
    cases hRel
    rw [hValue] at hReads
    exact Eq.trans hReads hReads'.symm
  | some value' =>
    obtain ⟨value, reader, next, hValue, hReader, hName, hNext, hNext'⟩ :=
      hAlike.exists_assign hAccepted hValue' state
    have hMem := List.mem_of_find?_eq_some hReader
    rw [hValue, ReadsAs, hFollows.own reader hMem hName _ _ _ hNext] at hReads
    rw [hValue', ReadsAs, hFollows.own reader hMem hName _ _ _ hNext'] at hReads'
    exact (Except.ok.inj hReads).symm.trans (Except.ok.inj hReads')

theorem readEntries_of_readAlike {state result : σ}
    (h : readEntries readers state entries = .ok result) :
    readEntries readers state entries' = .ok result := by
  have hAccepted := (exists_readEntries_iff hViews entries state).mp ⟨result, h⟩
  obtain ⟨result', h'⟩ : ∃ result', readEntries readers state entries' = .ok result' := by
    rw [exists_readEntries_iff hViews]
    intro entry hEntry
    obtain ⟨_, reader, next, _, hReader, _, _, hNext⟩ :=
      hAlike.exists_assign hAccepted (lookup_eq_some_of_mem hNodup' hEntry) state
    exact ⟨reader, hReader, fun state' =>
      hViews.uniform reader (List.mem_of_find?_eq_some hReader) _ _ state' _ hNext⟩
  rwa [eq_of_readEntries_of_readAlike hViews hAlike hNodup hNodup' h h']

theorem readEntries_eq_ok_iff_of_readAlike (state result : σ) :
    readEntries readers state entries = .ok result ↔
      readEntries readers state entries' = .ok result :=
  ⟨readEntries_of_readAlike hViews hAlike hNodup hNodup',
    readEntries_of_readAlike hViews hAlike.symm hNodup' hNodup⟩

end Readers

theorem FieldReader.assign_of_eq_ok_iff {σ α : Type} (name : String)
    (convert : Setting → Result α) (update : σ → α → σ) (state : σ) (value : Setting) (result : σ) :
    (FieldReader.of name convert update).assign state value = .ok result ↔
      ∃ a, convert value = .ok a ∧ update state a = result := by
  rw [FieldReader.of]
  cases hConvert : convert value <;> simp [hConvert, Except.map]

theorem FieldReader.isUniform_of {σ α : Type} (name : String) (convert : Setting → Result α)
    (update : σ → α → σ) : (FieldReader.of name convert update).IsUniform := by
  intro value state state' result h
  obtain ⟨a, hConvert, _⟩ := (assign_of_eq_ok_iff name convert update state value result).mp h
  exact ⟨update state' a, (assign_of_eq_ok_iff name convert update state' value _).mpr
    ⟨a, hConvert, rfl⟩⟩

/-- A field with a value is one of a section that is a table. -/
theorem exists_table_of_field? {section_ name : String} {root value : Setting}
    (h : field? section_ name root = some value) : ∃ origin entries,
      (entriesOf (some root)).lookup section_ = some (.table origin entries) ∧
        entries.lookup name = some value := by
  unfold field? at h
  cases hSection : (entriesOf (some root)).lookup section_ with
  | none =>
    rw [hSection] at h
    cases h
  | some current =>
    rw [hSection] at h
    cases current with
    | scalar | list => cases h
    | table origin entries => exact ⟨origin, entries, rfl, h⟩

end Setting

namespace Config

open Setting

theorem describes_globalFields : Describes globalViews globalFields where
  follows := follows_globalFields
  uniform := by simp [globalFields, FieldReader.isUniform_of]
  ext := by
    rintro ⟨⟩ ⟨⟩
    simp [globalViews]

theorem describes_limitsFields : Describes limitsViews limitsFields where
  follows := follows_limitsFields
  uniform := by simp [limitsFields, FieldReader.isUniform_of]
  ext := by
    rintro ⟨⟩ ⟨⟩
    simp [limitsViews]

theorem describes_libFields : Describes libViews libFields where
  follows := follows_libFields
  uniform := by simp [libFields, FieldReader.isUniform_of]
  ext := by
    rintro ⟨⟩ ⟨⟩
    simp [libViews]

theorem describes_sections : Describes sectionViews sections where
  follows := follows_sections
  uniform := by simp [sections, FieldReader.isUniform_of]
  ext := by
    rintro ⟨⟩ ⟨⟩
    simp [sectionViews, sectionView]

theorem convert_eq_ok_of_field? {root : Setting} {config : Config} (hRoot : Keyed root)
    (hConfig : ofSetting root = .ok config) {σ : Type} {section_ name : String}
    {readers : List (FieldReader σ)} {get : Config → σ}
    (hSection : sectionView section_ name readers get ∈ sectionViews) {view : FieldView σ}
    (hView : view.Follows readers) {value : Setting}
    (hValue : field? section_ view.name root = some value) :
    view.convert value = .ok (view.get (get config)) := by
  obtain ⟨origin, entries, hTable, _⟩ := exists_table_of_field? hValue
  have hIsTable : ∀ value, (entriesOf (some root)).lookup section_ = some value →
      value.isTable = true := by
    intro value hSame
    rw [hTable] at hSame
    cases hSame
    rfl
  have hViews : ∀ view' ∈ [view], view'.Follows readers := by simpa using hView
  have hRead := readsAs_fieldOf hRoot hConfig hIsTable (follows_sections _ hSection) hViews _
    List.mem_cons_self
  rwa [show root.field? (fieldOf section_ get view).section_ (fieldOf section_ get view).name =
    some value from hValue] at hRead

section Sections

variable {root : Setting} {config : Config} (hRoot : Keyed root)
  (hConfig : ofSetting root = .ok config) {value : Setting}

include hRoot hConfig

theorem convert_global_eq_ok : ∀ view ∈ globalViews,
    field? "global" view.name root = some value →
      view.convert value = .ok (view.get config.global) :=
  fun view hView => convert_eq_ok_of_field? hRoot hConfig
    (show sectionView "global" "GlobalConfig" globalFields (·.global) ∈ sectionViews by
      simp [sectionViews])
    (follows_globalFields view hView)

theorem convert_discovery_eq_ok : ∀ view ∈ discoveryViews,
    field? "discovery" view.name root = some value →
      view.convert value = .ok (view.get config.discovery) :=
  fun view hView => convert_eq_ok_of_field? hRoot hConfig
    (show sectionView "discovery" "DiscoveryConfig" discoveryFields (·.discovery) ∈ sectionViews by
      simp [sectionViews])
    (follows_discoveryFields view hView)

theorem convert_limits_eq_ok : ∀ view ∈ limitsViews,
    field? "limits" view.name root = some value →
      view.convert value = .ok (view.get config.limits) :=
  fun view hView => convert_eq_ok_of_field? hRoot hConfig
    (show sectionView "limits" "LimitsConfig" limitsFields (·.limits) ∈ sectionViews by
      simp [sectionViews])
    (follows_limitsFields view hView)

theorem convert_lib_eq_ok : ∀ view ∈ libViews,
    field? "lib" view.name root = some value → view.convert value = .ok (view.get config.lib) :=
  fun view hView => convert_eq_ok_of_field? hRoot hConfig
    (show sectionView "lib" "LibConfig" libFields (·.lib) ∈ sectionViews by simp [sectionViews])
    (follows_libFields view hView)

end Sections

/-- The section is read as this structure. -/
def ReadsSection {σ : Type} (section_ name : String) (readers : List (FieldReader σ)) (start : σ) :
    Prop :=
  ∀ reader ∈ sections, reader.name = section_ →
    ∃ update, reader = .of section_ (readStruct name readers start) update

theorem readsSection_limits :
    ReadsSection "limits" "LimitsConfig" limitsFields default.limits := by
  simp [ReadsSection, sections, FieldReader.name_of]

theorem readsSection_lib : ReadsSection "lib" "LibConfig" libFields default.lib := by
  simp [ReadsSection, sections, FieldReader.name_of]

theorem readsSection_global :
    ReadsSection "global" "GlobalConfig" globalFields default.global := by
  simp [ReadsSection, sections, FieldReader.name_of]

/-- Settings that agree but for one field, where they have values that are read alike, read as the
same configuration. -/
theorem ofSetting_eq_ok_iff_of_agreeBut {σ : Type} {section_ name structName : String}
    {readers : List (FieldReader σ)} {views : List (FieldView σ)} {start : σ}
    (hViews : Describes views readers) (hSection : ReadsSection section_ structName readers start)
    {root root' : Setting} (hRoot : Keyed root) (hRoot' : Keyed root')
    (hAgree : AgreeBut section_ name root root') {value value' : Setting}
    (hValue : field? section_ name root = some value)
    (hValue' : field? section_ name root' = some value')
    (hAlike : AssignedAlike readers name value value') (config : Config) :
    ofSetting root = .ok config ↔ ofSetting root' = .ok config := by
  obtain ⟨origin, entries, hTable, hEntry⟩ := exists_table_of_field? hValue
  obtain ⟨origin', entries', hTable', hEntry'⟩ := exists_table_of_field? hValue'
  have hNodup := hRoot.sections section_
  have hNodup' := hRoot'.sections section_
  rw [hTable] at hNodup
  rw [hTable'] at hNodup'
  have hFields : ReadAlike readers entries entries' := by
    intro name'
    by_cases hName : name' = name
    · subst hName
      rw [hEntry, hEntry']
      exact .some hAlike
    · have hSame := hAgree.fields name' hName
      rw [field?, field?, hTable, hTable'] at hSame
      exact rel_of_eq hSame
  have hSections : ReadAlike sections (entriesOf (some root)) (entriesOf (some root')) := by
    intro section'
    by_cases hName : section' = section_
    · subst hName
      rw [hTable, hTable']
      refine .some fun reader hMem hReader state result => ?_
      obtain ⟨update, rfl⟩ := hSection reader hMem hReader
      simp only [FieldReader.assign_of_eq_ok_iff, readStruct,
        readEntries_eq_ok_iff_of_readAlike hViews hFields hNodup hNodup']
    · exact rel_of_eq (hAgree.sections section' hName)
  cases root with
  | scalar | list => cases hRoot.isTable
  | table =>
    cases root' with
    | scalar | list => cases hRoot'.isTable
    | table =>
      exact readEntries_eq_ok_iff_of_readAlike describes_sections hSections hRoot.nodup
        hRoot'.nodup default config

end Config

end HeaderRename
