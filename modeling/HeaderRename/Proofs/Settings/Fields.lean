import HeaderRename.Proofs.Settings.Paths
import HeaderRename.Settings.Config

/-!
# The fields of the configuration

Each field is read from the value that is set for it, whatever else is set, and keeps its default
where none is set. The fields tell configurations apart.
-/
set_option autoImplicit false

namespace HeaderRename

namespace Setting

theorem mapError_eq_ok_iff {ε ε' α : Type} (f : ε → ε') (x : Except ε α) (a : α) :
    x.mapError f = .ok a ↔ x = .ok a := by
  cases x <;> simp [Except.mapError]

theorem bind_eq_ok_iff {ε α β : Type} (x : Except ε α) (f : α → Except ε β) (b : β) :
    (x >>= f) = .ok b ↔ ∃ a, x = .ok a ∧ f a = .ok b := by
  cases x <;> simp [bind, Except.bind]

theorem eq_ok_of_toOption_eq_some {ε α : Type} {x : Except ε α} {a : α}
    (h : x.toOption = some a) : x = .ok a := by
  cases x with
  | error => cases h
  | ok => exact congrArg Except.ok (Option.some.inj h)

/-- The result is converted from the value, if there is one, and else is the default. -/
def ReadsAs {α : Type} (convert : Setting → Result α) (default : α) (value? : Option Setting)
    (result : α) : Prop :=
  match value? with
  | some value => convert value = .ok result
  | none => result = default

/-- A field of a structure: its name, how it is converted and where it is found. -/
structure FieldView (σ : Type) where
  name : String
  Value : Type
  convert : Setting → Result Value
  get : σ → Value

/-- Of these readers the one with the name of the field sets it, and no other does. -/
@[mk_iff]
structure FieldView.Follows {σ : Type} (view : FieldView σ) (readers : List (FieldReader σ)) :
    Prop where
  own : ∀ reader ∈ readers, reader.name = view.name → ∀ state value state',
    reader.assign state value = .ok state' → view.convert value = .ok (view.get state')
  other : ∀ reader ∈ readers, reader.name ≠ view.name → ∀ state value state',
    reader.assign state value = .ok state' → view.get state' = view.get state

section Readers

variable {σ : Type} {readers : List (FieldReader σ)} {view : FieldView σ}
  (hFollows : view.Follows readers)

include hFollows

theorem readsAs_of_readEntries {entries : List (String × Setting)}
    (hNodup : (entries.map (·.1)).Nodup) {state result : σ}
    (h : readEntries readers state entries = .ok result) :
    ReadsAs view.convert (view.get state) (entries.lookup view.name) (view.get result) := by
  induction entries generalizing state with
  | nil =>
    cases h
    exact rfl
  | cons entry rest ih =>
    obtain ⟨key, value⟩ := entry
    obtain ⟨hNew, hRest⟩ := List.nodup_cons.mp hNodup
    rw [readEntries] at h
    split at h
    · cases h
    · next reader hReader =>
      obtain ⟨state', hAssign, hRead⟩ := (bind_eq_ok_iff _ _ _).mp h
      rw [mapError_eq_ok_iff] at hAssign
      have hMem := List.mem_of_find?_eq_some hReader
      have hName : reader.name = key := by simpa using List.find?_some hReader
      have hIh := ih hRest hRead
      rw [lookup_cons_eq_ite]
      by_cases hKey : view.name = key
      · -- the rest does not set the field again
        subst hKey
        rw [lookup_eq_none_of_not_mem _ hNew] at hIh
        rw [if_pos rfl]
        have hOwn := hFollows.own reader hMem hName _ _ _ hAssign
        rwa [show view.get state' = view.get result from hIh.symm] at hOwn
      · rw [if_neg hKey]
        rwa [hFollows.other reader hMem (fun hSame => hKey (hSame.symm.trans hName)) _ _ _ hAssign]
          at hIh

theorem readsAs_of_readStruct {name : String} {start result : σ} {value? : Option Setting}
    (hTable : ∀ value, value? = some value →
      value.isTable = true ∧ ((entriesOf (some value)).map (·.1)).Nodup)
    (h : ReadsAs (readStruct name readers start) start value? result) :
    ReadsAs view.convert (view.get start) ((entriesOf value?).lookup view.name)
      (view.get result) := by
  cases value? with
  | none => exact congrArg view.get h
  | some value =>
    obtain ⟨hIsTable, hNodup⟩ := hTable value rfl
    cases value with
    | scalar | list => cases hIsTable
    | table origin entries => exact readsAs_of_readEntries hFollows hNodup h

end Readers

namespace FieldReader

variable {σ α : Type} (name : String) (convert : Setting → Result α) (update : σ → α → σ)

theorem name_of : (FieldReader.of name convert update).name = name := rfl

theorem forall_assign_iff (state : σ) (value : Setting) (P : σ → Prop) :
    (∀ state', (FieldReader.of name convert update).assign state value = .ok state' → P state') ↔
      ∀ a, convert value = .ok a → P (update state a) := by
  rw [FieldReader.of]
  cases hConvert : convert value <;> simp [hConvert, Except.map]

end FieldReader

end Setting

namespace Config

open Setting

def globalViews : List (FieldView GlobalConfig) :=
  [⟨"dry", _, toBool, (·.dry)⟩, ⟨"output_log_level", _, toLevel, (·.outputLevel)⟩,
    ⟨"file_log_level", _, toLevel, (·.fileLevel)⟩, ⟨"log_file", _, toOption toText, (·.logFile)⟩]

def discoveryViews : List (FieldView DiscoveryConfig) :=
  [⟨"backend", _, toVariant "Backend" backends, (·.backend)⟩,
    ⟨"follow_links", _, toBool, (·.followLinks)⟩, ⟨"include_hidden", _, toBool, (·.includeHidden)⟩,
    ⟨"respect_gitignore", _, toBool, (·.respectGitignore)⟩,
    ⟨"skip_dirs", _, toList toText, (·.skipDirs)⟩]

def encodingViews : List (FieldView EncodingConfig) :=
  [⟨"encoding", _, toVariant "Encoding" encodings, (·.encoding)⟩,
    ⟨"on_invalid", _, toVariant "DecodePolicy" policies, (·.onInvalid)⟩]

def limitsViews : List (FieldView LimitsConfig) :=
  [⟨"roots", _, toList toText, (·.roots)⟩, ⟨"pattern", _, toText, (·.pattern)⟩,
    ⟨"from", _, toText, (·.old)⟩, ⟨"to", _, toText, (·.new)⟩]

def libViews : List (FieldView LibConfig) :=
  [⟨"roots", _, toList toText, (·.roots)⟩, ⟨"pattern", _, toText, (·.pattern)⟩,
    ⟨"replace_defaults", _, toBool, (·.replaceDefaults)⟩,
    ⟨"mappings", _, toList toRenameEntry, (·.renames)⟩]

theorem follows_globalFields : ∀ view ∈ globalViews, view.Follows globalFields := by
  simp [globalViews, globalFields, FieldView.follows_iff, FieldReader.name_of,
    FieldReader.forall_assign_iff]

theorem follows_discoveryFields : ∀ view ∈ discoveryViews, view.Follows discoveryFields := by
  simp [discoveryViews, discoveryFields, FieldView.follows_iff, FieldReader.name_of,
    FieldReader.forall_assign_iff]

theorem follows_encodingFields : ∀ view ∈ encodingViews, view.Follows encodingFields := by
  simp [encodingViews, encodingFields, FieldView.follows_iff, FieldReader.name_of,
    FieldReader.forall_assign_iff]

theorem follows_limitsFields : ∀ view ∈ limitsViews, view.Follows limitsFields := by
  simp [limitsViews, limitsFields, FieldView.follows_iff, FieldReader.name_of,
    FieldReader.forall_assign_iff]

theorem follows_libFields : ∀ view ∈ libViews, view.Follows libFields := by
  simp [libViews, libFields, FieldView.follows_iff, FieldReader.name_of,
    FieldReader.forall_assign_iff]

/-- A field of the configuration, by its section and its name there. -/
structure Field where
  section_ : String
  name : String
  Value : Type
  convert : Setting → Result Value
  get : Config → Value

def fieldOf {σ : Type} (section_ : String) (get : Config → σ) (view : FieldView σ) : Field where
  section_ := section_
  name := view.name
  Value := view.Value
  convert := view.convert
  get := fun config => view.get (get config)

def fields : List Field :=
  globalViews.map (fieldOf "global" (·.global)) ++
    discoveryViews.map (fieldOf "discovery" (·.discovery)) ++
    encodingViews.map (fieldOf "encoding" (·.encoding)) ++
    limitsViews.map (fieldOf "limits" (·.limits)) ++ libViews.map (fieldOf "lib" (·.lib))

/-- Configurations that agree in every field are the same. -/
theorem eq_of_fields {config config' : Config}
    (h : ∀ field ∈ fields, field.get config = field.get config') : config = config' := by
  obtain ⟨⟨⟩, ⟨⟩, ⟨⟩, ⟨⟩, ⟨⟩⟩ := config
  obtain ⟨⟨⟩, ⟨⟩, ⟨⟩, ⟨⟩, ⟨⟩⟩ := config'
  simpa [fields, globalViews, discoveryViews, encodingViews, limitsViews, libViews, fieldOf,
    and_assoc] using h

def sectionView {σ : Type} (section_ name : String) (readers : List (FieldReader σ))
    (get : Config → σ) : FieldView Config where
  name := section_
  Value := σ
  convert := readStruct name readers (get default)
  get := get

/-- The sections of the configuration, each of which is read as a structure of its own. -/
def sectionViews : List (FieldView Config) :=
  [sectionView "global" "GlobalConfig" globalFields (·.global),
    sectionView "discovery" "DiscoveryConfig" discoveryFields (·.discovery),
    sectionView "encoding" "EncodingConfig" encodingFields (·.encoding),
    sectionView "limits" "LimitsConfig" limitsFields (·.limits),
    sectionView "lib" "LibConfig" libFields (·.lib)]

theorem follows_sections : ∀ view ∈ sectionViews, view.Follows sections := by
  simp [sectionViews, sectionView, sections, FieldView.follows_iff, FieldReader.name_of,
    FieldReader.forall_assign_iff]

variable {root : Setting} {config : Config}

theorem readsAs_fieldOf (hRoot : Keyed root) (hConfig : ofSetting root = .ok config) {σ : Type}
    {section_ name : String} {readers : List (FieldReader σ)} {get : Config → σ}
    (hTable : ∀ value, (entriesOf (some root)).lookup section_ = some value → value.isTable = true)
    (hSection : (sectionView section_ name readers get).Follows sections)
    {views : List (FieldView σ)} (hViews : ∀ view ∈ views, view.Follows readers) :
    ∀ field ∈ views.map (fieldOf section_ get), ReadsAs field.convert (field.get default)
      (root.field? field.section_ field.name) (field.get config) := by
  intro field hField
  obtain ⟨view, hView, rfl⟩ := List.mem_map.mp hField
  cases root with
  | scalar | list => cases hRoot.isTable
  | table origin entries =>
    have hRead := readsAs_of_readEntries hSection hRoot.nodup hConfig
    refine readsAs_of_readStruct (hViews view hView) (fun value hValue => ?_) hRead
    have hNodup := hRoot.sections section_
    rw [show (entriesOf (some (table origin entries))).lookup section_ = some value from hValue]
      at hNodup
    exact ⟨hTable value hValue, hNodup⟩

theorem readsAs_field (hRoot : Sectioned root) (hConfig : ofSetting root = .ok config) :
    ∀ field ∈ fields, ReadsAs field.convert (field.get default)
      (root.field? field.section_ field.name) (field.get config) := by
  have hKeyed := hRoot.keyed
  have hTable : ∀ section_ value, (entriesOf (some root)).lookup section_ = some value →
      value.isTable = true := fun section_ value hValue => (hRoot.sections section_ value hValue).1
  have hSections := follows_sections
  simp only [sectionViews, List.forall_mem_cons] at hSections
  obtain ⟨hGlobal, hDiscovery, hEncoding, hLimits, hLib, _⟩ := hSections
  simp only [fields, List.forall_mem_append]
  exact ⟨⟨⟨⟨readsAs_fieldOf hKeyed hConfig (hTable _) hGlobal follows_globalFields,
    readsAs_fieldOf hKeyed hConfig (hTable _) hDiscovery follows_discoveryFields⟩,
    readsAs_fieldOf hKeyed hConfig (hTable _) hEncoding follows_encodingFields⟩,
    readsAs_fieldOf hKeyed hConfig (hTable _) hLimits follows_limitsFields⟩,
    readsAs_fieldOf hKeyed hConfig (hTable _) hLib follows_libFields⟩

end Config

end HeaderRename
