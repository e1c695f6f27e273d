import HeaderRename.Proofs.Settings.Layers
import HeaderRename.Proofs.Settings.Origin
import HeaderRename.Proofs.Settings.Reading

/-!
# Configurations written and read back

What is written of a configuration reads as that configuration: each value converts back to what it
was written from, and what is left out is the default. A source of nothing else is merged as it
stands, wherever it was read.
-/
set_option autoImplicit false

namespace HeaderRename

namespace Setting

theorem toBool_ofBool (b : Bool) : toBool (Setting.ofBool b) = .ok b := rfl

theorem toText_ofText (text : String) : toText (.ofText text) = .ok text := rfl

theorem convertItems_map {α : Type} {convert : Setting → Result α} (write : α → Setting)
    (h : ∀ a, convert (write a) = .ok a) (position : Nat) (items : List α) :
    convertItems convert position (items.map write) = .ok items := by
  induction items generalizing position with
  | nil => rfl
  | cons a items ih =>
    rw [List.map_cons, convertItems, h, ih]
    rfl

/-- An entry whose value converts is read, and the rest after it. -/
theorem readEntries_cons_eq {σ α : Type} {readers : List (FieldReader σ)} {name : String}
    {convert : Setting → Result α} {update : σ → α → σ} {value : Setting} {a : α}
    (hReader : readers.find? (·.name == name) = some (.of name convert update))
    (hValue : convert value = .ok a) (state : σ) (rest : List (String × Setting)) :
    readEntries readers state ((name, value) :: rest) =
      readEntries readers (update state a) rest := by
  rw [readEntries, hReader]
  simp only [FieldReader.of, hValue]
  rfl

theorem modifyEntry_of_notMem {key : String} {change : Option Setting → Setting}
    {entries : List (String × Setting)} (h : key ∉ entries.map (·.1)) :
    modifyEntry key change entries = entries ++ [(key, change none)] := by
  induction entries with
  | nil => rfl
  | cons entry entries ih =>
    rw [List.map_cons, List.mem_cons, not_or] at h
    rw [modifyEntry, if_neg (Ne.symm h.1), ih h.2]
    rfl

theorem notMem_keys_of_nodup {entry : String × Setting} {entries rest : List (String × Setting)}
    (h : ((entries ++ entry :: rest).map (·.1)).Nodup) : entry.1 ∉ entries.map (·.1) := by
  rw [List.map_append, List.map_cons, List.nodup_middle, List.nodup_cons, List.mem_append,
    not_or] at h
  exact h.1.1

theorem mergeEntries_eq_append {incoming entries : List (String × Setting)}
    (hPlain : ∀ entry ∈ incoming, entry.2.isTable = false)
    (hNodup : ((entries ++ incoming).map (·.1)).Nodup) :
    mergeEntries incoming entries = entries ++ incoming := by
  induction incoming generalizing entries with
  | nil => rw [mergeEntries, List.append_nil]
  | cons entry incoming ih =>
    obtain ⟨key, value⟩ := entry
    obtain ⟨hValue, hRest⟩ := List.forall_mem_cons.mp hPlain
    have hNew := notMem_keys_of_nodup hNodup
    rw [List.append_cons] at hNodup ⊢
    rw [mergeEntries, modifyEntry_of_notMem hNew, merge_of_not_isTable hValue, ih hRest hNodup]

/-- A table without a table in it, in which no key occurs twice. -/
def Flat : Setting → Prop
  | .table _ entries =>
    (∀ entry ∈ entries, entry.2.isTable = false) ∧ (entries.map (·.1)).Nodup
  | _ => False

theorem flat_bare_iff (value : Setting) : Flat value.bare ↔ Flat value := by
  cases value with
  | scalar | list => rfl
  | table origin entries =>
    rw [bare, bareEntries_eq_map, Flat, Flat, List.forall_mem_map, List.map_map]
    simp only [isTable_bare]
    rfl

theorem Flat.bare_merge {value : Setting} (h : Flat value) :
    (merge value none).bare = value.bare := by
  cases value with
  | scalar | list => cases h
  | table origin entries =>
    have hMerge : mergeEntries entries [] = entries := mergeEntries_eq_append h.1 h.2
    rw [show merge (.table origin entries) none = .table none (mergeEntries entries []) from rfl,
      hMerge]
    rfl

/-- What is set when each value is set under its name. -/
def named (entries : List (String × Setting)) : List (KeyPath × Setting) :=
  entries.map fun entry => (KeyPath.ofName entry.1, entry.2)

theorem named_eq_map {entries : List (String × Setting)}
    (hNames : ∀ entry ∈ entries, KeyPath.parse? entry.1 = some [.key entry.1]) :
    named entries = entries.map fun entry => ([.key entry.1], entry.2) := by
  refine List.map_congr_left fun entry hEntry => ?_
  rw [KeyPath.ofName, hNames entry hEntry, Option.getD_some]

theorem foldl_place_named {given entries : List (String × Setting)}
    (hNames : ∀ entry ∈ given, KeyPath.parse? entry.1 = some [.key entry.1])
    (hNodup : ((entries ++ given).map (·.1)).Nodup) :
    (named given).foldl place (.table none entries) =
      .table none (entries ++ given.map fun entry => (entry.1, merge entry.2 none)) := by
  induction given generalizing entries with
  | nil => rw [List.map_nil, List.append_nil]; rfl
  | cons entry given ih =>
    have hRest := (List.forall_mem_cons.mp hNames).2
    have hNew := notMem_keys_of_nodup hNodup
    have hFirst : place (.table none entries) ([.key entry.1], entry.2) =
        .table none (entries ++ [(entry.1, merge entry.2 none)]) := by
      rw [place, setAt]
      dsimp only
      rw [modifyEntry_of_notMem hNew, setAt]
    rw [List.append_cons, List.map_append, List.map_append] at hNodup
    rw [named_eq_map hNames, List.map_cons, List.foldl_cons, hFirst, ← named_eq_map hRest, ih hRest,
      List.map_cons, ← List.append_cons]
    rwa [List.map_append, List.map_append]

/-- Flat sections, none twice, each under a name that is not read as a longer path. -/
structure FlatSections (entries : List (String × Setting)) : Prop where
  names : ∀ entry ∈ entries, KeyPath.parse? entry.1 = some [.key entry.1]
  nodup : (entries.map (·.1)).Nodup
  flat : ∀ entry ∈ entries, Flat entry.2

theorem flatSections_bareEntries_iff (entries : List (String × Setting)) :
    FlatSections (bareEntries entries) ↔ FlatSections entries := by
  rw [bareEntries_eq_map]
  constructor
  · rintro ⟨hNames, hNodup, hFlat⟩
    rw [List.forall_mem_map] at hNames hFlat
    rw [List.map_map] at hNodup
    exact ⟨hNames, hNodup, fun entry hEntry => (flat_bare_iff _).mp (hFlat entry hEntry)⟩
  · rintro ⟨hNames, hNodup, hFlat⟩
    refine ⟨List.forall_mem_map.mpr hNames, ?_, List.forall_mem_map.mpr fun entry hEntry => ?_⟩
    · rwa [List.map_map]
    · exact (flat_bare_iff _).mpr (hFlat entry hEntry)

theorem FlatSections.bare_foldl_place {entries : List (String × Setting)}
    (h : FlatSections entries) :
    ((named entries).foldl place emptyTable).bare = (Setting.table none entries).bare := by
  have hPlaced : (named entries).foldl place emptyTable =
      .table none (entries.map fun entry => (entry.1, merge entry.2 none)) :=
    foldl_place_named h.names h.nodup
  rw [hPlaced, bare, bare, bareEntries_eq_map, bareEntries_eq_map, List.map_map]
  congr 1
  exact List.map_congr_left fun entry hEntry => Prod.ext rfl (h.flat entry hEntry).bare_merge

end Setting

namespace Config

open Setting

theorem toTexts_ofTexts (texts : List String) : toList toText (ofTexts texts) = .ok texts :=
  convertItems_map Setting.ofText toText_ofText 0 texts

theorem toLevel_ofLevel (level : Level) : toLevel (ofLevel level) = .ok level := by
  cases level <;> rfl

theorem toRenameEntry_ofRenameEntry (entry : RenameEntry) :
    toRenameEntry (ofRenameEntry entry) = .ok entry := rfl

theorem toRenameEntries_map (entries : List RenameEntry) :
    toList toRenameEntry (.list none (entries.map ofRenameEntry)) = .ok entries :=
  convertItems_map ofRenameEntry toRenameEntry_ofRenameEntry 0 entries

/-- The name of a variant reads as the variant where no two variants have one name. -/
theorem toVariant_nameOf {α : Type} [DecidableEq α] (typeName : String)
    {variants : List (String × α)} (hNodup : (variants.map (·.1)).Nodup) {variant : α}
    (hMem : variant ∈ variants.map (·.2)) :
    toVariant typeName variants (.ofText (nameOf variants variant)) = .ok variant := by
  obtain ⟨entry, hEntry, hVariant⟩ := List.mem_map.mp hMem
  have hFind : (variants.find? (·.2 = variant)).isSome = true :=
    List.find?_isSome.mpr ⟨entry, hEntry, decide_eq_true hVariant⟩
  obtain ⟨found, hFound⟩ := Option.isSome_iff_exists.mp hFind
  have hSame : found.2 = variant := by simpa using List.find?_some hFound
  have hLookup := lookup_eq_some_of_mem hNodup (List.mem_of_find?_eq_some hFound)
  have hName : nameOf variants variant = found.1 := by
    rw [nameOf, hFound]
    rfl
  rw [hName, Setting.ofText, toVariant]
  simp only [hLookup, hSame]

theorem readStruct_ofGlobal (c : GlobalConfig) :
    readStruct "GlobalConfig" globalFields default.global (ofGlobal c) = .ok c := by
  obtain ⟨dry, output, file, log⟩ := c
  rw [ofGlobal, readStruct]
  simp only [List.cons_append, List.nil_append]
  rw [readEntries_cons_eq rfl (toBool_ofBool dry), readEntries_cons_eq rfl (toLevel_ofLevel output),
    readEntries_cons_eq rfl (toLevel_ofLevel file)]
  cases log <;> rfl

theorem readStruct_ofDiscovery (c : DiscoveryConfig) :
    readStruct "DiscoveryConfig" discoveryFields default.discovery (ofDiscovery c) = .ok c := by
  obtain ⟨backend, follow, hidden, respect, dirs⟩ := c
  rw [ofDiscovery, readStruct]
  simp only [List.cons_append, List.nil_append]
  rw [readEntries_cons_eq rfl (toVariant_nameOf _ (by decide) (by cases backend <;> decide)),
    readEntries_cons_eq rfl (toBool_ofBool follow), readEntries_cons_eq rfl (toBool_ofBool hidden),
    readEntries_cons_eq rfl (toBool_ofBool respect)]
  cases dirs with
  | nil => rfl
  | cons dir dirs =>
    rw [List.isEmpty_cons, if_neg Bool.false_ne_true,
      readEntries_cons_eq rfl (toTexts_ofTexts (dir :: dirs))]
    rfl

theorem readStruct_ofEncoding (c : EncodingConfig) :
    readStruct "EncodingConfig" encodingFields default.encoding (ofEncoding c) = .ok c := by
  rw [ofEncoding, readStruct,
    readEntries_cons_eq rfl (toVariant_nameOf _ (by decide) (by cases c.encoding <;> decide)),
    readEntries_cons_eq rfl (toVariant_nameOf _ (by decide) (by cases c.onInvalid <;> decide))]
  rfl

theorem readStruct_ofLimits (c : LimitsConfig) :
    readStruct "LimitsConfig" limitsFields default.limits (ofLimits c) = .ok c := by
  rw [ofLimits, readStruct, readEntries_cons_eq rfl (toTexts_ofTexts c.roots)]
  rfl

theorem readStruct_ofLib (c : LibConfig) :
    readStruct "LibConfig" libFields default.lib (ofLib c) = .ok c := by
  obtain ⟨roots, pattern, replace, renames⟩ := c
  rw [ofLib, readStruct]
  simp only [List.cons_append, List.nil_append]
  rw [readEntries_cons_eq rfl (toTexts_ofTexts roots),
    readEntries_cons_eq rfl (toText_ofText pattern),
    readEntries_cons_eq rfl (toBool_ofBool replace)]
  cases renames with
  | nil => rfl
  | cons entry entries =>
    rw [List.isEmpty_cons, if_neg Bool.false_ne_true,
      readEntries_cons_eq rfl (toRenameEntries_map (entry :: entries))]
    rfl

/-- What is left out of the settings of a configuration is its default. -/
theorem ofSetting_toSetting (config : Config) : ofSetting config.toSetting = .ok config := by
  rw [toSetting, ofSetting, readStruct,
    readEntries_cons_eq rfl (readStruct_ofGlobal config.global),
    readEntries_cons_eq rfl (readStruct_ofDiscovery config.discovery),
    readEntries_cons_eq rfl (readStruct_ofEncoding config.encoding),
    readEntries_cons_eq rfl (readStruct_ofLimits config.limits),
    readEntries_cons_eq rfl (readStruct_ofLib config.lib)]
  rfl

theorem flat_ofGlobal (c : GlobalConfig) : Flat (ofGlobal c) := by
  obtain ⟨dry, output, file, _ | log⟩ := c
  all_goals
    refine ⟨?_, by simp⟩
    simp [ofLevel, Setting.ofBool, Setting.ofInt, Setting.ofText, isTable]

theorem flat_ofDiscovery (c : DiscoveryConfig) : Flat (ofDiscovery c) := by
  obtain ⟨backend, follow, hidden, respect, _ | ⟨dir, dirs⟩⟩ := c
  all_goals
    refine ⟨?_, by simp⟩
    simp [ofTexts, Setting.ofBool, Setting.ofText, isTable]

theorem flat_ofEncoding (c : EncodingConfig) : Flat (ofEncoding c) :=
  ⟨by simp [Setting.ofText, isTable], by simp⟩

theorem flat_ofLimits (c : LimitsConfig) : Flat (ofLimits c) :=
  ⟨by simp [ofTexts, Setting.ofText, isTable], by simp⟩

theorem flat_ofLib (c : LibConfig) : Flat (ofLib c) := by
  obtain ⟨roots, pattern, replace, _ | ⟨entry, entries⟩⟩ := c
  all_goals
    refine ⟨?_, by simp⟩
    simp [ofTexts, Setting.ofBool, Setting.ofText, isTable]

theorem flatSections_toSetting (config : Config) :
    FlatSections (entriesOf (some config.toSetting)) where
  names := by
    simp only [toSetting, entriesOf, List.forall_mem_cons]
    decide +kernel
  nodup := by
    simp [toSetting, entriesOf]
  flat := by
    simp [toSetting, entriesOf, flat_ofGlobal, flat_ofDiscovery, flat_ofEncoding, flat_ofLimits,
      flat_ofLib]

/-- The settings of a configuration, wherever they were read, are merged into nothing as they
stand, and read as the configuration. -/
theorem ofSetting_foldl_place {config : Config} {entries : List (String × Setting)}
    (h : (Setting.table none entries).bare = config.toSetting.bare) :
    ofSetting ((named entries).foldl place emptyTable) = .ok config := by
  have hSections : FlatSections entries := by
    have hEntries : bareEntries entries = bareEntries (entriesOf (some config.toSetting)) :=
      (Setting.table.inj h).2
    rw [← flatSections_bareEntries_iff, hEntries, flatSections_bareEntries_iff]
    exact flatSections_toSetting config
  refine eq_ok_of_toOption_eq_some ?_
  rw [← ignoresOrigin_ofSetting, hSections.bare_foldl_place, h, ignoresOrigin_ofSetting,
    ofSetting_toSetting]
  rfl

end Config

namespace Loader

open Setting

/-- The loader has one source, and nothing above it. -/
structure HasOnly (loader : Loader) (source : Source) : Prop where
  sources : loader.sources = [source]
  variablesOf : loader.variablesOf = none
  overrides : loader.overrides = []

/-- Sets the value of each name, one after another. -/
def setAll (entries : List (String × Setting)) (loader : Loader) : Except LoadFault Loader :=
  entries.foldlM (fun loader entry => loader.set entry.1 entry.2) loader

theorem setAll_eq_ok {entries : List (String × Setting)}
    (hNames : ∀ entry ∈ entries, KeyPath.parse? entry.1 = some [.key entry.1]) (loader : Loader) :
    loader.setAll entries = .ok { loader with
      overrides := (entries.map fun entry => ([.key entry.1], entry.2)).foldl put
        loader.overrides } := by
  induction entries generalizing loader with
  | nil => rfl
  | cons entry entries ih =>
    obtain ⟨hName, hRest⟩ := List.forall_mem_cons.mp hNames
    rw [setAll, List.foldlM_cons, Loader.set, hName]
    exact ih hRest _

section Build

variable {config : Config} (hValid : config.validate = .ok ()) {disk : Disk} {vars : Variables}
  {entries : List (String × Setting)}
  (hSame : (Setting.table none entries).bare = config.toSetting.bare)

include hValid hSame

theorem build_eq_ok_of_placed {loader : Loader}
    (hRead : ∀ source ∈ loader.sources, ∃ entries, source.read disk = .ok entries)
    (hPlaced : loader.placed disk vars = named entries) : loader.build disk vars = .ok config := by
  rw [build_eq_ok_iff, hPlaced]
  exact ⟨hRead, Config.ofSetting_foldl_place hSame, hValid⟩

theorem build_eq_ok_of_hasOnly {loader : Loader} {source : Source} (hOnly : HasOnly loader source)
    (hRead : source.read disk = .ok entries) : loader.build disk vars = .ok config := by
  refine build_eq_ok_of_placed hValid hSame ?_ ?_
  · intro source' hSource
    rw [hOnly.sources, List.mem_singleton] at hSource
    exact ⟨entries, hSource ▸ hRead⟩
  · rw [placed, hOnly.sources, hOnly.variablesOf, hOnly.overrides, List.flatMap_singleton,
      Source.placed, hRead]
    exact (List.append_nil _).trans (List.append_nil _)

end Build

/-- What is written of a valid configuration is loaded as that configuration, whether a source gives
it that is the only one, or its sections are set with nothing below them. -/
theorem build_toSetting {config : Config} (hValid : config.validate = .ok ()) (disk : Disk)
    (vars : Variables) :
    (∀ loader source entries, HasOnly loader source → source.read disk = .ok entries →
      (Setting.table none entries).bare = config.toSetting.bare →
        loader.build disk vars = .ok config) ∧
    (empty.setAll (entriesOf (some config.toSetting)) >>= fun loader => loader.build disk vars) =
      .ok config := by
  refine ⟨fun loader source entries hOnly hRead hSame =>
    build_eq_ok_of_hasOnly hValid hSame hOnly hRead, ?_⟩
  have hNames := (Config.flatSections_toSetting config).names
  rw [setAll_eq_ok hNames]
  change Loader.build { empty with overrides := _ } disk vars = .ok config
  refine build_eq_ok_of_placed hValid rfl (fun _ hSource => (List.not_mem_nil hSource).elim) ?_
  exact (named_eq_map hNames).symm

/-- A configuration without skipped directories, as a file of it is written. -/
def writtenText : String :=
  "\n".intercalate ["[global]", "dry = true", "output_log_level = 2", "file_log_level = 4",
    "log_file = \"run.log\"", "[discovery]", "backend = \"find\"", "follow_links = true",
    "include_hidden = false", "respect_gitignore = true", "[encoding]", "encoding = \"oem\"",
    "on_invalid = \"replace\"", "[limits]", "roots = [\"src\", \"old\"]", "pattern = \"*.c\"",
    "from = \"a.h\"", "to = \"b.h\"", "[lib]", "roots = [\"lib\"]", "pattern = \"*.h\"",
    "replace_defaults = true", "[[lib.mappings]]", "from = \"c.h\"", "to = \"d.h\"",
    "quoted = true", "angle = false"]

def writtenConfig : Config where
  global := { dry := true, outputLevel := .warn, fileLevel := .debug, logFile := some "run.log" }
  discovery :=
    { backend := .find, followLinks := true, includeHidden := false, respectGitignore := true
      skipDirs := [] }
  encoding := { encoding := .oem, onInvalid := .replace }
  limits := { roots := ["src", "old"], pattern := "*.c", old := "a.h", new := "b.h" }
  lib :=
    { roots := ["lib"], pattern := "*.h", replaceDefaults := true
      renames := [⟨"c.h", "d.h", true, false⟩] }

theorem build_toSetting_writtenText :
    writtenConfig.validate = .ok () ∧ Config.parse writtenText = .ok writtenConfig := by
  have hValid : writtenConfig.validate = .ok () := by
    decide +kernel
  have hRead : (Source.text writtenText).read .empty =
      .ok (entriesOf (some writtenConfig.toSetting)) := by
    rw [Source.read, writtenText, String.toList_intercalate]
    decide +kernel
  exact ⟨hValid, (build_toSetting hValid .empty []).1 _ _ _ ⟨rfl, rfl, rfl⟩ hRead rfl⟩

end Loader

end HeaderRename
