import HeaderRename.Proofs.Settings.Overrides

/-!
# The layers of a configuration

A configuration that is loaded has in each field the value of the highest layer that sets the field:
the options given, before the environment, before the files given, before the default file. Only the
options that are made for single fields stand above them.
-/
set_option autoImplicit false

namespace HeaderRename

open Setting

def KeyPath.ofName (name : String) : KeyPath :=
  (parse? name).getD [.key name]

theorem KeyPath.startsWithKey_ofName (name : String) : StartsWithKey (ofName name) := by
  rw [ofName]
  cases hPath : parse? name with
  | none => exact ⟨name, [], rfl⟩
  | some path => exact startsWithKey_of_parse? hPath

namespace Source

/-- What a source sets, in order. -/
def placed (disk : Disk) (source : Source) : List (KeyPath × Setting) :=
  match source.read disk with
  | .ok entries => entries.map fun (name, value) => (KeyPath.ofName name, value)
  | .error _ => []

variable {disk : Disk} {root root' : Setting}

theorem apply_eq_ok_iff {source : Source} : source.apply disk root = .ok root' ↔
    (∃ entries, source.read disk = .ok entries) ∧
      root' = (source.placed disk).foldl place root := by
  rw [apply, placed]
  cases source.read disk with
  | error fault => simp [bind, Except.bind]
  | ok entries =>
    rw [List.foldl_map]
    simp only [bind, Except.bind, pure, Except.pure, Except.ok.injEq, exists_eq', true_and]
    exact eq_comm

theorem foldlM_apply_eq_ok_iff {sources : List Source} :
    sources.foldlM (Source.apply disk) root = .ok root' ↔
      (∀ source ∈ sources, ∃ entries, source.read disk = .ok entries) ∧
        root' = (sources.flatMap (placed disk)).foldl place root := by
  induction sources generalizing root with
  | nil =>
    constructor
    · intro h
      exact ⟨List.forall_mem_nil _, (Except.ok.inj h).symm⟩
    · rintro ⟨_, rfl⟩
      rfl
  | cons source sources ih =>
    rw [List.foldlM_cons, bind_eq_ok_iff, List.forall_mem_cons, List.flatMap_cons,
      List.foldl_append]
    constructor
    · rintro ⟨next, hNext, hRest⟩
      obtain ⟨hRead, rfl⟩ := apply_eq_ok_iff.mp hNext
      obtain ⟨hReads, hRoot⟩ := ih.mp hRest
      exact ⟨⟨hRead, hReads⟩, hRoot⟩
    · rintro ⟨⟨hRead, hReads⟩, hRoot⟩
      exact ⟨_, apply_eq_ok_iff.mpr ⟨hRead, rfl⟩, ih.mpr ⟨hReads, hRoot⟩⟩

theorem startsWithKey_of_mem_placed {source : Source} :
    ∀ placed ∈ source.placed disk, StartsWithKey placed.1 := by
  intro placed hPlaced
  unfold Source.placed at hPlaced
  split at hPlaced
  · obtain ⟨entry, _, rfl⟩ := List.mem_map.mp hPlaced
    exact KeyPath.startsWithKey_ofName entry.1
  · cases hPlaced

end Source

namespace Environment

def placed (start : String) (vars : Variables) : List (KeyPath × Setting) :=
  vars.filterMap fun (name, value) =>
    (settingName? start name).map fun key =>
      (KeyPath.ofName key, .scalar originName (scalarOf value))

theorem apply_eq_foldl (start : String) (vars : Variables) (root : Setting) :
    apply start vars root = (placed start vars).foldl place root := by
  rw [apply, placed, List.foldl_filterMap]
  refine List.foldl_ext _ _ _ fun root setting _ => ?_
  obtain ⟨name, value⟩ := setting
  dsimp only
  cases settingName? start name <;> rfl

theorem startsWithKey_of_mem_placed {start : String} {vars : Variables} :
    ∀ setting ∈ placed start vars, StartsWithKey setting.1 := by
  intro setting hMem
  obtain ⟨variable_, _, hSetting⟩ := List.mem_filterMap.mp hMem
  obtain ⟨key, _, rfl⟩ := Option.map_eq_some_iff.mp hSetting
  exact KeyPath.startsWithKey_ofName key

end Environment

namespace Loader

/-- What the layers of a loader set, from the lowest up. -/
def placed (disk : Disk) (vars : Variables) (loader : Loader) : List (KeyPath × Setting) :=
  loader.sources.flatMap (Source.placed disk) ++
    (loader.variablesOf.elim [] fun start => Environment.placed start vars) ++ loader.overrides

theorem merged_eq_ok_iff {disk : Disk} {vars : Variables} {loader : Loader} {root : Setting} :
    loader.merged disk vars = .ok root ↔
      (∀ source ∈ loader.sources, ∃ entries, source.read disk = .ok entries) ∧
        root = (loader.placed disk vars).foldl place emptyTable := by
  obtain ⟨sources, variablesOf, overrides, listed⟩ := loader
  rw [placed, List.foldl_append, List.foldl_append]
  cases variablesOf <;>
    simp only [merged, bind_eq_ok_iff, mapError_eq_ok_iff, Source.foldlM_apply_eq_ok_iff,
      Environment.apply_eq_foldl]
  all_goals
    constructor
    · rintro ⟨_, ⟨hRead, rfl⟩, hRoot⟩
      exact ⟨hRead, (Except.ok.inj hRoot).symm⟩
    · rintro ⟨hRead, rfl⟩
      exact ⟨_, ⟨hRead, rfl⟩, rfl⟩

/-- A loader gives a configuration when its sources can be read and the merged settings read as a
valid configuration. -/
theorem build_eq_ok_iff {disk : Disk} {vars : Variables} {loader : Loader} {config : Config} :
    loader.build disk vars = .ok config ↔
      (∀ source ∈ loader.sources, ∃ entries, source.read disk = .ok entries) ∧
        Config.ofSetting ((loader.placed disk vars).foldl place emptyTable) = .ok config ∧
          config.validate = .ok () := by
  simp only [build, bind_eq_ok_iff, mapError_eq_ok_iff, merged_eq_ok_iff]
  constructor
  · rintro ⟨_, ⟨hRead, rfl⟩, config', hConfig, _, hValid, hSame⟩
    cases hSame
    exact ⟨hRead, hConfig, hValid⟩
  · rintro ⟨hRead, hConfig, hValid⟩
    exact ⟨_, ⟨hRead, rfl⟩, config, hConfig, (), hValid, rfl⟩

variable (disk : Disk) (vars : Variables) (g : GlobalOptions)

def sourcesOf : List Source :=
  (if g.noDefaultInis then [] else [.optionalFile defaultIni]) ++ g.inis.map Source.file

/-- What the layers of a command line set, from the lowest up. -/
def layers : List (List (KeyPath × Setting)) :=
  (sourcesOf g).map (Source.placed disk) ++ [Environment.placed variableStart vars] ++
    g.options.map fun raw => (placed? raw).toList

/-- The value of a field in the highest layer that sets it. -/
def highest? (section_ name : String) (layers : List (List (KeyPath × Setting))) : Option Setting :=
  layers.reverse.findSome? fun layer => last? (section_, name) (layer.flatMap fieldsOf)

theorem highest?_eq_last? (section_ name : String) (layers : List (List (KeyPath × Setting))) :
    highest? section_ name layers = last? (section_, name) (layers.flatten.flatMap fieldsOf) := by
  rw [highest?, ← List.flatMap_id, List.flatMap_assoc, last?_flatMap]
  rfl

theorem sources_foldl_addFile (loader : Loader) (paths : List String) :
    (paths.foldl addFile loader).sources = loader.sources ++ paths.map Source.file := by
  induction paths generalizing loader with
  | nil => exact (List.append_nil _).symm
  | cons path paths ih =>
    rw [List.foldl_cons, ih, addFile, List.append_assoc]
    rfl

theorem overrides_foldl_addFile (loader : Loader) (paths : List String) :
    (paths.foldl addFile loader).overrides = loader.overrides := by
  induction paths generalizing loader with
  | nil => rfl
  | cons path paths ih => rw [List.foldl_cons, ih, addFile]

/-- The layers of a command line without its overrides. -/
def withoutOverrides : Loader :=
  (g.inis.foldl addFile
    (if g.noDefaultInis then empty else empty.addOptionalFile disk defaultIni)).withEnvironment
      variableStart

theorem sources_withoutOverrides : (withoutOverrides disk g).sources = sourcesOf g := by
  change (g.inis.foldl addFile
    (if g.noDefaultInis then empty else empty.addOptionalFile disk defaultIni)).sources = _
  rw [sources_foldl_addFile, sourcesOf]
  split <;> rfl

theorem overrides_withoutOverrides : (withoutOverrides disk g).overrides = [] := by
  change (g.inis.foldl addFile
    (if g.noDefaultInis then empty else empty.addOptionalFile disk defaultIni)).overrides = _
  rw [overrides_foldl_addFile]
  split <;> rfl

def loaderOf : Loader :=
  { withoutOverrides disk g with overrides := (g.overrides.filterMap placed?).foldl put [] }

theorem ofOptions_eq_ok_iff (loader : Loader) : ofOptions disk g = .ok loader ↔
    (∀ raw ∈ g.overrides, (placed? raw).isSome = true) ∧ loader = loaderOf disk g := by
  rw [show ofOptions disk g = (withoutOverrides disk g).applyOverrides g.overrides from rfl,
    applyOverrides_eq_ok_iff, overrides_withoutOverrides, loaderOf]

/-- The merged settings of the files and of the variables. -/
def belowOf : Setting :=
  ((sourcesOf g).flatMap (Source.placed disk) ++
    Environment.placed variableStart vars).foldl place emptyTable

/-- The merged settings of all layers. -/
def rootOf : Setting :=
  ((g.overrides.filterMap placed?).foldl put []).foldl place (belowOf disk vars g)

theorem keyed_rootOf : Keyed (rootOf disk vars g) := by
  rw [rootOf, belowOf]
  refine keyed_foldl_place (fun placed hPlaced => ?_)
    (keyed_foldl_place (fun placed hPlaced => ?_) keyed_emptyTable)
  · rcases of_mem_foldl_put _ hPlaced with hOption | hNil
    · obtain ⟨raw, _, hRaw⟩ := List.mem_filterMap.mp hOption
      exact (of_placed?_eq_some hRaw).1
    · cases hNil
  · rcases List.mem_append.mp hPlaced with hSource | hVariable
    · obtain ⟨source, _, hMem⟩ := List.mem_flatMap.mp hSource
      exact source.startsWithKey_of_mem_placed placed hMem
    · exact Environment.startsWithKey_of_mem_placed placed hVariable

/-- Where no override reaches into the field or beyond it, the last one of the field counts. -/
theorem field?_rootOf {section_ name : String}
    (hOverrides : ∀ placed ∈ g.overrides.filterMap placed?, SetsOrSpares section_ name placed) :
    field? section_ name (rootOf disk vars g) =
      (last? (fieldPath section_ name) (g.overrides.filterMap placed?)).or
        (field? section_ name (belowOf disk vars g)) := by
  rw [rootOf, field?_foldl_place_eq_last? (setsOrSpares_of_mem_foldl_put _ hOverrides),
    last?_path_foldl_put]

theorem sources_loaderOf : (loaderOf disk g).sources = sourcesOf g :=
  sources_withoutOverrides disk g

theorem foldl_placed_loaderOf :
    ((loaderOf disk g).placed disk vars).foldl place emptyTable = rootOf disk vars g := by
  rw [placed, sources_loaderOf, List.foldl_append]
  rfl

theorem merged_loaderOf_eq_ok_iff (root : Setting) :
    (loaderOf disk g).merged disk vars = .ok root ↔
      (∀ source ∈ sourcesOf g, ∃ entries, source.read disk = .ok entries) ∧
        root = rootOf disk vars g := by
  rw [merged_eq_ok_iff, sources_loaderOf, foldl_placed_loaderOf]

/-- A configuration is loaded when the overrides are well-formed, the files can be read and the
merged settings read as a valid configuration. -/
theorem loadConfig_eq_ok_iff (config : Config) : loadConfig disk vars g = .ok config ↔
    (∀ raw ∈ g.overrides, (placed? raw).isSome = true) ∧
      (∀ source ∈ sourcesOf g, ∃ entries, source.read disk = .ok entries) ∧
        Config.ofSetting (rootOf disk vars g) = .ok config ∧ config.validate = .ok () := by
  simp only [loadConfig, bind_eq_ok_iff, ofOptions_eq_ok_iff, build_eq_ok_iff]
  constructor
  · rintro ⟨_, ⟨hPlaced, rfl⟩, hBuilt⟩
    rw [sources_loaderOf, foldl_placed_loaderOf] at hBuilt
    exact ⟨hPlaced, hBuilt⟩
  · rintro ⟨hPlaced, hBuilt⟩
    refine ⟨_, ⟨hPlaced, rfl⟩, ?_⟩
    rwa [sources_loaderOf, foldl_placed_loaderOf]

theorem exists_root_of_loadConfig {config : Config} (h : loadConfig disk vars g = .ok config) :
    ∃ root, Config.ofSetting root = .ok config ∧
      root = ((g.overrides.filterMap placed?).foldl put []).foldl place
        (((sourcesOf g).flatMap (Source.placed disk) ++
          Environment.placed variableStart vars).foldl place emptyTable) := by
  obtain ⟨_, _, hConfig, _⟩ := (loadConfig_eq_ok_iff disk vars g config).mp h
  exact ⟨rootOf disk vars g, hConfig, rfl⟩

variable {disk vars g}

theorem flatten_layers : (layers disk vars g).flatten =
    (sourcesOf g).flatMap (Source.placed disk) ++ Environment.placed variableStart vars ++
      g.options.filterMap placed? := by
  rw [layers, List.flatten_append, List.flatten_append, List.flatten_singleton,
    List.filterMap_eq_flatMap_toList, List.flatMap, List.flatMap]

/-- Where all layers set fields of sections, and none to a table, a configuration that is loaded has
in each field the value of the highest layer that sets it, and the default where none does; what has
an option of its own is left out. There is nothing else to a configuration. -/
theorem loadConfig_field {config : Config} (hLoad : loadConfig disk vars g = .ok config)
    (hPlain : ∀ layer ∈ layers disk vars g, ∀ placed ∈ layer, isPlain placed = true) :
    (∀ field ∈ Config.fields, (field.section_, field.name) ∉ g.flagged →
      ReadsAs field.convert (field.get Config.default)
        (highest? field.section_ field.name (layers disk vars g)) (field.get config)) ∧
    ∀ config' : Config, (∀ field ∈ Config.fields, field.get config' = field.get config) →
      config' = config := by
  refine ⟨fun field hField hFlags => ?_, fun config' => Config.eq_of_fields⟩
  obtain ⟨root, hConfig, hRoot⟩ := exists_root_of_loadConfig disk vars g hLoad
  have hFlat : ∀ placed ∈ (layers disk vars g).flatten, isPlain placed = true := by
    intro placed hPlaced
    obtain ⟨layer, hLayer, hMem⟩ := List.mem_flatten.mp hPlaced
    exact hPlain layer hLayer placed hMem
  rw [flatten_layers, List.forall_mem_append] at hFlat
  obtain ⟨hBelow, hOptions⟩ := hFlat
  have hFields : ∀ placed ∈ g.options.filterMap placed?, IsField placed := by
    intro placed hPlaced
    obtain ⟨raw, _, hRaw⟩ := List.mem_filterMap.mp hPlaced
    exact isField_of_isPlain hRaw (hOptions placed hPlaced)
  have hOverrides : ∀ placed ∈ (g.overrides.filterMap placed?).foldl put [],
      isPlain placed = true := by
    intro placed hPlaced
    rcases of_mem_foldl_put _ hPlaced with hMem | hNil
    · rw [g.overrides_eq, List.filterMap_append] at hMem
      exact (List.mem_append.mp hMem).elim (hOptions placed) fun hFlag => (of_mem_flags hFlag).1
    · cases hNil
  obtain ⟨hSectioned, hLower⟩ := field?_foldl_place _ hBelow sectioned_emptyTable
  obtain ⟨hWhole, hUpper⟩ := field?_foldl_place _ hOverrides hSectioned
  rw [← hRoot] at hWhole hUpper
  have hRead := Config.readsAs_field hWhole hConfig field hField
  rwa [hUpper, hLower, last?_overrides hFlags hFields, ← Option.or_assoc, ← last?_append,
    ← List.flatMap_append, ← flatten_layers, ← highest?_eq_last?,
    show emptyTable.field? field.section_ field.name = none from rfl, Option.or_none] at hRead

/-- A default file with a word that is no boolean, and a file that stands above it. -/
def siteFolder : Disk where
  entries :=
    [(["incfix.toml"], .file
        "[global]\ndry = \"perhaps\"\n\n[limits]\nroots = [\"src\", \"old\"]\n".toUTF8.toList),
      (["site.toml"], .file
        "[limits]\nroots = [\"new\"]\n\n[encoding]\nencoding = \"oem\"\n".toUTF8.toList)]
  nodup := by decide
  valid := by decide

def siteVariables : Variables :=
  [("INCFIX_GLOBAL__DRY", "1"), ("HOME", "/")]

def siteOptions : GlobalOptions :=
  { GlobalOptions.empty with
    inis := ["site.toml"]
    backend := some .find
    options := ["encoding/encoding = acp"] }

def siteConfig : Config :=
  { Config.default with
    global := { Config.default.global with dry := true }
    discovery := { Config.default.discovery with backend := .find }
    encoding := { Config.default.encoding with encoding := .acp }
    limits := { Config.default.limits with roots := ["new"] } }

theorem loadConfig_field_siteFolder :
    loadConfig siteFolder siteVariables siteOptions = .ok siteConfig ∧
      (∀ layer ∈ layers siteFolder siteVariables siteOptions, ∀ placed ∈ layer,
        isPlain placed = true) ∧
      siteOptions.flagged = [("discovery", "backend")] ∧
      ReadsAs (toList toText) ["src", "lib"]
        (highest? "limits" "roots" (layers siteFolder siteVariables siteOptions)) ["new"] ∧
      ReadsAs toBool false
        (highest? "global" "dry" (layers siteFolder siteVariables siteOptions)) true := by
  have hLoad : loadConfig siteFolder siteVariables siteOptions = .ok siteConfig := by
    decide +kernel
  have hPlain : ∀ layer ∈ layers siteFolder siteVariables siteOptions, ∀ placed ∈ layer,
      isPlain placed = true := by
    decide +kernel
  have hFlags : siteOptions.flagged = [("discovery", "backend")] := rfl
  have hFields := (loadConfig_field hLoad hPlain).1
  rw [hFlags] at hFields
  refine ⟨hLoad, hPlain, hFlags, ?_, ?_⟩
  · exact hFields (Config.fieldOf "limits" (·.limits) ⟨"roots", _, toList toText, (·.roots)⟩)
      (by simp [Config.fields, Config.limitsViews]) (by decide)
  · exact hFields (Config.fieldOf "global" (·.global) ⟨"dry", _, toBool, (·.dry)⟩)
      (by simp [Config.fields, Config.globalViews]) (by decide)

end Loader

end HeaderRename
