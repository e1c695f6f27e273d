import HeaderRename.Proofs.Settings.Layers
import HeaderRename.Proofs.Settings.Reading
import Mathlib.Tactic.IntervalCases

/-!
# Options of single fields

The options that are made for single fields are written as overrides and read again. They stand
above all other layers, and what they say arrives in the configuration, a log file without the white
space around its path.
-/
set_option autoImplicit false

namespace HeaderRename

open Setting

namespace Setting

variable {α β γ δ : Type} [BEq α] [LawfulBEq α] [DecidableEq α]

theorem last?_map_of_injective [BEq γ] [LawfulBEq γ] [DecidableEq γ] {f : α → γ}
    (hInjective : Function.Injective f) (convert : β → δ) (key : α) (entries : List (α × β)) :
    last? (f key) (entries.map fun entry => (f entry.1, convert entry.2)) =
      (last? key entries).map convert := by
  induction entries with
  | nil => rfl
  | cons entry entries ih =>
    rw [List.map_cons, last?_cons, ih, last?_singleton, last?_cons key, last?_singleton,
      Option.map_or]
    by_cases hKey : key = entry.1
    · rw [if_pos hKey, if_pos (congrArg f hKey), Option.map_some]
    · rw [if_neg hKey, if_neg fun hSame => hKey (hInjective hSame), Option.map_none]

theorem last?_toList_map (key key' : α) (text : γ → β) (value? : Option γ) :
    last? key (value?.map fun value => (key', text value)).toList =
      if key = key' then value?.map text else none := by
  cases value? with
  | none => split <;> rfl
  | some value => exact last?_singleton key (key', text value)

theorem fieldPath_injective :
    Function.Injective fun field : String × String => fieldPath field.1 field.2 := by
  rintro ⟨section_, name⟩ ⟨section', name'⟩ h
  simpa [fieldPath] using h

end Setting

namespace GlobalOptions

variable (g : GlobalOptions)

theorem last?_assignments (field : String × String) : last? field g.assignments =
    ((if field = ("discovery", "backend") then g.backend.map Backend.name else none).or
      ((if field = ("global", "dry") then (if g.dry then some "true" else none) else none).or
        ((if field = ("global", "log_file") then g.logFile else none).or
          ((if field = ("global", "file_log_level") then
              (g.fileLogLevel.or g.logLevel).map toString else none).or
            (if field = ("global", "output_log_level") then g.logLevel.map toString
              else none))))) := by
  have hDry : last? field (if g.dry then [(("global", "dry"), "true")] else []) =
      if field = ("global", "dry") then (if g.dry then some "true" else none) else none := by
    split
    · exact last?_singleton _ _
    · rw [ite_self]
      rfl
  have hFile := last?_toList_map field ("global", "log_file") id g.logFile
  rw [Option.map_id] at hFile
  simp only [assignments, last?_append, last?_toList_map, hDry]
  exact congrArg _ (congrArg _ (congrArg (Option.or · _) hFile))

end GlobalOptions

namespace Loader

variable {disk : Disk} {vars : Variables} {g : GlobalOptions}

theorem setsOrSpares_of_mem_flags (section_ name : String) :
    ∀ placed ∈ g.flags.filterMap placed?, SetsOrSpares section_ name placed := by
  rw [g.filterMap_placed?_flags]
  intro placed hMem
  obtain ⟨assignment, _, rfl⟩ := List.mem_map.mp hMem
  exact setsOrSpares_fieldPath assignment.1.1 assignment.1.2 rfl

theorem setsOrSpares_of_mem_overrides {section_ name : String}
    (hOptions : ∀ placed ∈ g.options.filterMap placed?, SetsOrSpares section_ name placed) :
    ∀ placed ∈ g.overrides.filterMap placed?, SetsOrSpares section_ name placed := by
  rw [g.overrides_eq, List.filterMap_append]
  exact List.forall_mem_append.mpr ⟨hOptions, setsOrSpares_of_mem_flags section_ name⟩

theorem field?_rootOf_of_last?_assignments {field : String × String} {text : String}
    (hText : last? field g.assignments = some text)
    (hOptions : ∀ placed ∈ g.options.filterMap placed?, SetsOrSpares field.1 field.2 placed) :
    field? field.1 field.2 (rootOf disk vars g) = some (.ofText (trimmed text)) := by
  have hFlags : last? (fieldPath field.1 field.2) (g.flags.filterMap placed?) =
      some (.ofText (trimmed text)) := by
    rw [g.filterMap_placed?_flags, last?_map_of_injective fieldPath_injective
      (fun text => Setting.ofText (trimmed text)), hText, Option.map_some]
  rw [field?_rootOf disk vars g (setsOrSpares_of_mem_overrides hOptions), g.overrides_eq,
    List.filterMap_append, last?_append, hFlags, Option.some_or, Option.some_or]

theorem toNat_of_toLevel_eq_ok {n : Nat} (h : n ≤ 5) {level : Level}
    (hLevel : Config.toLevel (.ofText (trimmed (toString n))) = .ok level) : level.toNat = n := by
  interval_cases n <;> cases hLevel <;> rfl

theorem eq_of_toVariant_eq_ok {backend backend' : Backend}
    (h : toVariant "Backend" Config.backends (.ofText (trimmed backend.name)) = .ok backend') :
    backend' = backend := by
  cases backend <;> cases h <;> rfl

/-- A configuration that is loaded under options of single fields has what they say, whatever the
layers below say, where every other option sets one of these fields as a whole or spares it. -/
theorem loadConfig_flags {config : Config} (hLoad : loadConfig disk vars g = .ok config)
    (hOptions : ∀ field ∈ g.flagged, ∀ placed ∈ g.options.filterMap placed?,
      SetsOrSpares field.1 field.2 placed)
    (hLevel : ∀ level ∈ g.logLevel, level ≤ 5) (hFileLevel : ∀ level ∈ g.fileLogLevel, level ≤ 5) :
    (∀ level ∈ g.logLevel, config.global.outputLevel.toNat = level) ∧
      (∀ level ∈ g.fileLogLevel.or g.logLevel, config.global.fileLevel.toNat = level) ∧
      (∀ file ∈ g.logFile, config.global.logFile = some (trimmed file)) ∧
      (g.dry = true → config.global.dry = true) ∧
      ∀ backend ∈ g.backend, config.discovery.backend = backend := by
  obtain ⟨_, _, hConfig, _⟩ := (loadConfig_eq_ok_iff disk vars g config).mp hLoad
  have hRoot := keyed_rootOf disk vars g
  have hValue : ∀ field text, last? field g.assignments = some text →
      field? field.1 field.2 (rootOf disk vars g) = some (.ofText (trimmed text)) := by
    intro field text hText
    have hField := g.mem_flagged_of_mem_assignments _ (mem_of_last?_eq_some field hText)
    exact field?_rootOf_of_last?_assignments hText (hOptions field hField)
  refine ⟨?_, ?_, ?_, ?_, ?_⟩
  · intro level hMem
    have hText : last? ("global", "output_log_level") g.assignments = some (toString level) := by
      simp [g.last?_assignments, Option.mem_def.mp hMem]
    have hRead := Config.convert_global_eq_ok hRoot hConfig
      ⟨"output_log_level", _, Config.toLevel, (·.outputLevel)⟩ (by simp [Config.globalViews])
      (hValue _ _ hText)
    exact toNat_of_toLevel_eq_ok (hLevel level hMem) hRead
  · intro level hMem
    have hText : last? ("global", "file_log_level") g.assignments = some (toString level) := by
      simp [g.last?_assignments, Option.mem_def.mp hMem]
    have hRead := Config.convert_global_eq_ok hRoot hConfig
      ⟨"file_log_level", _, Config.toLevel, (·.fileLevel)⟩ (by simp [Config.globalViews])
      (hValue _ _ hText)
    have hBound : level ≤ 5 := by
      rcases Option.or_eq_some_iff.mp hMem with hOwn | ⟨_, hOther⟩
      · exact hFileLevel level hOwn
      · exact hLevel level hOther
    exact toNat_of_toLevel_eq_ok hBound hRead
  · intro file hMem
    have hText : last? ("global", "log_file") g.assignments = some file := by
      simp [g.last?_assignments, Option.mem_def.mp hMem]
    have hRead := Config.convert_global_eq_ok hRoot hConfig
      ⟨"log_file", _, toOption toText, (·.logFile)⟩ (by simp [Config.globalViews])
      (hValue _ _ hText)
    exact (Except.ok.inj hRead).symm
  · intro hDry
    have hText : last? ("global", "dry") g.assignments = some "true" := by
      simp [g.last?_assignments, hDry]
    have hRead := Config.convert_global_eq_ok hRoot hConfig
      ⟨"dry", _, Setting.toBool, (·.dry)⟩ (by simp [Config.globalViews]) (hValue _ _ hText)
    exact (Except.ok.inj hRead).symm
  · intro backend hMem
    have hText : last? ("discovery", "backend") g.assignments = some backend.name := by
      simp [g.last?_assignments, Option.mem_def.mp hMem]
    have hRead := Config.convert_discovery_eq_ok hRoot hConfig
      ⟨"backend", _, toVariant "Backend" Config.backends, (·.backend)⟩
      (by simp [Config.discoveryViews]) (hValue _ _ hText)
    exact eq_of_toVariant_eq_ok hRead

def loudOptions : GlobalOptions :=
  { GlobalOptions.empty with
    dry := true
    logLevel := some 4
    logFile := some "logs/a = b.log"
    backend := some .find
    options := ["global/log_file = c.log"] }

def loudVariables : Variables :=
  [("INCFIX_GLOBAL__DRY", "0")]

def loudConfig : Config :=
  { Config.default with
    global := ⟨true, .debug, .debug, some "logs/a = b.log"⟩
    discovery := { Config.default.discovery with backend := .find } }

theorem loadConfig_flags_loudOptions :
    loadConfig .empty loudVariables loudOptions = .ok loudConfig ∧
      loudConfig.global.outputLevel.toNat = 4 ∧ loudConfig.global.fileLevel.toNat = 4 ∧
      loudConfig.global.logFile = some "logs/a = b.log" ∧ loudConfig.global.dry = true ∧
      loudConfig.discovery.backend = .find := by
  have hLoad : loadConfig .empty loudVariables loudOptions = .ok loudConfig := by decide +kernel
  have hOptions : ∀ field ∈ loudOptions.flagged, ∀ placed ∈ loudOptions.options.filterMap placed?,
      SetsOrSpares field.1 field.2 placed := by
    decide +kernel
  obtain ⟨hLevel, hFileLevel, hFile, hDry, hBackend⟩ := loadConfig_flags hLoad hOptions
    (by simp [loudOptions]) (by simp [loudOptions, GlobalOptions.empty])
  refine ⟨hLoad, hLevel 4 rfl, hFileLevel 4 rfl, ?_, hDry rfl, hBackend .find rfl⟩
  rw [hFile "logs/a = b.log" rfl]
  decide +kernel

def paddedOptions : GlobalOptions :=
  { GlobalOptions.empty with logFile := some " a.log" }

def paddedConfig : Config :=
  { Config.default with global := { Config.default.global with logFile := some "a.log" } }

/-- White space around the path of a log file is lost. -/
theorem logFile_paddedOptions : loadConfig .empty [] paddedOptions = .ok paddedConfig ∧
    paddedOptions.logFile = some " a.log" ∧ paddedConfig.global.logFile = some "a.log" := by
  have hLoad : loadConfig .empty [] paddedOptions = .ok paddedConfig := by decide +kernel
  exact ⟨hLoad, rfl, rfl⟩

end Loader

end HeaderRename
