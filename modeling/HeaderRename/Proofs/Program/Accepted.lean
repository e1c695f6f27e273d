import HeaderRename.Program.Perform
import HeaderRename.Proofs.Run.Errors
import HeaderRename.Proofs.Settings.Acceptance

/-!
# Commands under an accepted configuration

A configuration that can be loaded is one that is accepted, and under such a configuration no command
that runs a table fails for the configuration or for want of roots, whatever roots the command line
gives in place of those of the configuration.
-/
set_option autoImplicit false

namespace HeaderRename

namespace Command

variable (host : Host) (config : Config) (tool : ToolOptions)

theorem fault_runTable (table : Table) {roots : List String} (hRoots : roots ≠ [])
    (pattern : String) :
    (runTable host config (.ok table) roots pattern tool).fault = none ∨
      ∃ error : Error, error.IsOfRun ∧
        (runTable host config (.ok table) roots pattern tool).fault = some error.chain := by
  let search : Search :=
    { roots := if tool.roots.isEmpty then roots else tool.roots
      pattern := tool.pattern.getD pattern
      backend := config.discovery.backend
      options := config.walkOptions
      command := host.finder? }
  let run : Run := { table, search, options := config.rewriteOptions }
  have hSearch : run.search.roots ≠ [] := by
    change (if tool.roots.isEmpty then roots else tool.roots) ≠ []
    split
    · exact hRoots
    · next hGiven => simpa using hGiven
  rw [runTable]
  dsimp only
  split
  · exact .inl rfl
  · next error hResult =>
    have hRun : (run.execute host.disk).result = .error error := hResult
    exact .inr ⟨error, Run.isOfRun_of_execute hSearch hRun, rfl⟩

theorem fault_perform {config : Config} (h : config.IsAcceptable) (global : GlobalOptions)
    {command : Command} (hCommand : command ∈ [fixLimits tool, updateIncludes tool]) :
    (perform host config ⟨global, some command⟩).fault = none ∨
      ∃ error : Error, error.IsOfRun ∧
        (perform host config ⟨global, some command⟩).fault = some error.chain := by
  simp only [List.mem_cons, List.not_mem_nil, or_false] at hCommand
  rcases hCommand with rfl | rfl
  · obtain ⟨table, hTable⟩ := config.exists_limitsTable_iff.mpr h.limitsNames
    rw [perform, hTable]
    exact fault_runTable host config tool table h.limitsRoots config.limits.pattern
  · obtain ⟨table, hTable⟩ : ∃ table, config.libTable = .ok table := by
      rw [config.exists_libTable_iff, config.forall_mem_libRenames_iff, config.nodup_libRenames_iff]
      exact ⟨h.entryNames, h.distinct, h.notBuiltin⟩
    rw [perform, hTable]
    exact fault_runTable host config tool table h.libRoots config.lib.pattern

end Command

namespace Loader

/-- Merged settings that read as a configuration are loaded just when that is acceptable; and then
neither command that runs a table fails with an error of the configuration or for want of roots. -/
theorem build_eq_ok_iff_isAcceptable (loader : Loader) (disk : Disk) (vars : Variables)
    {root : Setting} {config : Config} (hMerged : loader.merged disk vars = .ok root)
    (hRead : Config.ofSetting root = .ok config) :
    (loader.build disk vars = .ok config ↔ config.IsAcceptable) ∧
      (config.IsAcceptable → ∀ (host : Host) (global : GlobalOptions) (tool : ToolOptions),
        ∀ command ∈ [Command.fixLimits tool, Command.updateIncludes tool],
          (∀ error : ConfigError, (Command.perform host config ⟨global, some command⟩).fault ≠
            some (Error.config error).chain) ∧
          (Command.perform host config ⟨global, some command⟩).fault ≠
            some (Error.discovery .noRoots).chain) := by
  constructor
  · rw [build_eq_ok_iff_validate hMerged hRead, config.validate_eq_ok_iff]
  · intro hAcceptable host global tool command hCommand
    rcases Command.fault_perform host tool hAcceptable global hCommand with
      hNone | ⟨error, hError, hSome⟩
    · rw [hNone]
      exact ⟨fun _ => Option.some_ne_none _ |>.symm, Option.some_ne_none _ |>.symm⟩
    · rw [hSome]
      constructor
      · intro fault hSame
        exact Error.chain_ne_config hError fault (Option.some.inj hSame)
      · intro hSame
        exact Error.chain_ne_noRoots hError (Option.some.inj hSame)

/-- A built-in name is taken again, which only a table without the built-in renames allows. -/
def takingAgain (replace : Bool) : Loader :=
  empty.addText ("[lib]\nreplace_defaults = " ++ toString replace ++
    "\n\n[[lib.mappings]]\nfrom = \"lapi.h\"\nto = \"lua/api.h\"\n")

def takenAgain (replace : Bool) : Config :=
  { Config.default with
    lib :=
      { Config.default.lib with
        replaceDefaults := replace, renames := [⟨"lapi.h", "lua/api.h", true, true⟩] } }

theorem exists_merged_takingAgain (replace : Bool) :
    ∃ root, (takingAgain replace).merged .empty [] = .ok root ∧
      Config.ofSetting root = .ok (takenAgain replace) := by
  have hRead : ((takingAgain replace).merged .empty []).toOption.bind
      (fun root => (Config.ofSetting root).toOption) = some (takenAgain replace) := by
    cases replace <;> decide +kernel
  obtain ⟨root, hRoot, hConfig⟩ := Option.bind_eq_some_iff.mp hRead
  exact ⟨root, Setting.eq_ok_of_toOption_eq_some hRoot, Setting.eq_ok_of_toOption_eq_some hConfig⟩

theorem build_eq_ok_iff_isAcceptable_takingAgain :
    ((takenAgain true).IsAcceptable ∧
      (takingAgain true).build .empty [] = .ok (takenAgain true) ∧
      ∀ (host : Host) (tool : ToolOptions),
        (Command.perform host (takenAgain true)
          ⟨GlobalOptions.empty, some (.updateIncludes tool)⟩).fault ≠
            some (Error.discovery .noRoots).chain) ∧
    ¬ (takenAgain false).IsAcceptable ∧
      (takingAgain false).build .empty [] ≠ .ok (takenAgain false) := by
  obtain ⟨root, hMerged, hRead⟩ := exists_merged_takingAgain true
  obtain ⟨hBuild, hCommands⟩ := build_eq_ok_iff_isAcceptable _ _ _ hMerged hRead
  obtain ⟨root', hMerged', hRead'⟩ := exists_merged_takingAgain false
  have hAcceptable : (takenAgain true).IsAcceptable := by decide +kernel
  have hRefused : ¬ (takenAgain false).IsAcceptable := by decide +kernel
  refine ⟨⟨hAcceptable, hBuild.mpr hAcceptable, fun host tool => ?_⟩, hRefused, ?_⟩
  · exact (hCommands hAcceptable host GlobalOptions.empty tool _ (by simp)).2
  · exact mt (build_eq_ok_iff_isAcceptable _ _ _ hMerged' hRead').1.mp hRefused

end Loader

end HeaderRename
