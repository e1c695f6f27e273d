import HeaderRename.Proofs.Discovery.Backends
import HeaderRename.Proofs.Run.Rewrite
import HeaderRename.Rename.Builtin
import HeaderRename.Run.Table
import Mathlib.Logic.Function.Iterate

/-!
# What a run does

As the visits of a run change nothing that tells where paths lead, a run falls apart into its files:
each is rewritten once for every listed path that leads to it, and what a visit finds depends on how
often its file was visited before.
-/
set_option autoImplicit false

namespace HeaderRename

namespace Disk

/-- How many of the paths lead to the file at a place. -/
def visits (disk : Disk) (paths : List String) (place : Place) : Nat :=
  paths.countP fun path => disk.fileAt? path == some place

theorem visits_append (disk : Disk) (paths paths' : List String) (place : Place) :
    disk.visits (paths ++ paths') place = disk.visits paths place + disk.visits paths' place :=
  List.countP_append

theorem visits_singleton (disk : Disk) (path : String) (place place' : Place)
    (h : disk.fileAt? path = some place) :
    disk.visits [path] place' = if place' = place then 1 else 0 := by
  rw [visits, List.countP_singleton, h]
  by_cases hPlace : place' = place
  · rw [if_pos hPlace, hPlace, if_pos (beq_self_eq_true _)]
  · rw [if_neg hPlace, if_neg fun hSame => hPlace (Option.some.inj (eq_of_beq hSame)).symm]

theorem visits_eq_zero_iff (disk : Disk) (paths : List String) (place : Place) :
    disk.visits paths place = 0 ↔ ∀ path ∈ paths, disk.fileAt? path ≠ some place := by
  simp only [visits, List.countP_eq_zero, beq_iff_eq, ne_eq]

theorem stat_eq_file_of_mapFiles (disk : Disk) (f : Place → List UInt8 → List UInt8)
    (path : String) (place : Place) (bytes' : List UInt8)
    (h : (disk.mapFiles f).stat path = .ok (.file place bytes')) :
    ∃ bytes, disk.stat path = .ok (.file place bytes) ∧ bytes' = f place bytes := by
  rw [stat_mapFiles] at h
  cases hStat : disk.stat path with
  | error fault => rw [hStat] at h; cases h
  | ok found =>
    rw [hStat] at h
    cases found with
    | file place bytes =>
      cases h
      exact ⟨bytes, rfl, rfl⟩
    | directory | link | missing => cases h

end Disk

namespace Run

variable (run : Run) (disk : Disk)

/-- The bytes of a file after this many visits. -/
def bytesAfter (count : Nat) : List UInt8 → List UInt8 :=
  (run.options.effect run.table.rules)^[count]

/-- The disk when these paths have been visited. -/
def diskAfter (visited : List String) : Disk :=
  disk.mapFiles fun place => run.bytesAfter (disk.visits visited place)

/-- The visit of a path finds a change, these paths having been visited before it. -/
def findsChange (visited : List String) (path : String) : Bool :=
  match disk.stat path with
  | .ok (.file place bytes) =>
    (run.options.apply run.table.rules
      (run.bytesAfter (disk.visits visited place) bytes)).changed
  | _ => false

/-- The paths whose visits find a change, in order. -/
def changing : List String → List String → List String
  | _, [] => []
  | visited, path :: rest =>
    (if run.findsChange disk visited path then [path] else []) ++
      changing (visited ++ [path]) rest

theorem changing_append (visited paths paths' : List String) :
    run.changing disk visited (paths ++ paths') =
      run.changing disk visited paths ++ run.changing disk (visited ++ paths) paths' := by
  induction paths generalizing visited with
  | nil => rw [changing, List.append_nil, List.nil_append, List.nil_append]
  | cons path rest ih =>
    rw [List.cons_append, changing, changing, ih, List.append_assoc, List.append_assoc,
      List.singleton_append]

theorem diskAfter_nil : run.diskAfter disk [] = disk :=
  disk.mapFiles_id

theorem diskAfter_append (visited : List String) (path : String) (place : Place)
    (h : disk.fileAt? path = some place) :
    (run.diskAfter disk visited).mapFiles (run.options.effectAt run.table.rules place) =
      run.diskAfter disk (visited ++ [path]) := by
  rw [diskAfter, diskAfter, Disk.mapFiles_mapFiles]
  congr 1
  funext place' bytes
  rw [Disk.visits_append, Disk.visits_singleton disk path place place' h, RewriteOptions.effectAt]
  by_cases hPlace : place' = place
  · rw [if_pos hPlace, if_pos hPlace, bytesAfter, bytesAfter, Function.iterate_succ_apply']
  · rw [if_neg hPlace, if_neg hPlace, Nat.add_zero]

theorem exists_of_visit_eq_ok (progress next : Progress) (path : String)
    (h : run.visit progress path = .ok next) :
    ∃ place bytes, progress.disk.stat path = .ok (.file place bytes) ∧
      next.disk = progress.disk.mapFiles (run.options.effectAt run.table.rules place) ∧
      next.report = progress.report ++
        (if (run.options.apply run.table.rules bytes).changed then [run.reportLine path] else []) ∧
      next.updated = progress.updated +
        if (run.options.apply run.table.rules bytes).changed then 1 else 0 := by
  unfold Run.visit at h
  cases hOutcome : progress.disk.rewriteFile run.table.rules run.options path with
  | error error => rw [hOutcome] at h; cases h
  | ok outcome =>
    obtain ⟨place, bytes, hStat⟩ := Disk.exists_of_rewriteFile_eq_ok _ _ _ _ outcome hOutcome
    rw [Disk.rewriteFile_of_stat_eq_file _ _ _ _ place bytes hStat] at h
    cases h
    exact ⟨place, bytes, hStat, rfl, rfl, rfl⟩

/-- What has been done on a disk when these paths have been visited. -/
structure Visited (visited : List String) (progress : Progress) : Prop where
  disk_eq : progress.disk = run.diskAfter disk visited
  report_eq : progress.report = (run.changing disk [] visited).map run.reportLine
  updated_eq : progress.updated = (run.changing disk [] visited).length

variable {run disk}

theorem Visited.visit {visited : List String} {progress next : Progress} {path : String}
    (h : run.Visited disk visited progress) (hVisit : run.visit progress path = .ok next) :
    run.Visited disk (visited ++ [path]) next := by
  obtain ⟨place, bytes', hStat', hDisk, hReport, hUpdated⟩ :=
    run.exists_of_visit_eq_ok progress next path hVisit
  -- the path leads where it led at the start, to bytes that earlier visits may have changed
  rw [h.disk_eq] at hStat'
  obtain ⟨bytes, hStat, rfl⟩ := disk.stat_eq_file_of_mapFiles _ path place bytes' hStat'
  have hPlace : disk.fileAt? path = some place := by rw [Disk.fileAt?, hStat]
  have hFinds : (run.options.apply run.table.rules
      (run.bytesAfter (disk.visits visited place) bytes)).changed =
        run.findsChange disk visited path := by
    rw [findsChange, hStat]
  have hChanging : run.changing disk [] (visited ++ [path]) = run.changing disk [] visited ++
      if run.findsChange disk visited path then [path] else [] := by
    rw [changing_append, changing, changing, List.append_nil, List.nil_append]
  rw [hFinds] at hReport hUpdated
  constructor
  · rw [hDisk, h.disk_eq]
    exact run.diskAfter_append disk visited path place hPlace
  · rw [hReport, h.report_eq, hChanging, List.map_append]
    cases run.findsChange disk visited path <;> rfl
  · rw [hUpdated, h.updated_eq, hChanging, List.length_append]
    cases run.findsChange disk visited path <;> rfl

theorem Visited.visitAll {visited paths : List String} {progress final : Progress}
    (h : run.Visited disk visited progress) (hAll : run.visitAll progress paths = (final, none)) :
    run.Visited disk (visited ++ paths) final := by
  induction paths generalizing visited progress with
  | nil =>
    cases hAll
    rwa [List.append_nil]
  | cons path rest ih =>
    rw [Run.visitAll] at hAll
    cases hVisit : run.visit progress path with
    | error error => rw [hVisit] at hAll; cases hAll
    | ok next =>
      rw [hVisit] at hAll
      rw [List.append_cons]
      exact ih (h.visit hVisit) hAll

variable (run disk)

theorem visited_start (found : Discovered) : run.Visited found.disk [] (run.start found) :=
  ⟨(run.diskAfter_nil found.disk).symm, rfl, rfl⟩

/-- The visits of a run start from the disk that the search has left. -/
theorem visited_execute (summary : Summary) (h : (run.execute disk).result = .ok summary) :
    ∃ files, (run.search.run disk).result = .ok files ∧
      run.Visited (run.search.run disk).disk files (run.execute disk).progress ∧
      summary.scanned = files.length ∧
      summary.updated = (run.execute disk).progress.report.length := by
  cases hFound : (run.search.run disk).result with
  | error error => simp [execute, hFound] at h
  | ok files =>
    rcases hAll : run.visitAll (run.start (run.search.run disk)) files with ⟨final, _ | error⟩
    · have hFinal := (run.visited_start _).visitAll hAll
      rw [List.nil_append] at hFinal
      have hExecute : run.execute disk =
          ⟨{ final with events := final.events ++ [run.completeEvent ⟨files.length, final.updated⟩] },
            .ok ⟨files.length, final.updated⟩⟩ := by
        simp only [execute, hFound, hAll]
      rw [hExecute] at h ⊢
      cases h
      refine ⟨files, rfl, ⟨hFinal.disk_eq, hFinal.report_eq, hFinal.updated_eq⟩, rfl, ?_⟩
      rw [hFinal.updated_eq, hFinal.report_eq, List.length_map]
    · simp only [execute, hFound, hAll] at h
      cases h

/-- How a run that is not dry leaves the disk, these being the files it has found. -/
structure Effect (files : List String) (final : Progress) : Prop where
  places : final.disk.entries.map (·.1) = disk.entries.map (·.1)
  no_file : ∀ place, (∀ bytes, disk.get? place ≠ some (.file bytes)) →
    final.disk.get? place = disk.get? place
  unlisted : ∀ place, (∀ path ∈ files, disk.fileAt? path ≠ some place) →
    final.disk.get? place = disk.get? place
  listed : ∀ place bytes, disk.get? place = some (.file bytes) →
    final.disk.get? place = some (.file
      ((run.options.step run.table.rules)^[disk.visits files place] bytes))
  report : final.report = (run.changing disk [] files).map fun path =>
    s!"Updating {run.table.description} in {path}"

theorem effect_of_visited (hDry : run.options.dry = false) (files : List String)
    (final : Progress) (h : run.Visited disk files final) : run.Effect disk files final := by
  have hGet : ∀ place, final.disk.get? place =
      (disk.get? place).map (Entry.mapBytes (run.bytesAfter (disk.visits files place))) := by
    intro place
    rw [h.disk_eq, diskAfter, Disk.get?_mapFiles]
  have hSame : ∀ place, (∀ bytes, disk.get? place = some (.file bytes) →
      run.bytesAfter (disk.visits files place) bytes = bytes) →
        final.disk.get? place = disk.get? place := by
    intro place hBytes
    rw [hGet]
    rcases hEntry : disk.get? place with _ | ⟨bytes | _ | target⟩
    · rfl
    · rw [Option.map_some, Entry.mapBytes, hBytes bytes hEntry]
    · rfl
    · rfl
  constructor
  · rw [h.disk_eq, diskAfter, Disk.places_mapFiles]
  · intro place hNone
    exact hSame place fun bytes hFile => absurd hFile (hNone bytes)
  · intro place hNone
    apply hSame
    intro bytes _
    rw [(disk.visits_eq_zero_iff files place).mpr hNone, bytesAfter, Function.iterate_zero_apply]
  · intro place bytes hFile
    rw [hGet, hFile, bytesAfter, run.options.effect_of_not_dry run.table.rules hDry]
    rfl
  · rw [h.report_eq]
    apply List.map_congr_left
    intro path _
    rw [reportLine, hDry, if_neg Bool.false_ne_true, String.append_empty]

/-- Where all roots are read as paths, from the working directory, a run that succeeds rewrites each
file as often as the paths that discovery lists lead to it, and leaves all else as it was; it reports
the visits that find a change, and counts them. -/
theorem execute_effect (summary : Summary) (hDry : run.options.dry = false)
    (hRoots : run.search.ReadsRoots) (h : (run.execute disk).result = .ok summary) :
    ∃ files, (run.search.run disk).result = .ok files ∧
      run.Effect disk files (run.execute disk).progress ∧
      summary.scanned = files.length ∧
      summary.updated = (run.execute disk).progress.report.length := by
  obtain ⟨files, hFound, hVisited, hScanned, hUpdated⟩ := run.visited_execute disk summary h
  rw [Search.disk_run disk hRoots] at hVisited
  exact ⟨files, hFound, run.effect_of_visited disk hDry files _ hVisited, hScanned, hUpdated⟩

end Run

theorem Disk.nodesBelow_of_singleton {disk : Disk} {root : String} {place : Place} {name : String}
    {bytes : List UInt8} (hRoot : disk.stat root = .ok (.directory place))
    (hChildren : disk.children place = [(name, .file bytes)]) :
    disk.nodesBelow root = [⟨Path.join root name, name, true⟩] := by
  obtain ⟨fuel, hFuel⟩ := View.exists_depthLimit_eq_succ disk
  rw [nodesBelow_eq hRoot, View.ofRoot, hFuel, View.ofEntry, hChildren]
  simp only [List.map_singleton, View.ofEntry_file, View.children]
  rfl

theorem Search.result_run_of_singletons (disk : Disk) (search : Search) (name : String)
    (hBackend : search.backend = .walk) (hOptions : search.options = ⟨false, true, false, []⟩)
    (hRoots : search.roots ≠ [])
    (hChildren : ∀ root ∈ search.roots, Walk.isDash root = false ∧ ∃ place bytes,
      disk.stat root = .ok (.directory place) ∧ disk.children place = [(name, .file bytes)])
    (hName : (Glob.compile search.pattern).toOption.any (·.accepts name.toList) = true) :
    (search.run disk).result = .ok (search.roots.map fun root => Path.join root name) := by
  cases hCompile : Glob.compile search.pattern with
  | error fault => rw [hCompile] at hName; cases hName
  | ok expr =>
    have hAccepts : expr.accepts name.toList = true := by rwa [hCompile] at hName
    have hListed : ∀ root ∈ search.roots,
        Walk.listedBelow disk (fun name => expr.accepts name.toList) root =
          [Path.join root name] := by
      intro root hRoot
      obtain ⟨_, place, bytes, hStat, hEntry⟩ := hChildren root hRoot
      rw [Walk.listedBelow, Disk.nodesBelow_of_singleton hStat hEntry]
      simp [hAccepts]
    rw [search.result_run_of_walk disk hBackend hOptions hRoots _ hCompile,
      List.flatMap_congr hListed, ← List.map_eq_flatMap]
    intro root hRoot
    obtain ⟨hDash, place, _, hStat, _⟩ := hChildren root hRoot
    exact ⟨hDash, place, hStat⟩

namespace Run

def oneFile : Disk where
  entries :=
    [(["src"], .directory), (["src", "a.c"], .file "#include \"limits.h\"\n".toUTF8.toList)]
  nodup := by decide
  valid := by decide

def twice : Run where
  table := Table.limits
  search :=
    { roots := ["src", "src"], pattern := "*.c", backend := .walk
      options := ⟨false, true, false, []⟩, command := none }
  options := ⟨.utf8, .ignore, false⟩

theorem search_of_oneFile (search : Search) (hBackend : search.backend = .walk)
    (hOptions : search.options = ⟨false, true, false, []⟩) (hPattern : search.pattern = "*.c")
    (hNe : search.roots ≠ []) (hRoots : ∀ root ∈ search.roots, root = "src") :
    (search.run oneFile).result = .ok (search.roots.map fun root => Path.join root "a.c") := by
  have hStat : oneFile.stat "src" = .ok (.directory ["src"]) := by decide +kernel
  have hChildren : oneFile.children ["src"] =
      [("a.c", .file "#include \"limits.h\"\n".toUTF8.toList)] :=
    List.mergeSort_singleton _
  refine Search.result_run_of_singletons oneFile search "a.c" hBackend hOptions hNe ?_ ?_
  · intro root hRoot
    rw [hRoots root hRoot]
    exact ⟨by decide, _, _, hStat, hChildren⟩
  · rw [hPattern]
    decide +kernel

theorem search_twice : (twice.search.run oneFile).result = .ok ["src/a.c", "src/a.c"] :=
  search_of_oneFile twice.search rfl rfl rfl (by decide) (by decide)

theorem result_twice : (twice.execute oneFile).result = .ok ⟨2, 1⟩ := by
  simp only [execute, search_twice]
  decide +kernel

theorem execute_effect_twice :
    twice.options.dry = false ∧ twice.search.ReadsRoots ∧
      (twice.execute oneFile).result = .ok ⟨2, 1⟩ ∧
      ∃ files, (twice.search.run oneFile).result = .ok files ∧
        twice.Effect oneFile files (twice.execute oneFile).progress ∧
        2 = files.length ∧ 1 = (twice.execute oneFile).progress.report.length :=
  have hRoots : twice.search.ReadsRoots := by decide
  ⟨rfl, hRoots, result_twice, execute_effect twice oneFile ⟨2, 1⟩ rfl hRoots result_twice⟩

def listing (roots : List String) : Run where
  table := Table.limits
  search := Search.ofBackend roots "*.c" Search.strictFinder .find
  options := ⟨.utf8, .ignore, false⟩

/-- A directory that is named like an action stands beside one with a source. -/
def actionFolder : Disk where
  entries :=
    [(["-delete"], .directory), (["src"], .directory), (["src", "sub"], .directory),
      (["src", "sub", "a.c"], .file "#include \"limits.h\"\n".toUTF8.toList)]
  nodup := by decide
  valid := by decide

/-- The name is read as the action, to which the other root falls; the run succeeds. -/
theorem not_effect_actionFolder :
    (listing ["src", "-delete"]).options.dry = false ∧
      ((listing ["src", "-delete"]).execute actionFolder).result = .ok ⟨0, 0⟩ ∧
      actionFolder.get? ["src"] = some .directory ∧
      ((listing ["src", "-delete"]).execute actionFolder).progress.disk.get? ["src"] = none ∧
      ∀ files, ¬(listing ["src", "-delete"]).Effect actionFolder files
        ((listing ["src", "-delete"]).execute actionFolder).progress := by
  have hSource : actionFolder.get? ["src"] = some .directory := by decide
  have hGone : ((listing ["src", "-delete"]).execute actionFolder).progress.disk.get? ["src"] =
      none := by
    decide +kernel
  refine ⟨rfl, by decide +kernel, hSource, hGone, fun files hEffect => ?_⟩
  have hKept := hEffect.no_file ["src"] (by simp [hSource])
  rw [hGone, hSource] at hKept
  cases hKept

end Run

end HeaderRename
