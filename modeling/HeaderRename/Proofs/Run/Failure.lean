import HeaderRename.Proofs.Discovery.Backends
import HeaderRename.Proofs.Discovery.Readable
import HeaderRename.Proofs.Run.Success

/-!
# How a run fails

A run that fails has failed in its search, with nothing written yet, or at the first path found that
cannot be read. Then it has done just what a run over the paths before it does. A walk finds regular
files alone, and they stay readable, so that a run by a walk fails in its search or not at all.
-/
set_option autoImplicit false

namespace HeaderRename

namespace Disk

variable (disk : Disk)

theorem read_mapFiles (f : Place → List UInt8 → List UInt8) (path : String) (fault : FileFault) :
    (disk.mapFiles f).read path = .error fault ↔ disk.read path = .error fault := by
  unfold read
  rw [stat_mapFiles]
  rcases disk.stat path with _ | ⟨place, bytes⟩ | place | ⟨place, target⟩ | place
  · exact Iff.rfl
  · exact iff_of_false (by simp [Except.map, Found.mapBytes]) (by simp)
  · exact Iff.rfl
  · exact Iff.rfl
  · exact Iff.rfl

theorem exists_fileAt?_of_isFile {path : String} (h : disk.isFile path = true) :
    ∃ place, disk.fileAt? path = some place := by
  unfold isFile at h
  split at h
  · next place bytes hStat => exact ⟨place, by rw [fileAt?, hStat]⟩
  · cases h

end Disk

namespace Run

variable (run : Run) (disk : Disk)

/-- A file that can be read can be written. -/
theorem visit_eq_error {progress : Progress} {path : String} {error : Error}
    (h : run.visit progress path = .error error) :
    ∃ fault, progress.disk.read path = .error fault ∧ error = .file (.readFailed path fault) := by
  cases hRead : progress.disk.read path with
  | error fault =>
    simp only [visit, Disk.rewriteFile, hRead, Except.error.injEq] at h
    exact ⟨fault, rfl, h.symm⟩
  | ok bytes =>
    obtain ⟨place, hStat⟩ := progress.disk.read_eq_ok_iff.mp hRead
    rw [visit, Disk.rewriteFile_of_stat_eq_file _ _ _ _ place bytes hStat] at h
    cases h

/-- Whether or not they end early, visits change the bytes of files alone. -/
theorem exists_disk_visitAll (progress : Progress) (paths : List String) :
    ∃ f, (run.visitAll progress paths).1.disk = progress.disk.mapFiles f := by
  induction paths generalizing progress with
  | nil => exact ⟨fun _ bytes => bytes, progress.disk.mapFiles_id.symm⟩
  | cons path rest ih =>
    rw [visitAll]
    cases hVisit : run.visit progress path with
    | error error => exact ⟨fun _ bytes => bytes, progress.disk.mapFiles_id.symm⟩
    | ok next =>
      obtain ⟨place, bytes, _, hDisk, _⟩ := run.exists_of_visit_eq_ok progress next path hVisit
      obtain ⟨f, hRest⟩ := ih next
      exact ⟨_, hRest.trans (by rw [hDisk, Disk.mapFiles_mapFiles])⟩

/-- What has been done on a disk when a run stops at a path, these paths having come before it. -/
structure StopsAt (before : List String) (path : String) (error : Error) (final : Progress) :
    Prop where
  readable : disk.Readable before
  unreadable : ∃ fault, disk.read path = .error fault ∧ error = .file (.readFailed path fault)
  /-- The disk and the report are those of a run over the paths before. -/
  as_before : ∃ events done,
    run.visitAll { disk, report := [], written := [], updated := 0, events } before = (done, none) ∧
      final.disk = done.disk ∧ final.report = done.report
  visited : run.Visited disk before final
  unlisted : ∀ place, (∀ path ∈ before, disk.fileAt? path ≠ some place) →
    final.disk.get? place = disk.get? place

variable {run disk}

theorem Visited.get?_of_unlisted {visited : List String} {progress : Progress}
    (h : run.Visited disk visited progress) {place : Place}
    (hPlace : ∀ path ∈ visited, disk.fileAt? path ≠ some place) :
    progress.disk.get? place = disk.get? place := by
  have hId : Entry.mapBytes (run.bytesAfter 0) = id := by
    funext entry
    cases entry <;> rfl
  rw [h.disk_eq, diskAfter, Disk.get?_mapFiles, (disk.visits_eq_zero_iff visited place).mpr hPlace,
    hId, Option.map_id, id]

/-- Visits that end early have gone through the paths before some path that cannot be read. -/
theorem Visited.exists_of_visitAll_error {visited paths : List String}
    {progress final : Progress} {error : Error} (h : run.Visited disk visited progress)
    (hAll : run.visitAll progress paths = (final, some error)) :
    ∃ before path after fault done, paths = before ++ path :: after ∧
      run.visitAll progress before = (done, none) ∧
      disk.read path = .error fault ∧ error = .file (.readFailed path fault) ∧
      final = { done with events := done.events ++ [scanningEvent path] } := by
  induction paths generalizing visited progress with
  | nil => cases hAll
  | cons path rest ih =>
    rw [Run.visitAll] at hAll
    cases hVisit : run.visit progress path with
    | error error' =>
      rw [hVisit] at hAll
      cases hAll
      obtain ⟨fault, hRead, hError⟩ := run.visit_eq_error hVisit
      rw [h.disk_eq, diskAfter, Disk.read_mapFiles] at hRead
      exact ⟨[], path, rest, fault, progress, rfl, rfl, hRead, hError, rfl⟩
    | ok next =>
      rw [hVisit] at hAll
      obtain ⟨before, path', after, fault, done, rfl, hBefore, hRest⟩ := ih (h.visit hVisit) hAll
      refine ⟨path :: before, path', after, fault, done, rfl, ?_, hRest⟩
      rw [Run.visitAll, hVisit]
      exact hBefore

variable (run disk)

theorem execute_of_search_error {error : Error} (h : (run.search.run disk).result = .error error) :
    (run.execute disk).result = .error error ∧
      (run.execute disk).progress.disk = (run.search.run disk).disk ∧
      (run.execute disk).progress.report = [] := by
  simp only [execute, h]
  exact ⟨trivial, rfl, rfl⟩

theorem stopsAt_of_execute_error {files : List String} {error : Error}
    (hFound : (run.search.run disk).result = .ok files)
    (h : (run.execute disk).result = .error error) :
    ∃ before path after, files = before ++ path :: after ∧
      run.StopsAt (run.search.run disk).disk before path error (run.execute disk).progress := by
  have hStart := run.visited_start (run.search.run disk)
  rcases hAll : run.visitAll (run.start (run.search.run disk)) files with ⟨final, _ | error'⟩
  · simp only [execute, hFound, hAll] at h
    cases h
  · obtain ⟨before, path, after, fault, done, hFiles, hBefore, hRead, hError, hFinal⟩ :=
      hStart.exists_of_visitAll_error hAll
    have hExecute : run.execute disk = ⟨final, .error error'⟩ := by
      simp only [execute, hFound, hAll]
    rw [hExecute] at h ⊢
    cases h
    have hDone := hStart.visitAll hBefore
    rw [List.nil_append] at hDone
    have hVisited : run.Visited (run.search.run disk).disk before final := by
      rw [hFinal]
      exact ⟨hDone.disk_eq, hDone.report_eq, hDone.updated_eq⟩
    exact ⟨before, path, after, hFiles,
      { readable := (hStart.exists_visitAll_iff before).mp ⟨done, hBefore⟩
        unreadable := ⟨fault, hRead, hError⟩
        as_before := ⟨_, done, hBefore, by rw [hFinal], by rw [hFinal]⟩
        visited := hVisited
        unlisted := fun place hPlace => hVisited.get?_of_unlisted hPlace }⟩

/-- Roots are checked before anything else is done. -/
theorem exists_search_error_of_root {root : String} (hRoot : root ∈ run.search.roots)
    (hDirectory : disk.isDirectory root = false) :
    ∃ fault, run.search.run disk = ⟨disk, [], .error (.discovery fault)⟩ := by
  obtain ⟨fault, hFault⟩ : ∃ fault, Search.rootFault? disk root = some fault := by
    unfold Search.rootFault?
    rcases hStat : disk.stat root with _ | ⟨place, bytes⟩ | place | ⟨place, target⟩ | place
    · exact ⟨_, rfl⟩
    · exact ⟨_, rfl⟩
    · simp [Disk.isDirectory, hStat] at hDirectory
    · exact ⟨_, rfl⟩
    · exact ⟨_, rfl⟩
  have hNe : run.search.roots.isEmpty = false := by
    simpa using List.ne_nil_of_mem hRoot
  obtain ⟨fault', hFirst⟩ : ∃ fault,
      run.search.roots.findSome? (Search.rootFault? disk) = some fault := by
    rw [← Option.isSome_iff_exists, List.findSome?_isSome_iff]
    exact ⟨root, hRoot, by rw [hFault]; rfl⟩
  exact ⟨fault', by simp only [Search.run, hNe, hFirst, if_neg Bool.false_ne_true]⟩

/-- Where all roots are read as paths, a run that fails in its search leaves the disk as it is and
reports nothing, and a run that fails otherwise stops at the first path found that cannot be read,
having done what a run over the paths before it does. One root that is no directory from the working
directory, wherever it stands and however the others are read, is enough for nothing to be done. -/
theorem execute_error :
    (run.search.ReadsRoots → ∀ error, (run.execute disk).result = .error error →
      ((run.search.run disk).result = .error error ∧
        (run.execute disk).progress.disk = disk ∧ (run.execute disk).progress.report = []) ∨
      ∃ before path after, (run.search.run disk).result = .ok (before ++ path :: after) ∧
        run.StopsAt disk before path error (run.execute disk).progress) ∧
    ∀ root ∈ run.search.roots, disk.isDirectory root = false →
      (∃ fault, (run.execute disk).result = .error (.discovery fault)) ∧
        (run.execute disk).progress.disk = disk ∧ (run.execute disk).progress.report = [] := by
  refine ⟨fun hRoots error h => ?_, fun root hRoot hDirectory => ?_⟩
  · have hLeaves := Search.disk_run disk hRoots
    cases hFound : (run.search.run disk).result with
    | error error' =>
      obtain ⟨hResult, hDisk, hReport⟩ := run.execute_of_search_error disk hFound
      rw [hResult, Except.error.injEq] at h
      exact .inl ⟨by rw [h], hDisk.trans hLeaves, hReport⟩
    | ok files =>
      obtain ⟨before, path, after, rfl, hStops⟩ := run.stopsAt_of_execute_error disk hFound h
      rw [hLeaves] at hStops
      exact .inr ⟨before, path, after, rfl, hStops⟩
  · obtain ⟨fault, hSearch⟩ := run.exists_search_error_of_root disk hRoot hDirectory
    have hFound : (run.search.run disk).result = .error (.discovery fault) := by rw [hSearch]
    obtain ⟨hResult, hDisk, hReport⟩ := run.execute_of_search_error disk hFound
    rw [hSearch] at hDisk
    exact ⟨⟨fault, hResult⟩, hDisk, hReport⟩

/-- Two directories, one of which has the name of a source. -/
def oldFolder : Disk where
  entries :=
    [(["src"], .directory), (["src", "a.c"], .file "#include \"limits.h\"\n".toUTF8.toList),
      (["old.c"], .directory)]
  nodup := by decide
  valid := by decide

/-- The listing command finds directories as well. -/
theorem search_listing :
    ((listing ["src", "old.c"]).search.run oldFolder).result = .ok ["src/a.c", "old.c"] := by
  obtain ⟨expr, hCompile⟩ := Search.exists_compile_sources
  have hSrc : oldFolder.lstat "src" = .ok (.directory ["src"]) := by decide +kernel
  have hOld : oldFolder.lstat "old.c" = .ok (.directory ["old.c"]) := by decide +kernel
  have hBelowSrc : oldFolder.nodesBelow "src" = [⟨"src/a.c", "a.c", true⟩] :=
    Disk.nodesBelow_of_singleton (oldFolder.stat_eq_directory_of_lstat hSrc)
      (List.mergeSort_singleton _)
  have hBelowOld : oldFolder.nodesBelow "old.c" = [] := by
    have hChildren : oldFolder.children ["old.c"] = [] := List.mergeSort_nil
    obtain ⟨fuel, hFuel⟩ := View.exists_depthLimit_eq_succ oldFolder
    rw [Disk.nodesBelow_eq (oldFolder.stat_eq_directory_of_lstat hOld), View.ofRoot, hFuel,
      View.ofEntry, hChildren]
    rfl
  have hAccepts : expr.accepts "a.c".toList = Listing.accepts "*.c" "a.c" := by
    rw [Search.accepts_of_compile_sources hCompile "a.c" (by decide)]
    decide +kernel
  have hAlike : Search.Alike oldFolder ["src", "old.c"] "*.c" expr :=
    { roots_ne_nil := by decide
      compile_eq := hCompile
      plain := by decide
      entered := by simp [hSrc, hOld]
      isLine_root := by decide
      isLine_below := by simp [hBelowSrc, hBelowOld, show Listing.IsLine "src/a.c" by decide]
      accepts_eq := by simpa [hBelowSrc, hBelowOld] using hAccepts }
  have hPrinted : ["src", "old.c"].flatMap (Listing.printedBelow oldFolder "*.c") =
      ["src/a.c", "old.c"] := by
    simp only [List.flatMap_cons, List.flatMap_nil, Listing.printedBelow, hBelowSrc, hBelowOld]
    decide +kernel
  rw [listing, hAlike.result_run_find, hPrinted]

theorem result_listing : ((listing ["src", "old.c"]).execute oldFolder).result =
    .error (.file (.readFailed "old.c" .isADirectory)) := by
  simp only [execute, search_listing]
  decide +kernel

theorem execute_error_oldFolder :
    ((listing ["src", "old.c"]).execute oldFolder).result =
        .error (.file (.readFailed "old.c" .isADirectory)) ∧
      (listing ["src", "old.c"]).StopsAt oldFolder ["src/a.c"] "old.c"
        (.file (.readFailed "old.c" .isADirectory))
        ((listing ["src", "old.c"]).execute oldFolder).progress ∧
      (listing ["src", "old.c"]).search.ReadsRoots ∧
      "none" ∈ (listing ["src", "none"]).search.roots ∧ oldFolder.isDirectory "none" = false ∧
      ((listing ["src", "none"]).execute oldFolder).progress.disk = oldFolder ∧
      ((listing ["src", "none"]).execute oldFolder).progress.report = [] := by
  have hMem : "none" ∈ (listing ["src", "none"]).search.roots := by simp [listing, Search.ofBackend]
  have hNone : oldFolder.isDirectory "none" = false := by decide +kernel
  obtain ⟨_, hLeft⟩ := ((listing ["src", "none"]).execute_error oldFolder).2 "none" hMem hNone
  have hRoots : (listing ["src", "old.c"]).search.ReadsRoots := by decide
  refine ⟨result_listing, ?_, hRoots, hMem, hNone, hLeft⟩
  rcases ((listing ["src", "old.c"]).execute_error oldFolder).1 hRoots _ result_listing with
    ⟨hFound, _⟩ | ⟨before, path, after, hFound, hStops⟩
  · rw [search_listing] at hFound
    cases hFound
  · rw [search_listing, Except.ok.injEq] at hFound
    -- the directory is the path that cannot be read
    obtain ⟨fault, _, hError⟩ := hStops.unreadable
    injection hError with hError
    injection hError with hPath
    subst hPath
    have hBefore : before = ["src/a.c"] := by
      rcases before with _ | ⟨first, _ | ⟨second, rest⟩⟩ <;> simp_all
    rwa [hBefore] at hStops

/-- The command deletes one root before it misses the next, and fails. -/
theorem execute_error_actionFolder :
    ∃ error,
      ((listing ["src", "src/sub", "-delete"]).search.run actionFolder).result = .error error ∧
      ((listing ["src", "src/sub", "-delete"]).execute actionFolder).result = .error error ∧
      actionFolder.get? ["src"] = some .directory ∧
      ((listing ["src", "src/sub", "-delete"]).execute actionFolder).progress.disk.get? ["src"] =
        none :=
  ⟨.process (.nonZeroExit "\"find\" \"src\" \"src/sub\" \"-delete\" \"-name\" \"*.c\"" 1 ""),
    by decide +kernel⟩

theorem readable_of_search_walk (hBackend : run.search.backend = .walk) {files : List String}
    (h : (run.search.run disk).result = .ok files) : disk.Readable files := by
  intro path hPath
  rw [Search.files_eq_of_run_walk disk hBackend h] at hPath
  exact disk.exists_fileAt?_of_isFile (Walk.isFile_of_mem_files disk _ hPath)

/-- With a walk from roots below the working directory, all that is found is a regular file and stays
one whatever files the run visits. So no file is found that cannot be read, and a run that fails
leaves the disk as it is and reports nothing, whatever the options of the walk. -/
theorem execute_walk (hBackend : run.search.backend = .walk) :
    (∀ path ∈ (Walk.files disk run.search.options run.search.pattern run.search.roots).files,
      disk.isFile path = true ∧ ∀ (progress : Progress) (paths : List String),
        progress.disk = disk → (run.visitAll progress paths).1.disk.isFile path = true) ∧
    (∀ path fault, (run.execute disk).result ≠ .error (.file (.readFailed path fault))) ∧
    ∀ error, (run.execute disk).result = .error error →
      (run.search.run disk).result = .error error ∧
        (run.execute disk).progress.disk = disk ∧ (run.execute disk).progress.report = [] := by
  have hRoots := Search.readsRoots_of_walk hBackend
  have hSearch : ∀ error, (run.execute disk).result = .error error →
      (run.search.run disk).result = .error error := by
    intro error h
    cases hFound : (run.search.run disk).result with
    | error error' =>
      rw [(run.execute_of_search_error disk hFound).1, Except.error.injEq] at h
      rw [h]
    | ok files =>
      have hReadable := run.readable_of_search_walk disk hBackend hFound
      rw [(run.execute_of_readable disk hRoots hFound hReadable).1] at h
      cases h
  refine ⟨fun path hPath => ?_, fun path fault h => ?_, fun error h => ?_⟩
  · have hFile := Walk.isFile_of_mem_files disk _ hPath
    refine ⟨hFile, ?_⟩
    rintro progress paths rfl
    obtain ⟨f, hDisk⟩ := run.exists_disk_visitAll progress paths
    rw [hDisk, Disk.isFile_mapFiles, hFile]
  · obtain ⟨fault', hError⟩ := Search.exists_fault_of_run_walk disk hBackend (hSearch _ h)
    cases hError
  · have hFound := hSearch error h
    obtain ⟨_, hDisk, hReport⟩ := run.execute_of_search_error disk hFound
    exact ⟨hFound, hDisk.trans (Search.disk_run disk hRoots), hReport⟩

def danglingLink : Disk where
  entries :=
    [(["src"], .directory), (["src", "a.c"], .file "#include \"limits.h\"\n".toUTF8.toList),
      (["links"], .directory), (["links", "b.c"], .link "none")]
  nodup := by decide
  valid := by decide

def following : Run where
  table := Table.limits
  search :=
    { roots := ["src", "links"], pattern := "*.c", backend := .walk
      options := ⟨true, true, false, []⟩, command := none }
  options := ⟨.utf8, .ignore, false⟩

theorem files_following :
    Walk.files danglingLink following.search.options "*.c" ["src", "links"] = ⟨["src/a.c"],
      some (.walk "links" (BrokenLink.message "links/b.c" (.unreadable .notFound)))⟩ := by
  have hSrc : danglingLink.stat "src" = .ok (.directory ["src"]) := by decide +kernel
  have hLinks : danglingLink.stat "links" = .ok (.directory ["links"]) := by decide +kernel
  have hBelowSrc : danglingLink.children ["src"] =
      [("a.c", .file "#include \"limits.h\"\n".toUTF8.toList)] := List.mergeSort_singleton _
  have hBelowLinks : danglingLink.children ["links"] = [("b.c", .link "none")] :=
    List.mergeSort_singleton _
  have hLimit : View.depthLimit danglingLink = 70 + 1 + 1 := rfl
  have hSrcVisits : Walk.rootVisits danglingLink following.search.options "src" =
      [.file "src/a.c" "a.c"] := by
    simp only [Walk.rootVisits, hSrc, View.ofRoot, hLimit, View.ofEntry, hBelowSrc, List.map_cons,
      List.map_nil]
    decide +kernel
  have hLinksVisits : Walk.rootVisits danglingLink following.search.options "links" =
      [.broken "links/b.c" (.unreadable .notFound)] := by
    simp only [Walk.rootVisits, hLinks, View.ofRoot, hLimit, View.ofEntry, hBelowLinks,
      List.map_cons, List.map_nil]
    decide +kernel
  obtain ⟨expr, hCompile⟩ := Search.exists_compile_sources
  have hAccepts := Search.accepts_of_compile_sources hCompile "a.c" (by decide)
  simp only [Walk.files, hCompile, Walk.walkRoots, danglingLink.pathExists_of_stat hSrc,
    danglingLink.pathExists_of_stat hLinks, hSrcVisits, hLinksVisits, Walk.untilBroken, hAccepts,
    if_pos, List.singleton_append]

theorem result_following : (following.execute danglingLink).result = .error (.discovery
    (.walk "links" (BrokenLink.message "links/b.c" (.unreadable .notFound)))) := by
  have hSearch : (following.search.run danglingLink).result = .error (.discovery
      (.walk "links" (BrokenLink.message "links/b.c" (.unreadable .notFound)))) := by
    have hFault : following.search.roots.findSome? (Search.rootFault? danglingLink) = none := by
      decide +kernel
    have hNe : following.search.roots.isEmpty = false := rfl
    have hBackend : following.search.backend = .walk := rfl
    have hFiles : Walk.files danglingLink following.search.options following.search.pattern
        following.search.roots = _ := files_following
    simp only [Search.run, hNe, if_neg Bool.false_ne_true, hFault, hBackend, Search.walk, hFiles]
  exact (following.execute_of_search_error danglingLink hSearch).1

theorem execute_walk_danglingLink :
    following.search.backend = .walk ∧
      (∀ (progress : Progress) (paths : List String), progress.disk = danglingLink →
        (following.visitAll progress paths).1.disk.isFile "src/a.c" = true) ∧
      (following.execute danglingLink).result = .error (.discovery
        (.walk "links" (BrokenLink.message "links/b.c" (.unreadable .notFound)))) ∧
      (following.execute danglingLink).progress.disk = danglingLink ∧
      (following.execute danglingLink).progress.report = [] := by
  obtain ⟨hFiles, _, hError⟩ := following.execute_walk danglingLink rfl
  have hListed : "src/a.c" ∈ (Walk.files danglingLink following.search.options
      following.search.pattern following.search.roots).files := by
    rw [show Walk.files danglingLink following.search.options following.search.pattern
      following.search.roots = _ from files_following]
    exact List.mem_singleton_self _
  exact ⟨rfl, (hFiles "src/a.c" hListed).2, result_following, (hError _ result_following).2⟩

end Run

end HeaderRename
