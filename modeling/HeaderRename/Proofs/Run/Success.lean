import HeaderRename.Proofs.Run.Effect

/-!
# When a run succeeds

A run ends at the first listed path that is not a file it can read. As its own visits change the
bytes of files alone, it succeeds just where the search does and every path found leads to a regular
file when the search is over.
-/
set_option autoImplicit false

namespace HeaderRename

namespace Disk

variable (disk : Disk) (f : Place → List UInt8 → List UInt8)

theorem fileAt?_mapFiles (path : String) : (disk.mapFiles f).fileAt? path = disk.fileAt? path := by
  rw [fileAt?, fileAt?, stat_mapFiles]
  rcases disk.stat path with fault | place | place | ⟨place, target⟩ | place <;> rfl

theorem visits_mapFiles (paths : List String) (place : Place) :
    (disk.mapFiles f).visits paths place = disk.visits paths place := by
  simp only [visits, fileAt?_mapFiles]

theorem visits_pos_of_mem {paths : List String} {path : String} {place : Place}
    (hPath : path ∈ paths) (h : disk.fileAt? path = some place) : 0 < disk.visits paths place :=
  List.countP_pos_iff.mpr ⟨path, hPath, beq_iff_eq.mpr h⟩

theorem exists_stat_of_fileAt?_eq_some {path : String} {place : Place}
    (h : disk.fileAt? path = some place) : ∃ bytes, disk.stat path = .ok (.file place bytes) := by
  unfold fileAt? at h
  split at h
  · rename_i place' bytes hStat
    cases h
    exact ⟨bytes, hStat⟩
  · cases h

/-- Every path leads to a regular file. -/
def Readable (paths : List String) : Prop :=
  ∀ path ∈ paths, ∃ place, disk.fileAt? path = some place

end Disk

namespace Run

variable {run : Run} {disk : Disk}

theorem Visited.exists_visit {visited : List String} {progress : Progress} {path : String}
    {place : Place} (h : run.Visited disk visited progress) (hPath : disk.fileAt? path = some place) :
    ∃ next, run.visit progress path = .ok next := by
  rw [← disk.fileAt?_mapFiles fun place => run.bytesAfter (disk.visits visited place)] at hPath
  obtain ⟨bytes, hStat⟩ := Disk.exists_stat_of_fileAt?_eq_some _ hPath
  change (run.diskAfter disk visited).stat path = _ at hStat
  rw [← h.disk_eq] at hStat
  rw [Run.visit, Disk.rewriteFile_of_stat_eq_file _ _ _ _ place bytes hStat]
  exact ⟨_, rfl⟩

theorem Visited.fileAt?_of_visit {visited : List String} {progress next : Progress} {path : String}
    (h : run.Visited disk visited progress) (hVisit : run.visit progress path = .ok next) :
    ∃ place, disk.fileAt? path = some place := by
  obtain ⟨place, bytes', hStat', _⟩ := run.exists_of_visit_eq_ok progress next path hVisit
  rw [h.disk_eq] at hStat'
  obtain ⟨bytes, hStat, _⟩ := disk.stat_eq_file_of_mapFiles _ path place bytes' hStat'
  exact ⟨place, by rw [Disk.fileAt?, hStat]⟩

theorem Visited.exists_visitAll_iff {visited : List String} {progress : Progress}
    (h : run.Visited disk visited progress) (paths : List String) :
    (∃ final, run.visitAll progress paths = (final, none)) ↔ disk.Readable paths := by
  unfold Disk.Readable
  induction paths generalizing visited progress with
  | nil => simp [Run.visitAll]
  | cons path rest ih =>
    rw [List.forall_mem_cons, Run.visitAll]
    constructor
    · rintro ⟨final, hAll⟩
      cases hVisit : run.visit progress path with
      | error error => rw [hVisit] at hAll; cases hAll
      | ok next =>
        rw [hVisit] at hAll
        exact ⟨h.fileAt?_of_visit hVisit, (ih (h.visit hVisit)).mp ⟨final, hAll⟩⟩
    · rintro ⟨⟨place, hPath⟩, hRest⟩
      obtain ⟨next, hVisit⟩ := h.exists_visit hPath
      rw [hVisit]
      exact (ih (h.visit hVisit)).mpr hRest

variable (run disk)

theorem exists_result_execute_iff :
    (∃ summary, (run.execute disk).result = .ok summary) ↔
      ∃ files, (run.search.run disk).result = .ok files ∧
        (run.search.run disk).disk.Readable files := by
  cases hFound : (run.search.run disk).result with
  | error error => simp [execute, hFound]
  | ok files =>
    have hReadable := (run.visited_start (run.search.run disk)).exists_visitAll_iff files
    simp only [Except.ok.injEq, exists_eq_left', ← hReadable, execute, hFound]
    rcases run.visitAll _ files with ⟨final, _ | error⟩ <;> simp

/-- A run that finds these files, all of which can be read, succeeds; its summary counts them and
those visits that find a change. -/
theorem execute_of_readable (hRoots : run.search.ReadsRoots) {files : List String}
    (hFound : (run.search.run disk).result = .ok files) (hFiles : disk.Readable files) :
    (run.execute disk).result = .ok ⟨files.length, (run.changing disk [] files).length⟩ ∧
      run.Visited disk files (run.execute disk).progress := by
  have hDisk := Search.disk_run disk hRoots
  obtain ⟨⟨scanned, updated⟩, hResult⟩ :=
    (run.exists_result_execute_iff disk).mpr ⟨files, hFound, by rwa [hDisk]⟩
  obtain ⟨files', hFound', hVisited, rfl, rfl⟩ := run.visited_execute disk _ hResult
  rw [hFound, Except.ok.injEq] at hFound'
  subst hFound'
  rw [hDisk] at hVisited
  rw [hVisited.report_eq, List.length_map] at hResult
  exact ⟨hResult, hVisited⟩

end Run

end HeaderRename
