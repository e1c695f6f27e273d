import HeaderRename.Proofs.Run.Success

/-!
# Dry runs

A dry run visits the files that a real run would visit and changes none, so that every visit finds
what the first would find. It reports all that the real run reports, and more where a file is listed
again that its first visit would have settled.
-/
set_option autoImplicit false

namespace HeaderRename

namespace Run

/-- The run that only reports. -/
def asDry (run : Run) : Run :=
  { run with options := { run.options with dry := true } }

variable (run : Run) (disk : Disk)

theorem search_asDry : run.asDry.search = run.search := rfl

theorem bytesAfter_asDry (count : Nat) (bytes : List UInt8) :
    run.asDry.bytesAfter count bytes = bytes := by
  have hEffect : run.asDry.options.effect run.asDry.table.rules bytes = bytes := rfl
  exact Function.iterate_fixed hEffect count

theorem diskAfter_asDry (visited : List String) : run.asDry.diskAfter disk visited = disk := by
  have hBytes : (fun place => run.asDry.bytesAfter (disk.visits visited place)) =
      fun _ bytes => bytes := by
    funext place bytes
    exact run.bytesAfter_asDry _ bytes
  rw [diskAfter, hBytes, disk.mapFiles_id]

theorem findsChange_eq_of_stat_eq_file {path : String} {place : Place} {bytes : List UInt8}
    (h : disk.stat path = .ok (.file place bytes)) (visited : List String) :
    run.findsChange disk visited path = (run.options.apply run.table.rules
      (run.bytesAfter (disk.visits visited place) bytes)).changed := by
  rw [findsChange, h]

theorem findsChange_asDry (visited : List String) (path : String) :
    run.asDry.findsChange disk visited path = run.findsChange disk [] path := by
  unfold findsChange
  cases disk.stat path with
  | error fault => rfl
  | ok found =>
    cases found with
    | file place bytes => simp only [bytesAfter_asDry]; rfl
    | directory | link | missing => rfl

theorem changing_asDry (visited paths : List String) :
    run.asDry.changing disk visited paths = paths.filter (run.findsChange disk []) := by
  induction paths generalizing visited with
  | nil => rfl
  | cons path rest ih =>
    rw [changing, findsChange_asDry, ih, List.filter_cons]
    cases run.findsChange disk [] path <;> rfl

theorem reportLine_asDry (hDry : run.options.dry = false) (path : String) :
    run.asDry.reportLine path = run.reportLine path ++ " (dry run)" := by
  rw [reportLine, reportLine, hDry, if_neg Bool.false_ne_true, String.append_empty]
  rfl

/-- A file in which the first visit finds nothing to change stays as it is. -/
theorem findsChange_nil_of_findsChange (visited : List String) (path : String)
    (h : run.findsChange disk visited path = true) : run.findsChange disk [] path = true := by
  cases hStat : disk.stat path with
  | error fault => rw [findsChange, hStat] at h; cases h
  | ok found =>
    cases found with
    | file place bytes =>
      rw [run.findsChange_eq_of_stat_eq_file disk hStat] at h ⊢
      change (run.options.apply run.table.rules bytes).changed = true
      by_contra hSettled
      rw [Bool.not_eq_true] at hSettled
      have hEffect := run.options.effect_of_not_changed hSettled
      rw [bytesAfter, Function.iterate_fixed hEffect, hSettled] at h
      cases h
    | directory | link | missing => rw [findsChange, hStat] at h; cases h

theorem changing_sublist_filter (visited paths : List String) :
    (run.changing disk visited paths).Sublist (paths.filter (run.findsChange disk [])) := by
  induction paths generalizing visited with
  | nil => exact List.Sublist.refl _
  | cons path rest ih =>
    rw [changing, List.filter_cons]
    cases hFinds : run.findsChange disk visited path with
    | true =>
      rw [if_pos rfl, run.findsChange_nil_of_findsChange disk visited path hFinds, if_pos rfl]
      exact (ih _).cons_cons path
    | false =>
      rw [if_neg Bool.false_ne_true, List.nil_append]
      split
      · exact (ih _).cons path
      · exact ih _

/-- These visits find a change wherever the first visit of the same file does. -/
def NoVisitSettles (visited paths : List String) : Prop :=
  ∀ before path after, paths = before ++ path :: after →
    run.findsChange disk [] path = true → run.findsChange disk (visited ++ before) path = true

theorem noVisitSettles_cons_iff (visited : List String) (path : String) (rest : List String) :
    run.NoVisitSettles disk visited (path :: rest) ↔
      (run.findsChange disk [] path = true → run.findsChange disk visited path = true) ∧
        run.NoVisitSettles disk (visited ++ [path]) rest := by
  constructor
  · intro h
    constructor
    · intro hFinds
      have hFirst := h [] path rest rfl hFinds
      rwa [List.append_nil] at hFirst
    · rintro before path' after rfl hFinds
      rw [List.append_assoc]
      exact h (path :: before) path' after rfl hFinds
  · rintro ⟨hFirst, hRest⟩ before path' after hSplit hFinds
    cases before with
    | nil =>
      cases hSplit
      rw [List.append_nil]
      exact hFirst hFinds
    | cons path'' before =>
      cases hSplit
      rw [List.append_cons]
      exact hRest before path' after rfl hFinds

theorem changing_eq_filter_iff (visited paths : List String) :
    run.changing disk visited paths = paths.filter (run.findsChange disk []) ↔
      run.NoVisitSettles disk visited paths := by
  induction paths generalizing visited with
  | nil => simp [changing, NoVisitSettles]
  | cons path rest ih =>
    rw [noVisitSettles_cons_iff, ← ih, changing, List.filter_cons]
    have hLength := (run.changing_sublist_filter disk (visited ++ [path]) rest).length_le
    cases hFinds : run.findsChange disk visited path with
    | true =>
      have hFirst := run.findsChange_nil_of_findsChange disk visited path hFinds
      simp [hFirst]
    | false =>
      cases hFirst : run.findsChange disk [] path with
      | true =>
        -- the dry run reports a visit that the real one does not
        simp only [if_false, if_true, List.nil_append, reduceCtorEq,
          true_implies, false_and, iff_false]
        intro hSame
        rw [hSame, List.length_cons] at hLength
        omega
      | false => simp

theorem noVisitSettles_of_visits_le_one (files : List String)
    (h : ∀ place, disk.visits files place ≤ 1) : run.NoVisitSettles disk [] files := by
  rintro before path after rfl hFinds
  cases hStat : disk.stat path with
  | error fault => rw [findsChange, hStat] at hFinds; cases hFinds
  | ok found =>
    cases found with
    | file place bytes =>
      have hPlace : disk.fileAt? path = some place := by rw [Disk.fileAt?, hStat]
      have hOnce := h place
      rw [Disk.visits_append] at hOnce
      have hPos := disk.visits_pos_of_mem (List.mem_cons_self (a := path) (l := after)) hPlace
      have hBefore : disk.visits before place = 0 := by omega
      rw [run.findsChange_eq_of_stat_eq_file disk hStat] at hFinds ⊢
      rwa [List.nil_append, hBefore]
    | directory | link | missing => rw [findsChange, hStat] at hFinds; cases hFinds

/-- Where all roots are read as paths, from the working directory, and a run succeeds, the dry run
succeeds too, scans as many files, leaves the disk as it is and reports at least the same changes. It
reports them alone, and so ends with the same summary, just where no visit settles a file that is
listed again, as where no file is listed twice. -/
theorem execute_asDry (summary : Summary) (hDry : run.options.dry = false)
    (hRoots : run.search.ReadsRoots) (h : (run.execute disk).result = .ok summary) :
    ∃ files, (run.search.run disk).result = .ok files ∧
      (∃ updated, summary.updated ≤ updated ∧
        (run.asDry.execute disk).result = .ok ⟨summary.scanned, updated⟩) ∧
      (run.asDry.execute disk).progress.disk = disk ∧
      ((run.execute disk).progress.report.map (· ++ " (dry run)")).Sublist
        (run.asDry.execute disk).progress.report ∧
      (((run.asDry.execute disk).result = .ok summary ∧
        (run.asDry.execute disk).progress.report =
          (run.execute disk).progress.report.map (· ++ " (dry run)")) ↔
        run.NoVisitSettles disk [] files) ∧
      ((∀ place, disk.visits files place ≤ 1) → run.NoVisitSettles disk [] files) := by
  obtain ⟨files, hFound, hReadable⟩ := (run.exists_result_execute_iff disk).mp ⟨summary, h⟩
  rw [Search.disk_run disk hRoots] at hReadable
  obtain ⟨hResult, hVisited⟩ := run.execute_of_readable disk hRoots hFound hReadable
  obtain ⟨hResultDry, hVisitedDry⟩ := run.asDry.execute_of_readable disk hRoots hFound hReadable
  rw [h, Except.ok.injEq] at hResult
  subst hResult
  rw [changing_asDry] at hResultDry
  have hReport : (run.execute disk).progress.report.map (· ++ " (dry run)") =
      (run.changing disk [] files).map run.asDry.reportLine := by
    rw [hVisited.report_eq, List.map_map]
    exact List.map_congr_left fun path _ => (run.reportLine_asDry hDry path).symm
  have hReportDry : (run.asDry.execute disk).progress.report =
      (files.filter (run.findsChange disk [])).map run.asDry.reportLine := by
    rw [hVisitedDry.report_eq, changing_asDry]
  have hSublist := run.changing_sublist_filter disk [] files
  refine ⟨files, hFound, ⟨_, hSublist.length_le, hResultDry⟩, ?_, ?_, ?_,
    run.noVisitSettles_of_visits_le_one disk files⟩
  · rw [hVisitedDry.disk_eq, diskAfter_asDry]
  · rw [hReport, hReportDry]
    exact hSublist.map _
  · rw [hReport, hReportDry, hResultDry, ← changing_eq_filter_iff]
    constructor
    · rintro ⟨hSummary, _⟩
      injection hSummary with hSummary
      injection hSummary with _ hUpdated
      exact hSublist.eq_of_length hUpdated.symm
    · intro hSame
      rw [hSame]
      exact ⟨rfl, rfl⟩

/-- A root that is read as an action acts in a dry run as well. -/
example : ((listing ["src", "-delete"]).asDry.execute actionFolder).progress.disk.get? ["src"] =
    none := by
  decide +kernel

/-- A file listed twice is rewritten once, and reported twice by the dry run. -/
theorem asDry_twice :
    (twice.execute oneFile).result = .ok ⟨2, 1⟩ ∧
      (twice.execute oneFile).progress.report = ["Updating limits include in src/a.c"] ∧
      (twice.asDry.execute oneFile).result = .ok ⟨2, 2⟩ ∧
      (twice.asDry.execute oneFile).progress.report =
        ["Updating limits include in src/a.c (dry run)",
          "Updating limits include in src/a.c (dry run)"] := by
  simp only [execute, search_asDry, search_twice]
  decide +kernel

def once : Run :=
  { twice with search := { twice.search with roots := ["src"] } }

theorem search_once : (once.search.run oneFile).result = .ok ["src/a.c"] :=
  search_of_oneFile once.search rfl rfl rfl (by decide) (by decide)

theorem result_once : (once.execute oneFile).result = .ok ⟨1, 1⟩ := by
  simp only [execute, search_once]
  decide +kernel

theorem execute_asDry_once :
    once.options.dry = false ∧ once.search.ReadsRoots ∧
      (once.execute oneFile).result = .ok ⟨1, 1⟩ ∧
      (once.asDry.execute oneFile).result = .ok ⟨1, 1⟩ ∧
      (once.asDry.execute oneFile).progress.report =
        (once.execute oneFile).progress.report.map (· ++ " (dry run)") ∧
      (once.asDry.execute oneFile).progress.disk = oneFile := by
  have hRoots : once.search.ReadsRoots := by decide
  obtain ⟨files, hFound, _, hDisk, _, hSame, hOnce⟩ :=
    once.execute_asDry oneFile ⟨1, 1⟩ rfl hRoots result_once
  obtain rfl : ["src/a.c"] = files := by
    rw [search_once, Except.ok.injEq] at hFound
    exact hFound
  obtain ⟨hResult, hReport⟩ := hSame.mpr (hOnce fun place => List.countP_le_length)
  exact ⟨rfl, hRoots, result_once, hResult, hReport, hDisk⟩

end Run

end HeaderRename
