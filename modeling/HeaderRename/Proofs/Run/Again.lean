import HeaderRename.Proofs.Directive.Idempotence
import HeaderRename.Proofs.Run.Success
import HeaderRename.Proofs.Run.Written

/-!
# Running a table again

The bytes that a rewrite writes are decoded to the text that was encoded. So a table that leaves its
own results as they are finds nothing to change in a file that it has visited, however often and on
whatever paths, and a run right after another finds the same files and changes none.
-/
set_option autoImplicit false

namespace HeaderRename

namespace RewriteOptions

variable (options : RewriteOptions) (table : Table)

theorem decode_encode_apply (bytes : List UInt8) :
    options.encoding.decode options.policy
        (options.encoding.encode (options.apply table.rules bytes).text) =
      (options.apply table.rules bytes).text :=
  options.encoding.decode_encode options.policy _ fun page hPage c hc =>
    options.isSome_byte?_of_mem_apply table bytes page hPage c hc

variable {table}

/-- After a rewrite there is nothing to change. -/
theorem changed_apply_step (hTable : table.IsIdempotent) (bytes : List UInt8) :
    (options.apply table.rules (options.step table.rules bytes)).changed = false := by
  cases hChanged : (options.apply table.rules bytes).changed with
  | false => rw [options.step_of_not_changed table.rules bytes hChanged, hChanged]
  | true =>
    rw [options.step_of_changed table.rules bytes hChanged, apply, decode_encode_apply]
    exact hTable _

end RewriteOptions

namespace Run

variable {run : Run} (disk : Disk)

section Settled

variable (hDry : run.options.dry = false) (hTable : run.table.IsIdempotent)

include hDry hTable

theorem changed_bytesAfter_succ (count : Nat) (bytes : List UInt8) :
    (run.options.apply run.table.rules (run.bytesAfter (count + 1) bytes)).changed = false := by
  rw [bytesAfter, Function.iterate_succ_apply', run.options.effect_of_not_dry run.table.rules hDry]
  exact run.options.changed_apply_step hTable _

theorem bytesAfter_bytesAfter_succ (again count : Nat) (bytes : List UInt8) :
    run.bytesAfter again (run.bytesAfter (count + 1) bytes) = run.bytesAfter (count + 1) bytes :=
  Function.iterate_fixed
    (run.options.effect_of_not_changed (changed_bytesAfter_succ hDry hTable count bytes)) again

/-- Where a path has been visited, visiting it once more finds no change. -/
theorem findsChange_diskAfter {files : List String} (visited : List String) {path : String}
    (hPath : path ∈ files) : run.findsChange (run.diskAfter disk files) visited path = false := by
  rw [findsChange, diskAfter, Disk.stat_mapFiles]
  cases hStat : disk.stat path with
  | error fault => rfl
  | ok found =>
    cases found with
    | file place bytes =>
      have hPlace : disk.fileAt? path = some place := by rw [Disk.fileAt?, hStat]
      obtain ⟨count, hCount⟩ :=
        Nat.exists_eq_succ_of_ne_zero (Nat.ne_of_gt (disk.visits_pos_of_mem hPath hPlace))
      simp only [Except.map, Disk.Found.mapBytes, hCount]
      rw [bytesAfter_bytesAfter_succ hDry hTable, changed_bytesAfter_succ hDry hTable]
    | directory | link | missing => rfl

theorem changing_diskAfter {files paths : List String} (visited : List String)
    (hPaths : ∀ path ∈ paths, path ∈ files) :
    run.changing (run.diskAfter disk files) visited paths = [] := by
  induction paths generalizing visited with
  | nil => rfl
  | cons path rest ih =>
    obtain ⟨hPath, hRest⟩ := List.forall_mem_cons.mp hPaths
    rw [changing, findsChange_diskAfter disk hDry hTable visited hPath,
      if_neg Bool.false_ne_true, List.nil_append, ih _ hRest]

theorem diskAfter_diskAfter (files : List String) :
    run.diskAfter (run.diskAfter disk files) files = run.diskAfter disk files := by
  simp only [diskAfter, Disk.visits_mapFiles, Disk.mapFiles_mapFiles]
  congr 1
  funext place bytes
  cases disk.visits files place with
  | zero => rfl
  | succ count => exact bytesAfter_bytesAfter_succ hDry hTable _ count bytes

end Settled

theorem readable_diskAfter {files : List String} (h : disk.Readable files) :
    (run.diskAfter disk files).Readable files := by
  intro path hPath
  rw [diskAfter, Disk.fileAt?_mapFiles]
  exact h path hPath

variable (run)

/-- Where all roots are read as paths, from the working directory, a run that follows another succeeds
with it, finds as many files, reports nothing and leaves every byte as it is, on whatever paths the
files are listed and whatever bytes they hold. The built-in tables are among those for which this is
so. -/
theorem execute_again (summary : Summary) (hDry : run.options.dry = false)
    (hRoots : run.search.ReadsRoots) (hIgnore : run.search.options.respectGitignore = false)
    (hTable : run.table.IsIdempotent) (h : (run.execute disk).result = .ok summary) :
    (run.execute (run.execute disk).progress.disk).result = .ok ⟨summary.scanned, 0⟩ ∧
    (run.execute (run.execute disk).progress.disk).progress.report = [] ∧
    (run.execute (run.execute disk).progress.disk).progress.disk =
      (run.execute disk).progress.disk ∧
    Table.limits.IsIdempotent ∧ Table.lib.IsIdempotent := by
  obtain ⟨files, hFound, hReadable⟩ := (run.exists_result_execute_iff disk).mp ⟨summary, h⟩
  rw [Search.disk_run disk hRoots] at hReadable
  obtain ⟨hResult, hVisited⟩ := run.execute_of_readable disk hRoots hFound hReadable
  rw [h, Except.ok.injEq] at hResult
  subst hResult
  rw [hVisited.disk_eq]
  -- the second search sees the same tree, with other bytes in its files
  have hFoundAgain : (run.search.run (run.diskAfter disk files)).result = .ok files := by
    rw [diskAfter, Search.result_run_mapFiles disk _ hRoots hIgnore, hFound]
  obtain ⟨hResultAgain, hVisitedAgain⟩ :=
    run.execute_of_readable _ hRoots hFoundAgain (readable_diskAfter disk hReadable)
  have hChanging : run.changing (run.diskAfter disk files) [] files = [] :=
    changing_diskAfter disk hDry hTable [] fun _ hPath => hPath
  rw [hChanging] at hResultAgain
  refine ⟨hResultAgain, ?_, ?_, ?_, ?_⟩
  · rw [hVisitedAgain.report_eq, hChanging, List.map_nil]
  · rw [hVisitedAgain.disk_eq, diskAfter_diskAfter disk hDry hTable]
  · exact (Directive.isIdempotent_iff_settles _).mpr Table.newNamesAreFree_limits.settles
  · exact (Directive.isIdempotent_iff_settles _).mpr Table.newNamesAreFree_lib.settles

/-- The file holds a byte that is invalid in UTF-8. -/
def linked : Disk where
  entries :=
    [(["src"], .directory), (["src", "a.c"], .file (0xFF :: "#include \"limits.h\"".toUTF8.toList)),
      (["alias"], .link "src")]
  nodup := by decide
  valid := by decide

def throughLink : Run where
  table := Table.limits
  search :=
    { roots := ["src", "alias"], pattern := "*.c", backend := .walk
      options := ⟨false, true, false, []⟩, command := none }
  options := ⟨.utf8, .replace, false⟩

theorem search_throughLink :
    (throughLink.search.run linked).result = .ok ["src/a.c", "alias/a.c"] := by
  have hStat : ∀ root ∈ ["src", "alias"], linked.stat root = .ok (.directory ["src"]) := by
    decide +kernel
  have hDash : ∀ root ∈ ["src", "alias"], Walk.isDash root = false := by decide +kernel
  have hChildren : linked.children ["src"] =
      [("a.c", .file (0xFF :: "#include \"limits.h\"".toUTF8.toList))] :=
    List.mergeSort_singleton _
  exact Search.result_run_of_singletons linked throughLink.search "a.c" rfl rfl (by decide)
    (fun root hRoot => ⟨hDash root hRoot, _, _, hStat root hRoot, hChildren⟩) (by decide +kernel)

theorem result_throughLink : (throughLink.execute linked).result = .ok ⟨2, 1⟩ := by
  simp only [execute, search_throughLink]
  decide +kernel

theorem execute_again_throughLink :
    throughLink.table.IsIdempotent ∧ throughLink.search.ReadsRoots ∧
      (throughLink.execute linked).result = .ok ⟨2, 1⟩ ∧
      (throughLink.execute (throughLink.execute linked).progress.disk).result = .ok ⟨2, 0⟩ ∧
      (throughLink.execute (throughLink.execute linked).progress.disk).progress.report = [] := by
  have hTable : throughLink.table.IsIdempotent :=
    (Directive.isIdempotent_iff_settles _).mpr Table.newNamesAreFree_limits.settles
  have hRoots : throughLink.search.ReadsRoots := by decide
  obtain ⟨hResult, hReport, _⟩ :=
    execute_again throughLink linked ⟨2, 1⟩ rfl hRoots rfl hTable result_throughLink
  exact ⟨hTable, hRoots, result_throughLink, hResult, hReport⟩

/-- The first run deletes what the second does not find. -/
theorem execute_again_actionFolder :
    (listing ["src", "-delete"]).table.IsIdempotent ∧
      ((listing ["src", "-delete"]).execute actionFolder).result = .ok ⟨0, 0⟩ ∧
      ((listing ["src", "-delete"]).execute
        ((listing ["src", "-delete"]).execute actionFolder).progress.disk).result =
          .error (.discovery (.rootNotFound "src")) :=
  ⟨(Directive.isIdempotent_iff_settles _).mpr Table.newNamesAreFree_limits.settles,
    by decide +kernel, by decide +kernel⟩

end Run

end HeaderRename
