import HeaderRename.Proofs.Discovery.Ignored

/-!
# Pruning and filtering

A walk drops hidden entries and folders to be skipped where it meets them, and with a folder all that
is in it. The files that are left are those of a walk that drops nothing whose path would be kept if
it were judged by itself, from the names that stand behind its root.
-/
set_option autoImplicit false

namespace HeaderRename

namespace Path

/-- The names that a path has behind a root. -/
def namesBehind (root path : String) : List String :=
  (names path).drop (names root).length

theorem namesBehind_extend (root : String) (below : List String)
    (h : ∀ name ∈ below, isName name = true) : namesBehind root (extend root below) = below := by
  rw [namesBehind, names_extend root below h, List.drop_left]

end Path

namespace Walk

section Kept

variable (includeHidden : Bool) (skip : List String)

/-- No folder of the way is to be skipped, and none of its names is hidden unless such names are
included. The last name is that of a file. -/
def KeepsWay (names : List String) : Prop :=
  (∀ folder ∈ names.dropLast, folder ∉ skip) ∧
    (includeHidden = false → ∀ name ∈ names, isHidden name = false)

/-- A path is judged by the names behind its root. -/
def Keeps (root path : String) : Prop :=
  KeepsWay includeHidden skip (Path.namesBehind root path)

instance (names : List String) : Decidable (KeepsWay includeHidden skip names) :=
  inferInstanceAs (Decidable (_ ∧ _))

instance (root path : String) : Decidable (Keeps includeHidden skip root path) :=
  inferInstanceAs (Decidable (KeepsWay includeHidden skip _))

theorem keepsWay_singleton_iff (name : String) :
    KeepsWay includeHidden skip [name] ↔ (includeHidden = false → isHidden name = false) := by
  simp [KeepsWay]

theorem keepsWay_cons_cons_iff (folder next : String) (names : List String) :
    KeepsWay includeHidden skip (folder :: next :: names) ↔
      (folder ∉ skip ∧ (includeHidden = false → isHidden folder = false)) ∧
        KeepsWay includeHidden skip (next :: names) := by
  simp only [KeepsWay, List.dropLast_cons_cons, List.forall_mem_cons (a := folder)]
  tauto

end Kept

variable (disk : Disk) {options : WalkOptions}

theorem admits_iff_of_not_ignore (hIgnore : options.respectGitignore = false)
    (levels : List Ignore.Level) (path name : String) (isFolder : Bool) :
    admits options levels path name isFolder = true ↔
      (options.includeHidden = false → isHidden name = false) ∧
        (isFolder = true → name ∉ options.skipDirs) := by
  have hVerdict : verdict? options levels path isFolder = none := by
    rw [verdict?, hIgnore, if_neg Bool.false_ne_true]
  cases hHidden : options.includeHidden <;> cases isFolder <;>
    simp [admits, hVerdict, hHidden]

/-- What decides about an entry does not depend on where it stands. -/
theorem admitsWay_iff_of_not_ignore (hIgnore : options.respectGitignore = false)
    (levels : List Ignore.Level) (path : String) (names : List String) :
    admitsWay disk options levels path names = true ↔
      KeepsWay options.includeHidden options.skipDirs names := by
  induction names generalizing levels path with
  | nil => simp [admitsWay, KeepsWay]
  | cons name names ih =>
    rw [admitsWay, Bool.and_eq_true, admits_iff_of_not_ignore hIgnore, ih]
    cases names with
    | nil =>
      rw [keepsWay_singleton_iff]
      simp [KeepsWay]
    | cons next names =>
      rw [keepsWay_cons_cons_iff]
      simp [and_comm]

theorem namesAdmitted_default (accepts : String → Bool) (root : String) :
    namesAdmitted disk Config.default.walkOptions accepts root = namesBelow disk accepts root :=
  List.filter_eq_self.mpr fun names _ => admitsWay_default disk _ root names

/-- What a walk with the default options lists for a root alone. -/
def found (pattern root : String) : List String :=
  (files disk Config.default.walkOptions pattern [root]).files

theorem found_eq {pattern root : String} {expr : Glob.NameExpr}
    (hRoot : disk.pathExists root = true) (hCompile : Glob.compile pattern = .ok expr) :
    found disk pattern root =
      (namesBelow disk (fun name => expr.accepts name.toList) root).map (Path.extend root) := by
  rw [found, files, hCompile]
  dsimp only
  rw [walkRoots_eq disk rfl, List.takeWhile_cons, hRoot, if_pos rfl, List.takeWhile_nil,
    List.flatMap_singleton, namesAdmitted_default]

theorem map_namesAdmitted_eq_filter (hIgnore : options.respectGitignore = false)
    (accepts : String → Bool) (root : String) :
    (namesAdmitted disk options accepts root).map (Path.extend root) =
      ((namesBelow disk accepts root).map (Path.extend root)).filter
        (Keeps options.includeHidden options.skipDirs root ·) := by
  rw [List.filter_map, namesAdmitted]
  refine congrArg _ (List.filter_congr fun names hMem => ?_)
  rw [Bool.eq_iff_iff, admitsWay_iff_of_not_ignore disk hIgnore, Function.comp_apply,
    decide_eq_true_iff, Keeps, Path.namesBehind_extend root names (isName_of_mem_namesBelow disk hMem)]

/-- Where no links are followed and no ignore files are asked, a walk lists what is left of a walk
with the default options when each path is judged by itself, in the same order, and ends as that
does. The names behind the root decide: all but the last against the folders to be skipped, and all
of them where hidden names are left out. The name of the root does not matter, nor where its path
leads from the working directory. -/
theorem files_eq_filter (pattern : String) (roots skip : List String) (includeHidden : Bool) :
    ∃ error,
      files disk Config.default.walkOptions pattern roots =
        ⟨(roots.takeWhile disk.pathExists).flatMap (found disk pattern), error⟩ ∧
      files disk ⟨false, includeHidden, false, skip⟩ pattern roots =
        ⟨(roots.takeWhile disk.pathExists).flatMap fun root =>
          (found disk pattern root).filter (Keeps includeHidden skip root ·), error⟩ ∧
      ∀ root ∈ roots.takeWhile disk.pathExists, ∀ path ∈ found disk pattern root,
        ∃ names, path = Path.extend root names ∧ (∀ name ∈ names, Path.isName name = true) ∧
          (Keeps includeHidden skip root path ↔
            (∀ folder ∈ names.dropLast, folder ∉ skip) ∧
              (includeHidden = false → ∀ name ∈ names, isHidden name = false)) := by
  cases hCompile : Glob.compile pattern with
  | error fault =>
    have hFiles (options : WalkOptions) (roots : List String) :
        files disk options pattern roots =
          ⟨[], some (.invalidPattern pattern fault.message)⟩ := by
      rw [files, hCompile]
    have hFound (root : String) : found disk pattern root = [] := by
      rw [found, hFiles]
    refine ⟨some (.invalidPattern pattern fault.message), ?_, ?_, ?_⟩
    · rw [hFiles, List.flatMap_congr fun root _ => hFound root]
      simp
    · rw [hFiles]
      simp [hFound]
    · intro root _ path hPath
      rw [hFound] at hPath
      cases hPath
  | ok expr =>
    have hFiles (options : WalkOptions) (hFollow : options.followLinks = false) :
        files disk options pattern roots =
          ⟨(roots.takeWhile disk.pathExists).flatMap fun root =>
            (namesAdmitted disk options (fun name => expr.accepts name.toList) root).map
              (Path.extend root),
            (roots.find? fun root => !disk.pathExists root).map .rootNotFound⟩ := by
      rw [files, hCompile]
      exact walkRoots_eq disk hFollow _ roots
    have hFound : ∀ root ∈ roots.takeWhile disk.pathExists, found disk pattern root =
        (namesBelow disk (fun name => expr.accepts name.toList) root).map (Path.extend root) :=
      fun root hMem => found_eq disk (List.mem_takeWhile_imp hMem) hCompile
    refine ⟨(roots.find? fun root => !disk.pathExists root).map .rootNotFound, ?_, ?_, ?_⟩
    · rw [hFiles _ rfl]
      refine congrArg (Result.mk · _) (List.flatMap_congr fun root hRoot => ?_)
      rw [hFound root hRoot, namesAdmitted_default]
    · rw [hFiles _ rfl]
      refine congrArg (Result.mk · _) (List.flatMap_congr fun root hRoot => ?_)
      rw [hFound root hRoot]
      exact map_namesAdmitted_eq_filter disk rfl _ root
    · intro root hRoot path hPath
      rw [hFound root hRoot] at hPath
      obtain ⟨names, hMem, rfl⟩ := List.mem_map.mp hPath
      have hNames := isName_of_mem_namesBelow disk hMem
      refine ⟨names, rfl, hNames, ?_⟩
      rw [Keeps, Path.namesBehind_extend root names hNames, KeepsWay]

end Walk

end HeaderRename
