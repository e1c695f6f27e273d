import HeaderRename.Proofs.Discovery.Filtered
import HeaderRename.Proofs.Discovery.Here
import Mathlib.Data.List.Infix

/-!
# What ignore files leave out

A walk that asks the ignore files leaves out what the levels from its root down ignore, and all that
is in it. The levels above the root are not asked: where one at or below the root decides, they
would not be heard, and where no repository is at or below the root, nothing is ignored at all.
-/
set_option autoImplicit false

namespace HeaderRename

theorem findSome?_congr {α β : Type} {list : List α} {f g : α → Option β}
    (h : ∀ a ∈ list, f a = g a) : list.findSome? f = list.findSome? g := by
  induction list with
  | nil => rfl
  | cons a list ih =>
    obtain ⟨hFirst, hRest⟩ := List.forall_mem_cons.mp h
    rw [List.findSome?_cons, List.findSome?_cons, hFirst, ih hRest]

namespace Ignore.Level

theorem upToRepository_append (inner outer : List Level) : upToRepository (inner ++ outer) =
    (upToRepository inner).or ((upToRepository outer).map (inner ++ ·)) := by
  induction inner with
  | nil =>
    rw [List.nil_append, upToRepository, Option.none_or]
    cases upToRepository outer <;> rfl
  | cons level inner ih =>
    rw [List.cons_append, upToRepository, upToRepository, ih]
    split
    · rfl
    · rw [Option.map_or, Option.map_map]
      rfl

/-- The levels above the nearest repository are not heard. -/
theorem verdict?_append_of_isSome {inner : List Level} (outer : List Level)
    (h : (upToRepository inner).isSome = true) (path : String) (isDirectory : Bool) :
    verdict? (inner ++ outer) path isDirectory = verdict? inner path isDirectory := by
  obtain ⟨counting, hCounting⟩ := Option.isSome_iff_exists.mp h
  rw [verdict?, verdict?, upToRepository_append, hCounting]
  rfl

theorem isSome_upToRepository_of_verdict? {levels : List Level} {path : String}
    {isDirectory : Bool} {verdict : Verdict}
    (h : verdict? levels path isDirectory = some verdict) :
    (upToRepository levels).isSome = true := by
  cases hCounting : upToRepository levels with
  | none => rw [verdict?, hCounting] at h; cases h
  | some counting => rfl

theorem exists_of_isSome_upToRepository {levels : List Level}
    (h : (upToRepository levels).isSome = true) :
    ∃ level ∈ levels, level.isRepository = true := by
  induction levels with
  | nil => cases h
  | cons first levels ih =>
    rw [upToRepository] at h
    split at h
    · next hFirst => exact ⟨first, List.mem_cons_self, hFirst⟩
    · rw [Option.isSome_map] at h
      obtain ⟨level, hMem, hRepository⟩ := ih h
      exact ⟨level, List.mem_cons_of_mem first hMem, hRepository⟩

end Ignore.Level

namespace Ignore

/-- A path without `./` in front, which ignore rules take off. -/
def IsBare (path : String) : Prop :=
  dropHere path.toList = path.toList

theorem dropHere_here (path : String) : dropHere ("./" ++ path).toList = path.toList := by
  rw [String.toList_append]
  rfl

theorem isBare_of_names {path name : String} {names : List String}
    (hNames : Path.names path = name :: names) (hName : name ≠ ".") : IsBare path := by
  rw [IsBare, dropHere, stripText]
  split
  · next hPrefix =>
    obtain ⟨rest, hRest⟩ := List.isPrefixOf_iff_prefix.mp hPrefix
    have hSplit : List.splitOn '/' path.toList = ['.'] :: List.splitOn '/' rest := by
      rw [← hRest]
      exact List.splitOn_append_cons_self ['.'] rest
    rw [Path.names, hSplit] at hNames
    exact absurd (List.cons.inj hNames).1.symm hName
  · rfl

def RuleFile.here (file : RuleFile) : RuleFile :=
  { file with root := "./" ++ file.root }

theorem RuleFile.verdict?_here {file : RuleFile} {path : String} (hRoot : IsBare file.root)
    (hPath : IsBare path) (isDirectory : Bool) :
    file.here.verdict? ("./" ++ path) isDirectory = file.verdict? path isDirectory := by
  have hRelative : file.here.relative ("./" ++ path) = file.relative path := by
    rw [relative, relative, here, dropHere_here, dropHere_here, hRoot, hPath]
  rw [verdict?, verdict?, hRelative]
  rfl

namespace Level

def here (level : Level) : Level :=
  { level with own := level.own.here, excluded := level.excluded.here }

def IsBare (level : Level) : Prop :=
  Ignore.IsBare level.own.root ∧ Ignore.IsBare level.excluded.root

theorem upToRepository_map_here (levels : List Level) :
    upToRepository (levels.map here) = (upToRepository levels).map (List.map here) := by
  induction levels with
  | nil => rfl
  | cons level levels ih =>
    rw [List.map_cons, upToRepository, upToRepository, ih, show level.here.isRepository =
      level.isRepository from rfl]
    split
    · rfl
    · rw [Option.map_map, Option.map_map]
      rfl

theorem mem_of_upToRepository {levels counting : List Level}
    (h : upToRepository levels = some counting) : ∀ level ∈ counting, level ∈ levels := by
  induction levels generalizing counting with
  | nil => cases h
  | cons first levels ih =>
    rw [upToRepository] at h
    split at h
    · cases h
      intro level hMem
      exact List.mem_cons.mpr (.inl (List.mem_singleton.mp hMem))
    · obtain ⟨rest, hRest, rfl⟩ := Option.map_eq_some_iff.mp h
      exact fun level hMem => List.mem_cons.mpr ((List.mem_cons.mp hMem).imp_right (ih hRest level))

theorem verdict?_map_here {levels : List Level} {path : String}
    (hLevels : ∀ level ∈ levels, level.IsBare) (hPath : Ignore.IsBare path) (isDirectory : Bool) :
    verdict? (levels.map here) ("./" ++ path) isDirectory = verdict? levels path isDirectory := by
  rw [verdict?, verdict?, upToRepository_map_here]
  cases hCounting : upToRepository levels with
  | none => rfl
  | some counting =>
    have hBare : ∀ level ∈ counting, level.IsBare := fun level hMem =>
      hLevels level (mem_of_upToRepository hCounting level hMem)
    simp only [Option.map_some, List.findSome?_map]
    congr 1
    · exact findSome?_congr fun level hMem =>
        RuleFile.verdict?_here (hBare level hMem).1 hPath isDirectory
    · exact findSome?_congr fun level hMem =>
        RuleFile.verdict?_here (hBare level hMem).2 hPath isDirectory

end Level

variable {disk : Disk} {directory : String} (h : Path.IsRelative directory)

include h

theorem read_join_here (name : String) :
    disk.read (Path.join ("./" ++ directory) name) = disk.read (Path.join directory name) := by
  rw [Path.join_append h.ne_empty, disk.read_here (Path.isRelative_join name h)]

theorem repositoryPath?_here : repositoryPath? disk ("./" ++ directory) =
    if disk.isFile (Path.join directory ".git") then repositoryPath? disk directory
    else some ("./" ++ Path.join directory ".git") := by
  have hGit := Path.isRelative_join ".git" h
  have hLine : firstLine? disk ("./" ++ Path.join directory ".git") =
      firstLine? disk (Path.join directory ".git") := by
    rw [firstLine?, firstLine?, disk.read_here hGit]
  rw [repositoryPath?, repositoryPath?, Path.join_append h.ne_empty, disk.isFile_here hGit, hLine]
  cases disk.isFile (Path.join directory ".git") <;> rfl

/-- A folder has the same rules under its path with `./` in front. -/
theorem Level.ofDirectory_here :
    Level.ofDirectory disk ("./" ++ directory) = (Level.ofDirectory disk directory).here := by
  have hRules (path path' : String) (hRead : disk.read path' = disk.read path) :
      readRules disk ("./" ++ directory) path' = (readRules disk directory path).here := by
    rw [readRules, readRules, hRead]
    cases disk.read path <;> rfl
  have hExists (name : String) : disk.pathExists (Path.join ("./" ++ directory) name) =
      disk.pathExists (Path.join directory name) := by
    rw [Path.join_append h.ne_empty, disk.pathExists_here (Path.isRelative_join name h)]
  have hExcluded : (Level.ofDirectory disk ("./" ++ directory)).excluded =
      (Level.ofDirectory disk directory).excluded.here := by
    simp only [Level.ofDirectory]
    -- a file in place of the repository names another one, whatever the path of the folder
    by_cases hFile : disk.isFile (Path.join directory ".git") = true
    · rw [repositoryPath?_here h, if_pos hFile]
      cases repositoryPath? disk directory with
      | none => rfl
      | some repository => exact hRules _ _ rfl
    · have hGit := Path.isRelative_join ".git" h
      have hInfo := Path.isRelative_join "info" hGit
      have hOwn : repositoryPath? disk directory = some (Path.join directory ".git") := by
        simp [repositoryPath?, hFile]
      rw [repositoryPath?_here h, if_neg hFile, hOwn]
      dsimp only
      rw [Path.join_append hGit.ne_empty, hRules _ _ (read_join_here hInfo "exclude")]
  simp only [Level.here, ← hExcluded]
  simp only [Level.ofDirectory, hExists, hRules _ _ (read_join_here h ".gitignore")]

end Ignore

namespace Walk

/-- The default options, but that the ignore files are asked. -/
def ignoring : WalkOptions :=
  { Config.default.walkOptions with respectGitignore := true }

variable (disk : Disk) (root : String)

/-- The levels of the folders on the way from a root, nearest first. -/
def levelsAlong (folders : List String) : List Ignore.Level :=
  (folders.inits.map fun front => Ignore.Level.ofDirectory disk (Path.extend root front)).reverse

theorem levelsAlong_nil : levelsAlong disk root [] = [Ignore.Level.ofDirectory disk root] := rfl

theorem levelsAlong_append_cons (top : List String) (folder : String) (folders : List String) :
    levelsAlong disk root (top ++ folder :: folders) =
      levelsAlong disk (Path.extend root (top ++ [folder])) folders ++
        levelsAlong disk root top := by
  rw [levelsAlong, List.inits_append, List.inits_cons, List.tail_cons, List.map_append,
    List.reverse_append, List.map_map, List.map_map, levelsAlong, levelsAlong]
  refine congrArg (· ++ _) (congrArg _ (List.map_congr_left fun front _ => ?_))
  have hFront : top ++ folder :: front = top ++ [folder] ++ front := by simp
  rw [Function.comp_apply, Function.comp_apply, hFront, Path.extend_append]

theorem levelsAlong_concat (folders : List String) (folder : String) :
    levelsAlong disk root (folders ++ [folder]) =
      Ignore.Level.ofDirectory disk (Path.extend root (folders ++ [folder])) ::
        levelsAlong disk root folders := by
  rw [levelsAlong_append_cons, levelsAlong_nil, List.singleton_append]

/-- The rules from the root down ignore an entry of a folder. -/
def IsIgnored (folders : List String) (name : String) (isFolder : Bool) : Prop :=
  Ignore.Level.verdict? (levelsAlong disk root folders) (Path.extend root (folders ++ [name]))
    isFolder = some .ignored

instance (folders : List String) (name : String) (isFolder : Bool) :
    Decidable (IsIgnored disk root folders name isFolder) :=
  inferInstanceAs (Decidable (_ = _))

/-- Nothing is ignored on the way down from a folder; whether the last entry is a folder as those
before it is told. -/
def IsSpared (isFolder : Bool) : List String → List String → Prop
  | _, [] => True
  | top, name :: names =>
    ¬IsIgnored disk root top name (isFolder || !names.isEmpty) ∧
      IsSpared isFolder (top ++ [name]) names

instance decidableIsSpared (isFolder : Bool) :
    (top names : List String) → Decidable (IsSpared disk root isFolder top names)
  | _, [] => isTrue trivial
  | top, name :: names =>
    have := decidableIsSpared isFolder (top ++ [name]) names
    inferInstanceAs (Decidable (_ ∧ _))

theorem admits_ignoring (levels : List Ignore.Level) (path name : String) (isFolder : Bool) :
    admits ignoring levels path name isFolder =
      (Ignore.Level.verdict? levels path isFolder != some .ignored) := by
  simp [admits, verdict?, ignoring, Config.walkOptions, Config.default]

theorem admitsWay_ignoring_iff (top names : List String) :
    admitsWay disk ignoring (levelsAlong disk root top) (Path.extend root top) names = true ↔
      IsSpared disk root false top names := by
  induction names generalizing top with
  | nil => exact iff_of_true rfl trivial
  | cons name names ih =>
    have hJoin : Path.join (Path.extend root top) name = Path.extend root (top ++ [name]) :=
      (Path.extend_append root top [name]).symm
    have hBelow : below disk ignoring (levelsAlong disk root top)
        (Path.extend root (top ++ [name])) = levelsAlong disk root (top ++ [name]) :=
      (levelsAlong_concat disk root top name).symm
    rw [admitsWay, hJoin, hBelow, Bool.and_eq_true, ih, admits_ignoring, bne_iff_ne, IsSpared,
      IsIgnored, Bool.false_or]

/-- Where no folder on the way is a repository, nothing is ignored on it. -/
theorem isSpared_of_forall_not_isRepository {top names : List String}
    (h : ∀ front, front <+: top ++ names.dropLast →
      (Ignore.Level.ofDirectory disk (Path.extend root front)).isRepository = false) :
    IsSpared disk root false top names := by
  induction names generalizing top with
  | nil => trivial
  | cons name names ih =>
    refine ⟨fun hIgnored => ?_, ?_⟩
    · have hSome := Ignore.Level.isSome_upToRepository_of_verdict? hIgnored
      obtain ⟨level, hLevel, hRepository⟩ := Ignore.Level.exists_of_isSome_upToRepository hSome
      obtain ⟨front, hFront, rfl⟩ := List.mem_map.mp (List.mem_reverse.mp hLevel)
      have hTop := (List.mem_inits front top).mp hFront
      rw [h front (hTop.trans (List.prefix_append top _))] at hRepository
      cases hRepository
    · cases names with
      | nil => trivial
      | cons next names =>
        refine ih fun front hFront => h front ?_
        rwa [List.append_assoc] at hFront

theorem admitsWay_default (levels : List Ignore.Level) (path : String) (names : List String) :
    admitsWay disk Config.default.walkOptions levels path names = true := by
  induction names generalizing levels path with
  | nil => rfl
  | cons name names ih => rw [admitsWay, admits_default, ih, Bool.and_true]

/-- Where no repository is at or below the root, asking the ignore files changes nothing. -/
theorem files_ignoring_eq_default {place : Place} {pattern : String} {expr : Glob.NameExpr}
    (hRoot : disk.stat root = .ok (.directory place)) (hCompile : Glob.compile pattern = .ok expr)
    (hNone : ∀ folders, disk.IsWay place folders →
      (Ignore.Level.ofDirectory disk (Path.extend root folders)).isRepository = false) :
    files disk ignoring pattern [root] =
      files disk Config.default.walkOptions pattern [root] := by
  have hAdmitted : ∀ names ∈ namesBelow disk (fun name => expr.accepts name.toList) root,
      admitsWay disk ignoring (below disk ignoring [] root) root names = true := by
    intro names hMem
    cases hDash : isDash root with
    | true =>
      rw [namesBelow, hDash, if_pos rfl] at hMem
      cases hMem
    | false =>
      obtain ⟨folders, name, rfl, hLists⟩ := (mem_namesBelow_iff disk hRoot expr hDash names).mp hMem
      refine (admitsWay_ignoring_iff disk root [] _).mpr
        (isSpared_of_forall_not_isRepository disk root fun front hFront => ?_)
      rw [List.nil_append, List.dropLast_concat] at hFront
      exact hNone front fun front' hFront' => hLists.isWay front' (hFront'.trans hFront)
  have hSame : namesAdmitted disk ignoring (fun name => expr.accepts name.toList) root =
      namesAdmitted disk Config.default.walkOptions (fun name => expr.accepts name.toList) root :=
    List.filter_congr fun names hMem => by rw [hAdmitted names hMem, admitsWay_default]
  rw [files_singleton disk rfl hRoot hCompile, files_singleton disk rfl hRoot hCompile, hSame]

end Walk

end HeaderRename
