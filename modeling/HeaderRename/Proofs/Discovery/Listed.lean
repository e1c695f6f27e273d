import HeaderRename.Proofs.Discovery.Backends
import HeaderRename.Proofs.Discovery.Trails

/-!
# What a walk lists

With the default options a walk lists, root by root, the files and the links to files that lie in
real directories and whose name the pattern matches, each once and in the order of the names on the
way to it. A root that stands for standard input is the exception: nothing in it is listed.
-/
set_option autoImplicit false

namespace HeaderRename.Walk

variable (disk : Disk)

/-- What a walk that follows no links lists below a directory: a file, or a link that leads to one,
in directories that are no links, under a name that the pattern matches. -/
structure Lists (expr : Glob.NameExpr) (root : String) (place : Place) (folders : List String)
    (name : String) : Prop where
  isWay : disk.IsWay place folders
  isFile : ∃ entry, disk.get? (place ++ (folders ++ [name])) = some entry ∧
    ((∃ bytes, entry = .file bytes) ∨
      (∃ target, entry = .link target) ∧ disk.isFile (Path.extend root (folders ++ [name])) = true)
  accepts : expr.accepts name.toList = true

theorem lists_eq_true_iff (path : String) (entry : Entry) : disk.lists path entry = true ↔
    (∃ bytes, entry = .file bytes) ∨
      (∃ target, entry = .link target) ∧ disk.isFile path = true := by
  cases entry <;> simp [Disk.lists]

/-- The names on the way to the files that are listed for a root, from the root on. A root that is a
file has no names behind it. -/
def namesBelow (accepts : String → Bool) (root : String) : List (List String) :=
  if isDash root then []
  else
    match disk.stat root with
    | .ok (.directory place) =>
      ((disk.trails (View.depthLimit disk) place).filter fun trail =>
        disk.lists (Path.extend root trail.names) trail.entry && accepts trail.name).map Trail.names
    | .ok (.file ..) => if accepts (fileName root) then [[]] else []
    | _ => []

theorem isName_of_mem_namesBelow {accepts : String → Bool} {root : String} {names : List String}
    (h : names ∈ namesBelow disk accepts root) : ∀ name ∈ names, Path.isName name = true := by
  unfold namesBelow at h
  split at h
  · cases h
  · split at h
    · obtain ⟨trail, hTrail, rfl⟩ := List.mem_map.mp h
      exact disk.isName_of_mem_trails (List.mem_filter.mp hTrail).1
    · split at h
      · obtain rfl := List.mem_singleton.mp h
        exact fun name hName => absurd hName List.not_mem_nil
      · cases h
    · cases h

variable {root : String} {place : Place} (hRoot : disk.stat root = .ok (.directory place))

include hRoot

theorem namesBelow_eq (accepts : String → Bool) (hDash : isDash root = false) :
    namesBelow disk accepts root = ((disk.trails (View.depthLimit disk) place).filter fun trail =>
      disk.lists (Path.extend root trail.names) trail.entry && accepts trail.name).map
        Trail.names := by
  rw [namesBelow, hDash, if_neg Bool.false_ne_true, hRoot]

theorem listed_eq_map_namesBelow (accepts : String → Bool) :
    listed disk accepts root = (namesBelow disk accepts root).map (Path.extend root) := by
  cases hDash : isDash root with
  | true => rw [listed, namesBelow, hDash, if_pos rfl, if_pos rfl, List.map_nil]
  | false =>
    rw [namesBelow_eq disk hRoot accepts hDash, listed, hDash, if_neg Bool.false_ne_true,
      listedBelow, disk.nodesBelow_eq_map_trails hRoot, List.filter_map, List.map_map, List.map_map]
    rfl

/-- The limit of the depth keeps nothing from being listed. -/
theorem mem_namesBelow_iff (expr : Glob.NameExpr) (hDash : isDash root = false)
    (names : List String) : names ∈ namesBelow disk (fun name => expr.accepts name.toList) root ↔
      ∃ folders name, names = folders ++ [name] ∧ Lists disk expr root place folders name := by
  rw [namesBelow_eq disk hRoot _ hDash, List.mem_map]
  constructor
  · rintro ⟨⟨folders, name, entry⟩, hTrail, rfl⟩
    obtain ⟨hMem, hListed⟩ := List.mem_filter.mp hTrail
    obtain ⟨_, hWay, hEntry⟩ := (disk.mem_trails_iff _ place _).mp hMem
    obtain ⟨hFile, hAccepts⟩ := Bool.and_eq_true_iff.mp hListed
    exact ⟨folders, name, rfl, hWay, ⟨entry, hEntry, (lists_eq_true_iff disk _ entry).mp hFile⟩,
      hAccepts⟩
  · rintro ⟨folders, name, rfl, hWay, ⟨entry, hEntry, hFile⟩, hAccepts⟩
    have hLength : (folders ++ [name]).length ≤ View.depthLimit disk :=
      calc (folders ++ [name]).length
        _ ≤ disk.entries.length := disk.length_le_of_isWay hWay hEntry
        _ ≤ disk.entries.length + 2 := Nat.le_add_right _ 2
        _ ≤ View.depthLimit disk := Nat.le_mul_of_pos_left _ (by omega)
    refine ⟨⟨folders, name, entry⟩, List.mem_filter.mpr ⟨?_, ?_⟩, rfl⟩
    · exact (disk.mem_trails_iff _ place _).mpr ⟨hLength, hWay, hEntry⟩
    · exact Bool.and_eq_true_iff.mpr ⟨(lists_eq_true_iff disk _ entry).mpr hFile, hAccepts⟩

theorem pairwise_namesBelow (accepts : String → Bool) :
    (namesBelow disk accepts root).Pairwise (· < ·) := by
  cases hDash : isDash root with
  | true =>
    rw [namesBelow, hDash, if_pos rfl]
    exact List.Pairwise.nil
  | false =>
    rw [namesBelow_eq disk hRoot accepts hDash, List.pairwise_map]
    exact (disk.pairwise_trails _ place).filter _

/-- Different names make different paths, as no name holds a slash. -/
theorem nodup_map_extend_namesBelow (accepts : String → Bool) :
    ((namesBelow disk accepts root).map (Path.extend root)).Nodup := by
  have hNodup : (namesBelow disk accepts root).Nodup :=
    (pairwise_namesBelow disk hRoot accepts).imp fun h => ne_of_lt h
  refine List.Nodup.map_on (fun names hMem names' hMem' hSame => ?_) hNodup
  have h := congrArg Path.names hSame
  rw [Path.names_extend root names (isName_of_mem_namesBelow disk hMem),
    Path.names_extend root names' (isName_of_mem_namesBelow disk hMem')] at h
  exact List.append_cancel_left h

omit hRoot

/-- A walk with the default options lists its roots, which are paths from the working directory, one
after the other. Below each are just the files that it is to list, each once and in the order of the
bytes of the names; only a root that stands for standard input has none. -/
theorem files_default (roots : List String) (pattern : String) (expr : Glob.NameExpr)
    (hRoots : ∀ root ∈ roots, ∃ place, disk.stat root = .ok (.directory place))
    (hCompile : Glob.compile pattern = .ok expr) :
    ∃ below : String → List (List String),
      files disk Config.default.walkOptions pattern roots =
        ⟨roots.flatMap fun root => (below root).map (Path.extend root), none⟩ ∧
      ∀ root ∈ roots, ∀ place, disk.stat root = .ok (.directory place) →
        (isDash root = true → below root = []) ∧
        (isDash root = false → ∀ names, names ∈ below root ↔
          ∃ folders name, names = folders ++ [name] ∧ Lists disk expr root place folders name) ∧
        (below root).Pairwise (fun names names' => Trail.bytes names < Trail.bytes names') ∧
        ((below root).map (Path.extend root)).Nodup := by
  refine ⟨namesBelow disk fun name => expr.accepts name.toList, ?_, ?_⟩
  · have hListed : roots.flatMap (listed disk fun name => expr.accepts name.toList) =
        roots.flatMap fun root =>
          (namesBelow disk (fun name => expr.accepts name.toList) root).map (Path.extend root) := by
      refine List.flatMap_congr fun root hRoot => ?_
      obtain ⟨place, hPlace⟩ := hRoots root hRoot
      exact listed_eq_map_namesBelow disk hPlace _
    rw [files, hCompile]
    dsimp only
    rw [walkRoots_default disk _ roots hRoots, hListed]
  · intro root _ place hPlace
    refine ⟨fun hDash => ?_, fun hDash => ?_, ?_, ?_⟩
    · rw [namesBelow, hDash, if_pos rfl]
    · exact mem_namesBelow_iff disk hPlace expr hDash
    · exact (pairwise_namesBelow disk hPlace _).imp Trail.bytes_lt_bytes
    · exact nodup_map_extend_namesBelow disk hPlace _

/-- A link to a directory that holds a file, a link to it further down and one to a directory. -/
def linkedFolder : Disk where
  entries :=
    [(["lib"], .directory), (["lib", "a.c"], .file []), (["lib", "a"], .directory),
      (["lib", "a", "x.c"], .link "../a.c"), (["lib", "b"], .link "a"), (["src"], .link "lib")]
  nodup := by decide
  valid := by decide

/-- A root may be a link. What is in a directory comes before a file whose name only goes on where
that of the directory ends. -/
theorem files_default_linkedFolder :
    ∃ (expr : Glob.NameExpr) (below : String → List (List String)),
      Glob.compile "*.c" = .ok expr ∧
      linkedFolder.stat "src" = .ok (.directory ["lib"]) ∧
      files linkedFolder Config.default.walkOptions "*.c" ["src"] =
        ⟨(below "src").map (Path.extend "src"), none⟩ ∧
      ["a", "x.c"] ∈ below "src" ∧ ["a.c"] ∈ below "src" ∧ ["b", "x.c"] ∉ below "src" ∧
      (below "src").Pairwise fun names names' => Trail.bytes names < Trail.bytes names' := by
  obtain ⟨expr, hCompile⟩ := Search.exists_compile_sources
  have hRoot : linkedFolder.stat "src" = .ok (.directory ["lib"]) := by decide +kernel
  have hAccepts := Search.accepts_of_compile_sources hCompile
  obtain ⟨below, hFiles, hBelow⟩ := files_default linkedFolder ["src"] "*.c" expr
    (by simp [hRoot]) hCompile
  obtain ⟨_, hMem, hOrder, _⟩ := hBelow "src" (by simp) ["lib"] hRoot
  have hMem := hMem (by decide +kernel)
  refine ⟨expr, below, hCompile, hRoot, ?_, ?_, ?_, ?_, hOrder⟩
  · rwa [List.flatMap_singleton] at hFiles
  · refine (hMem _).mpr
      ⟨["a"], "x.c", rfl, ?_, ⟨_, rfl, .inr ⟨⟨_, rfl⟩, ?_⟩⟩, hAccepts _ (by decide)⟩
    · exact (linkedFolder.isWay_cons_iff _ _ _).mpr ⟨rfl, linkedFolder.isWay_nil _⟩
    · decide +kernel
  · exact (hMem _).mpr ⟨[], "a.c", rfl, linkedFolder.isWay_nil _, ⟨_, rfl, .inl ⟨_, rfl⟩⟩,
      hAccepts _ (by decide)⟩
  · rintro h
    obtain ⟨folders, name, hNames, hLists⟩ := (hMem _).mp h
    obtain ⟨rfl, _⟩ : ["b"] = folders ∧ ["x.c"] = [name] := List.append_inj' hNames rfl
    have hLink := ((linkedFolder.isWay_cons_iff _ _ _).mp hLists.isWay).1
    cases hLink

def dashFolder : Disk where
  entries := [(["-"], .directory), (["-", "a.c"], .file [])]
  nodup := by decide
  valid := by decide

/-- The file in it is one to be listed, yet a walk of that root lists nothing. -/
theorem files_dashFolder :
    ∃ expr, Glob.compile "*.c" = .ok expr ∧
      dashFolder.stat "-" = .ok (.directory ["-"]) ∧
      Lists dashFolder expr "-" ["-"] [] "a.c" ∧
      files dashFolder Config.default.walkOptions "*.c" ["-"] = ⟨[], none⟩ := by
  obtain ⟨expr, hCompile⟩ := Search.exists_compile_sources
  have hRoot : dashFolder.stat "-" = .ok (.directory ["-"]) := by decide +kernel
  have hAccepts := Search.accepts_of_compile_sources hCompile "a.c" (by decide)
  refine ⟨expr, hCompile, hRoot, ⟨dashFolder.isWay_nil _, ⟨_, rfl, .inl ⟨_, rfl⟩⟩, hAccepts⟩, ?_⟩
  have hDash : isDash "-" = true := by decide +kernel
  simp only [files, hCompile, walkRoots, dashFolder.pathExists_of_stat hRoot, rootVisits, hDash,
    if_pos, untilBroken, List.append_nil]

end HeaderRename.Walk
