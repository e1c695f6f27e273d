import HeaderRename.Proofs.Discovery.Listed

/-!
# Walks that leave entries out

What a walk drops is not entered, so a file is listed when each entry on the way to it is admitted
where it stands. With options of any kind, as long as no links are followed, a walk lists just these
of the files that it lists with the default options, in the same order.
-/
set_option autoImplicit false

namespace HeaderRename.Walk

variable (disk : Disk) (options : WalkOptions)

/-- Each entry on the way is admitted by the levels that hold where it stands, the last one as a
file and those before it as folders. -/
def admitsWay : List Ignore.Level → String → List String → Bool
  | _, _, [] => true
  | levels, path, name :: names =>
    admits options levels (Path.join path name) name (!names.isEmpty) &&
      admitsWay (Walk.below disk options levels (Path.join path name)) (Path.join path name) names

theorem visitsOf_eq_flatMap (levels : List Ignore.Level) (views : List View) :
    visitsOf disk options levels views = views.flatMap (visits disk options levels) := by
  induction views with
  | nil => rfl
  | cons view views ih => rw [visitsOf, ih, List.flatMap_cons]

theorem visitsOfNodes_flatMap {α : Type} (list : List α) (nodes : α → List Node) :
    visitsOfNodes (list.flatMap nodes) = list.flatMap fun a => visitsOfNodes (nodes a) := by
  induction list with
  | nil => rfl
  | cons a list ih => rw [List.flatMap_cons, visitsOfNodes_append, ih, List.flatMap_cons]

/-- The entries of the trails below a directory on which everything is admitted. -/
def admittedNodes (levels : List Ignore.Level) (directory : String) (trails : List Trail) :
    List Node :=
  (trails.filter fun trail => admitsWay disk options levels directory trail.names).map
    (disk.nodeOf directory)

theorem admittedNodes_under (levels : List Ignore.Level) (directory name : String)
    (trails : List Trail) :
    admittedNodes disk options levels directory (trails.map (Trail.under name)) =
      if admits options levels (Path.join directory name) name true then
        admittedNodes disk options (below disk options levels (Path.join directory name))
          (Path.join directory name) trails
      else [] := by
  have hCons (trail : Trail) :
      admitsWay disk options levels directory (trail.under name).names =
        (admits options levels (Path.join directory name) name true &&
          admitsWay disk options (below disk options levels (Path.join directory name))
            (Path.join directory name) trail.names) := by
    have hNames : trail.names.isEmpty = false := by simp [trail.names_ne_nil]
    rw [Trail.names_under, admitsWay, hNames, Bool.not_false]
  rw [admittedNodes, List.filter_map, List.map_map]
  cases hAdmits : admits options levels (Path.join directory name) name true with
  | false =>
    have hNone : ∀ trail ∈ trails,
        ¬admitsWay disk options levels directory (trail.under name).names = true := by
      intro trail _
      rw [hCons, hAdmits, Bool.false_and]
      exact Bool.false_ne_true
    rw [if_neg Bool.false_ne_true, List.map_eq_nil_iff]
    exact List.filter_eq_nil_iff.mpr hNone
  | true =>
    rw [if_pos rfl, admittedNodes]
    refine congrArg _ (List.filter_congr fun trail _ => ?_)
    rw [Function.comp_apply, hCons, hAdmits, Bool.true_and]

theorem visitsOfNodes_admittedNodes_cons (levels : List Ignore.Level) (directory : String)
    (trail : Trail) (trails : List Trail) :
    visitsOfNodes (admittedNodes disk options levels directory (trail :: trails)) =
      visitsOfNodes (admittedNodes disk options levels directory [trail]) ++
        visitsOfNodes (admittedNodes disk options levels directory trails) := by
  rw [← visitsOfNodes_append, admittedNodes, ← List.singleton_append, List.filter_append,
    List.map_append, admittedNodes, admittedNodes]

/-- A directory is not listed itself. -/
theorem visitsOfNodes_directory (levels : List Ignore.Level) (directory name : String) :
    visitsOfNodes (admittedNodes disk options levels directory [⟨[], name, .directory⟩]) = [] := by
  rw [admittedNodes, List.filter_singleton]
  cases admitsWay disk options levels directory _ <;> rfl

theorem visitsOfNodes_leaf (levels : List Ignore.Level) (directory name : String) (entry : Entry) :
    visitsOfNodes (admittedNodes disk options levels directory [⟨[], name, entry⟩]) =
      visits disk options levels (.leaf (Path.join directory name) name
        (disk.lists (Path.join directory name) entry)) := by
  rw [admittedNodes, visits]
  have hWay : admitsWay disk options levels directory (Trail.names ⟨[], name, entry⟩) =
      admits options levels (Path.join directory name) name false := Bool.and_true _
  rw [List.filter_singleton, hWay]
  cases hAdmits : admits options levels (Path.join directory name) name false with
  | false => simp [visitsOfNodes]
  | true =>
    have hNode : disk.nodeOf directory ⟨[], name, entry⟩ =
        ⟨Path.join directory name, name, disk.lists (Path.join directory name) entry⟩ := rfl
    cases hLists : disk.lists (Path.join directory name) entry <;>
      simp [visitsOfNodes, hNode, hLists]

theorem visits_ofEntry (fuel : Nat) (ancestors : List View.Ancestor) (levels : List Ignore.Level)
    (directory name : String) (place : Place) (entry : Entry) :
    visits disk options levels
        (View.ofEntry disk false fuel ancestors (Path.join directory name) name place entry) =
      visitsOfNodes (admittedNodes disk options levels directory (⟨[], name, entry⟩ ::
        if entry = .directory then (disk.trails fuel place).map (Trail.under name) else [])) := by
  -- the levels and the directory change on the way down, as the trails below a folder start there
  induction fuel generalizing ancestors levels directory name place entry with
  | zero =>
    rw [visitsOfNodes_admittedNodes_cons, visitsOfNodes_leaf]
    cases entry <;> exact (List.append_nil _).symm
  | succ fuel ih =>
    rw [visitsOfNodes_admittedNodes_cons]
    cases entry with
    | file | link =>
      rw [visitsOfNodes_leaf]
      exact (List.append_nil _).symm
    | directory =>
      rw [visitsOfNodes_directory, List.nil_append, if_pos rfl, admittedNodes_under, View.ofEntry,
        visits]
      split
      · rw [visitsOf_eq_flatMap, List.flatMap_map, Disk.trails, admittedNodes, List.filter_flatMap,
          List.map_flatMap, visitsOfNodes_flatMap]
        exact List.flatMap_congr fun child _ => ih _ _ _ child.1 _ child.2
      · rfl

theorem visitsFrom_ofRoot (root : String) (place : Place) :
    visitsFrom disk options (View.ofRoot disk false root place) =
      visitsOfNodes (admittedNodes disk options (below disk options [] root) root
        (disk.trails (View.depthLimit disk) place)) := by
  obtain ⟨fuel, hFuel⟩ := View.exists_depthLimit_eq_succ disk
  rw [View.ofRoot, hFuel, View.ofEntry, visitsFrom, visitsOf_eq_flatMap, List.flatMap_map,
    Disk.trails, admittedNodes, List.filter_flatMap, List.map_flatMap, visitsOfNodes_flatMap]
  exact List.flatMap_congr fun child _ => visits_ofEntry disk options fuel _ _ root child.1 _ child.2

variable {disk} in
theorem Lists.isName {expr : Glob.NameExpr} {root : String} {place : Place}
    {folders : List String} {name : String} (h : Lists disk expr root place folders name) :
    ∀ name' ∈ folders ++ [name], Path.isName name' = true := by
  obtain ⟨entry, hEntry, _⟩ := h.isFile
  intro name' hName
  refine disk.isName_of_hasName ⟨_, List.mem_map_of_mem
    (disk.mem_entries_of_get? ?_ hEntry), List.mem_append_right place hName⟩
  simp

/-- The names on the way to the files that a walk with these options lists for a root. -/
def namesAdmitted (accepts : String → Bool) (root : String) : List (List String) :=
  (namesBelow disk accepts root).filter
    (admitsWay disk options (below disk options [] root) root)

variable {options} (hFollow : options.followLinks = false)

include hFollow

theorem untilBroken_rootVisits (accepts : String → Bool) (root : String) :
    untilBroken accepts (rootVisits disk options root) =
      ((namesAdmitted disk options accepts root).map (Path.extend root), none) := by
  cases hDash : isDash root with
  | true => rw [rootVisits, namesAdmitted, namesBelow, hDash]; rfl
  | false =>
    rw [rootVisits, hDash, if_neg Bool.false_ne_true]
    rcases hRoot : disk.stat root with fault | ⟨place, bytes⟩ | place | ⟨place, target⟩ | place
    · rw [namesAdmitted, namesBelow, hDash, hRoot]
      rfl
    · rw [namesAdmitted, namesBelow, hDash, hRoot]
      cases hAccepts : accepts (fileName root) with
      | true => simp only [untilBroken, hAccepts, if_pos]; rfl
      | false => simp [untilBroken, hAccepts]
    · dsimp only
      rw [hFollow, visitsFrom_ofRoot, untilBroken_visitsOfNodes, namesAdmitted,
        namesBelow_eq disk hRoot accepts hDash, admittedNodes, List.filter_map, List.filter_map,
        List.map_map, List.map_map, List.filter_filter, List.filter_filter]
      congr 2
      exact List.filter_congr fun trail _ => Bool.and_comm _ _
    · rw [namesAdmitted, namesBelow, hDash, hRoot]
      rfl
    · rw [namesAdmitted, namesBelow, hDash, hRoot]
      rfl

/-- The first root that is missing ends the walk. -/
theorem walkRoots_eq (accepts : String → Bool) (roots : List String) :
    walkRoots disk options accepts roots =
      ⟨(roots.takeWhile disk.pathExists).flatMap fun root =>
        (namesAdmitted disk options accepts root).map (Path.extend root),
        (roots.find? fun root => !disk.pathExists root).map .rootNotFound⟩ := by
  induction roots with
  | nil => rfl
  | cons root roots ih =>
    rw [walkRoots, List.takeWhile_cons, List.find?_cons]
    cases disk.pathExists root with
    | true => rw [if_pos rfl, untilBroken_rootVisits disk hFollow accepts root, ih]; rfl
    | false => rfl

/-- A walk of one root that follows no links ends without an error. -/
theorem files_singleton {root : String} {place : Place} {pattern : String} {expr : Glob.NameExpr}
    (hRoot : disk.stat root = .ok (.directory place)) (hCompile : Glob.compile pattern = .ok expr) :
    files disk options pattern [root] =
      ⟨(namesAdmitted disk options (fun name => expr.accepts name.toList) root).map
        (Path.extend root), none⟩ := by
  rw [files, hCompile]
  dsimp only
  rw [walkRoots_eq disk hFollow, List.takeWhile_cons, List.find?_cons,
    disk.pathExists_of_stat hRoot, List.find?_nil]
  exact congrArg (Result.mk · none) (List.append_nil _)

end HeaderRename.Walk
