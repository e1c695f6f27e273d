import HeaderRename.Proofs.Discovery.Nodes
import HeaderRename.Settings.Config

/-!
# Walks with the default options

With the default options nothing is left out: a walk goes through all entries below its roots and
lists the files and the links to files whose name matches.
-/
set_option autoImplicit false

namespace HeaderRename

variable (disk : Disk)

namespace Walk

theorem admits_default (levels : List Ignore.Level) (path name : String) (isFolder : Bool) :
    admits Config.default.walkOptions levels path name isFolder = true := by
  simp [admits, verdict?, Config.walkOptions, Config.default]

/-- The visits of the entries that are files to be listed. -/
def visitsOfNodes (nodes : List Node) : List Visit :=
  (nodes.filter (·.isFile)).map fun node => .file node.path node.name

theorem visitsOfNodes_append (nodes nodes' : List Node) :
    visitsOfNodes (nodes ++ nodes') = visitsOfNodes nodes ++ visitsOfNodes nodes' := by
  rw [visitsOfNodes, List.filter_append, List.map_append, visitsOfNodes, visitsOfNodes]

mutual

theorem visits_default (levels : List Ignore.Level) : (view : View) → view.Unbroken →
    visits disk Config.default.walkOptions levels view = visitsOfNodes view.nodes
  | .leaf path name isFile, _ => by
    rw [visits, admits_default, Bool.and_true, View.nodes]
    cases isFile <;> rfl
  | .broken .., h => by cases h
  | .folder path name children, .folder _ _ _ h => by
    rw [visits, admits_default, if_pos rfl, visitsOf_default _ children h]
    rfl

theorem visitsOf_default (levels : List Ignore.Level) : (views : List View) →
    (∀ view ∈ views, view.Unbroken) →
      visitsOf disk Config.default.walkOptions levels views = visitsOfNodes (View.nodesOf views)
  | [], _ => rfl
  | view :: views, h => by
    rw [List.forall_mem_cons] at h
    rw [visitsOf, visits_default levels view h.1, visitsOf_default levels views h.2, View.nodesOf,
      visitsOfNodes_append]

end

theorem untilBroken_visitsOfNodes (accepts : String → Bool) (nodes : List Node) :
    untilBroken accepts (visitsOfNodes nodes) =
      ((nodes.filter fun node => node.isFile && accepts node.name).map (·.path), none) := by
  induction nodes with
  | nil => rfl
  | cons node nodes ih =>
    rw [← List.singleton_append, visitsOfNodes_append, List.filter_append, List.map_append]
    cases hFile : node.isFile with
    | false =>
      have hVisits : visitsOfNodes [node] = [] := by simp [visitsOfNodes, hFile]
      rw [hVisits, List.nil_append, ih]
      simp [hFile]
    | true =>
      have hVisits : visitsOfNodes [node] = [.file node.path node.name] := by
        simp [visitsOfNodes, hFile]
      rw [hVisits, List.singleton_append, untilBroken, ih]
      cases hAccepts : accepts node.name <;> simp [hFile, hAccepts]

theorem rootVisits_default {root : String} {place : Place} (hDash : isDash root = false)
    (hRoot : disk.stat root = .ok (.directory place)) :
    rootVisits disk Config.default.walkOptions root = visitsOfNodes (disk.nodesBelow root) := by
  have hLevels : below disk Config.default.walkOptions [] root = [] :=
    below_of_not_ignore disk rfl [] root
  rw [rootVisits, hDash, if_neg Bool.false_ne_true, hRoot, Disk.nodesBelow_eq hRoot]
  dsimp only
  rw [show Config.default.walkOptions.followLinks = false from rfl, View.ofRoot,
    View.ofEntry_eq_folder, visitsFrom, hLevels, View.children,
    visitsOf_default disk [] _ (View.unbroken_of_mem_children disk root place)]

/-- The paths of the files below a root that have an accepted name. -/
def listedBelow (accepts : String → Bool) (root : String) : List String :=
  ((disk.nodesBelow root).filter fun node => node.isFile && accepts node.name).map (·.path)

/-- Nothing is listed for a root that stands for standard input. -/
def listed (accepts : String → Bool) (root : String) : List String :=
  if isDash root then [] else listedBelow disk accepts root

theorem walkRoots_default (accepts : String → Bool) (roots : List String)
    (hRoots : ∀ root ∈ roots, ∃ place, disk.stat root = .ok (.directory place)) :
    walkRoots disk Config.default.walkOptions accepts roots =
      ⟨roots.flatMap (listed disk accepts), none⟩ := by
  induction roots with
  | nil => rfl
  | cons root roots ih =>
    obtain ⟨⟨place, hRoot⟩, hRest⟩ := List.forall_mem_cons.mp hRoots
    rw [walkRoots, disk.pathExists_of_stat hRoot, if_pos rfl, ih hRest, List.flatMap_cons, listed]
    cases hDash : isDash root with
    | true => rw [rootVisits, hDash]; rfl
    | false =>
      rw [rootVisits_default disk hDash hRoot, untilBroken_visitsOfNodes,
        if_neg Bool.false_ne_true, listedBelow]

end Walk

namespace Search

theorem rootFault?_eq_none {roots : List String}
    (hRoots : ∀ root ∈ roots, ∃ place, disk.stat root = .ok (.directory place)) :
    roots.findSome? (rootFault? disk) = none := by
  rw [List.findSome?_eq_none_iff]
  intro root hRoot
  obtain ⟨place, hStat⟩ := hRoots root hRoot
  rw [rootFault?, hStat]

/-- A walk with the default options succeeds, whatever is below the roots. -/
theorem result_run_of_walk (search : Search) (hBackend : search.backend = .walk)
    (hOptions : search.options = Config.default.walkOptions) (hRoots : search.roots ≠ [])
    (hEntered : ∀ root ∈ search.roots, Walk.isDash root = false ∧
      ∃ place, disk.stat root = .ok (.directory place))
    {expr : Glob.NameExpr} (hCompile : Glob.compile search.pattern = .ok expr) :
    (search.run disk).result = .ok (search.roots.flatMap
      (Walk.listedBelow disk fun name => expr.accepts name.toList)) := by
  have hNe : search.roots.isEmpty = false := by simpa using hRoots
  have hFault := rootFault?_eq_none disk fun root hRoot => (hEntered root hRoot).2
  have hListed : search.roots.flatMap (Walk.listed disk fun name => expr.accepts name.toList) =
      search.roots.flatMap (Walk.listedBelow disk fun name => expr.accepts name.toList) := by
    refine List.flatMap_congr fun root hRoot => ?_
    rw [Walk.listed, (hEntered root hRoot).1, if_neg Bool.false_ne_true]
  simp only [run, hNe, if_neg Bool.false_ne_true, hFault, hBackend, walk, Walk.files, hCompile,
    hOptions, Walk.walkRoots_default disk _ search.roots fun root hRoot => (hEntered root hRoot).2,
    hListed]

end Search

end HeaderRename
