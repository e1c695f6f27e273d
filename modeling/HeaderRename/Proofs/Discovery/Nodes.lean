import HeaderRename.Proofs.Discovery.Contents
import HeaderRename.Proofs.Disk.Join

/-!
# The entries below a directory

Where links are not followed, a view shows every entry below a directory, each under its own path
and none of them broken. Whether an entry is a file to be listed is then what the disk tells of its
path.
-/
set_option autoImplicit false

namespace HeaderRename

/-- An entry as a view shows it. -/
structure Node where
  path : String
  name : String
  isFile : Bool
deriving DecidableEq, Repr

namespace View

mutual

/-- The entries in order, a folder before what is in it. -/
def nodes : View → List Node
  | leaf path name isFile => [⟨path, name, isFile⟩]
  | broken path name _ => [⟨path, name, false⟩]
  | folder path name children => ⟨path, name, false⟩ :: nodesOf children

def nodesOf : List View → List Node
  | [] => []
  | view :: views => nodes view ++ nodesOf views

end

theorem mem_nodesOf_iff (node : Node) (views : List View) :
    node ∈ nodesOf views ↔ ∃ view ∈ views, node ∈ nodes view := by
  induction views with
  | nil => simp [nodesOf]
  | cons view views ih => rw [nodesOf, List.mem_append, List.exists_mem_cons_iff, ih]

def children : View → List View
  | folder _ _ children => children
  | _ => []

inductive Unbroken : View → Prop
  | leaf (path name : String) (isFile : Bool) : Unbroken (.leaf path name isFile)
  | folder (path name : String) (children : List View) (h : ∀ view ∈ children, Unbroken view) :
    Unbroken (.folder path name children)

variable (disk : Disk)

theorem unbroken_ofEntry (fuel : Nat) (ancestors : List Ancestor) (path name : String)
    (place : Place) (entry : Entry) :
    Unbroken (ofEntry disk false fuel ancestors path name place entry) := by
  induction fuel generalizing ancestors path name place entry with
  | zero => cases entry <;> exact .leaf _ _ _
  | succ fuel ih =>
    cases entry with
    | file bytes => exact .leaf _ _ _
    | link target => exact .leaf _ _ _
    | directory =>
      refine .folder _ _ _ fun view hView => ?_
      obtain ⟨⟨child, entry⟩, _, rfl⟩ := List.mem_map.mp hView
      exact ih _ _ _ _ entry

end View

namespace Disk

variable (disk : Disk)

theorem get?_of_mem_entries {place : Place} {entry : Entry} (h : (place, entry) ∈ disk.entries) :
    disk.get? place = some entry := by
  have hValid := disk.valid place (List.mem_map_of_mem h)
  have hPlace : ¬place.isEmpty = true := by
    intro hEmpty
    simp [Place.isValid, hEmpty] at hValid
  rw [get?, if_neg hPlace, List.lookup_eq_some_iff]
  obtain ⟨before, after, hSplit⟩ := List.append_of_mem h
  refine ⟨before, after, hSplit, fun e hBefore => ?_⟩
  have hNodup := disk.nodup
  rw [hSplit, List.map_append, List.map_cons] at hNodup
  have hDisjoint := (List.nodup_append.mp hNodup).2.2 e.1 (List.mem_map_of_mem hBefore) place
    List.mem_cons_self
  exact bne_iff_ne.mpr (Ne.symm hDisjoint)

theorem mem_entries_of_mem_children {place : Place} {name : String} {entry : Entry}
    (h : (name, entry) ∈ disk.children place) : (place ++ [name], entry) ∈ disk.entries := by
  rw [children_eq, List.mem_mergeSort, List.mem_filterMap] at h
  obtain ⟨e, hEntry, hChild⟩ := h
  rwa [(childAt?_eq_some_iff place e _).mp hChild] at hEntry

/-- A name that some entry has, or a directory above it. -/
def HasName (name : String) : Prop :=
  ∃ place ∈ disk.entries.map (·.1), name ∈ place

theorem hasName_of_mem_children {place : Place} {name : String} {entry : Entry}
    (h : (name, entry) ∈ disk.children place) : disk.HasName name :=
  ⟨_, List.mem_map_of_mem (disk.mem_entries_of_mem_children h), by simp⟩

theorem isName_of_hasName {name : String} (h : disk.HasName name) : Path.isName name = true := by
  obtain ⟨place, hPlace, hName⟩ := h
  have hValid := disk.valid place hPlace
  rw [Place.isValid, Bool.and_eq_true, List.all_eq_true] at hValid
  exact hValid.2 name hName

/-- The path leads to the entry, unless that is a link. -/
def LeadsTo (path : String) (place : Place) : Entry → Prop
  | .file bytes => disk.stat path = .ok (.file place bytes)
  | .directory => disk.stat path = .ok (.directory place)
  | .link _ => True

theorem leadsTo_join {directory : String} {place : Place} {name : String} {entry : Entry}
    (hDirectory : disk.LeadsTo directory place .directory)
    (h : (name, entry) ∈ disk.children place) :
    disk.LeadsTo (Path.join directory name) (place ++ [name]) entry := by
  have hName := disk.isName_of_hasName (disk.hasName_of_mem_children h)
  have hEntry := disk.get?_of_mem_entries (disk.mem_entries_of_mem_children h)
  cases entry with
  | file bytes => exact stat_join_of_file hDirectory hName hEntry
  | directory => exact stat_join_of_directory hDirectory hName hEntry
  | link target => trivial

/-- Whether the entry is listed under its path: a file, or a link that leads to one. -/
def lists (path : String) : Entry → Bool
  | .file _ => true
  | .directory => false
  | .link _ => disk.isFile path

theorem isFile_eq_lists {path : String} {place : Place} {entry : Entry}
    (h : disk.LeadsTo path place entry) : disk.isFile path = disk.lists path entry := by
  cases entry with
  | file bytes => rw [isFile, show disk.stat path = _ from h]; rfl
  | directory => rw [isFile, show disk.stat path = _ from h]; rfl
  | link target => rfl

end Disk

namespace View

variable (disk : Disk)

/-- What holds of an entry and passes from directories to what is in them holds of every entry of
the view. -/
theorem exists_of_mem_nodes {P : String → String → Place → Entry → Prop}
    (hBelow : ∀ directory own place name entry, P directory own place .directory →
      (name, entry) ∈ disk.children place →
        P (Path.join directory name) name (place ++ [name]) entry)
    {fuel : Nat} {ancestors : List Ancestor} {path name : String} {place : Place} {entry : Entry}
    (h : P path name place entry) {node : Node}
    (hNode : node ∈ nodes (ofEntry disk false fuel ancestors path name place entry)) :
    ∃ place entry, P node.path node.name place entry ∧
      node.isFile = disk.lists node.path entry := by
  induction fuel generalizing ancestors path name place entry with
  | zero =>
    cases entry <;>
      · obtain rfl := List.mem_singleton.mp hNode
        exact ⟨_, _, h, rfl⟩
  | succ fuel ih =>
    cases entry with
    | file | link =>
      obtain rfl := List.mem_singleton.mp hNode
      exact ⟨_, _, h, rfl⟩
    | directory =>
      rw [ofEntry, nodes, List.mem_cons, mem_nodesOf_iff] at hNode
      rcases hNode with rfl | ⟨view, hView, hNode⟩
      · exact ⟨_, _, h, rfl⟩
      · obtain ⟨⟨child, entry⟩, hChild, rfl⟩ := List.mem_map.mp hView
        exact ih (hBelow _ _ _ _ _ h hChild) hNode

theorem ofEntry_eq_folder (follow : Bool) (path name : String) (place : Place) :
    ofEntry disk follow (depthLimit disk) [] path name place .directory =
      .folder path name (ofRoot disk follow path place).children := by
  obtain ⟨fuel, hFuel⟩ := exists_depthLimit_eq_succ disk
  rw [ofRoot, hFuel, ofEntry, ofEntry, children]

theorem unbroken_of_mem_children (path : String) (place : Place) :
    ∀ view ∈ (ofRoot disk false path place).children, view.Unbroken := by
  have h := unbroken_ofEntry disk (depthLimit disk) [] path "" place .directory
  rw [ofEntry_eq_folder] at h
  cases h with
  | folder _ _ _ hChildren => exact hChildren

end View

namespace Disk

variable (disk : Disk)

/-- The entries below a directory, by the path that leads to it. -/
def nodesBelow (root : String) : List Node :=
  match disk.stat root with
  | .ok (.directory place) => View.nodesOf (View.ofRoot disk false root place).children
  | _ => []

variable {disk} {root : String} {place : Place} (hRoot : disk.stat root = .ok (.directory place))

include hRoot

theorem nodesBelow_eq :
    disk.nodesBelow root = View.nodesOf (View.ofRoot disk false root place).children := by
  rw [nodesBelow, hRoot]

theorem isFile_of_mem_nodesBelow {node : Node} (hNode : node ∈ disk.nodesBelow root) :
    node.isFile = disk.isFile node.path := by
  obtain ⟨fuel, hFuel⟩ := View.exists_depthLimit_eq_succ disk
  rw [nodesBelow_eq hRoot, View.mem_nodesOf_iff, View.ofRoot, hFuel, View.ofEntry,
    View.children] at hNode
  obtain ⟨view, hView, hNode⟩ := hNode
  obtain ⟨⟨child, entry⟩, hEntry, rfl⟩ := List.mem_map.mp hView
  obtain ⟨place', entry', hLeads, hFile⟩ :=
    View.exists_of_mem_nodes disk (P := fun path _ place entry => disk.LeadsTo path place entry)
      (fun directory _ place name entry h hEntry => disk.leadsTo_join h hEntry)
      (disk.leadsTo_join hRoot hEntry) hNode
  rw [hFile, disk.isFile_eq_lists hLeads]

end Disk

end HeaderRename
