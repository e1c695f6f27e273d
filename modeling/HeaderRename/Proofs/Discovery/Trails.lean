import HeaderRename.Proofs.Discovery.Walk
import HeaderRename.Proofs.Text.Order
import Mathlib.Data.List.Nodup

/-!
# The trails below a directory

A trail leads from a place through directories, not through links, down to an entry. A walk that
follows no links goes through all trails below a root, each of them once and in the order of their
names, a directory before what is in it; it lists those that end in a file or in a link to one.
-/
set_option autoImplicit false

namespace HeaderRename

namespace Path

/-- The path that leads from another one through these names. -/
def extend (root : String) (names : List String) : String :=
  names.foldl join root

theorem names_join (directory name : String) (hName : isName name = true) :
    names (join directory name) = names directory ++ [name] := by
  obtain ⟨hSlash, hNil, _, _⟩ := exists_chars_of_isName hName
  obtain ⟨pieces, hPieces, hNames⟩ := exists_splitOn_join directory name hSlash
  rw [names, hPieces, List.filter_append, List.map_append, hNames]
  simp [hNil]

theorem names_extend (root : String) (below : List String)
    (h : ∀ name ∈ below, isName name = true) :
    names (extend root below) = names root ++ below := by
  induction below generalizing root with
  | nil => exact (List.append_nil _).symm
  | cons name below ih =>
    obtain ⟨hName, hBelow⟩ := List.forall_mem_cons.mp h
    have hRest := ih (join root name) hBelow
    rw [names_join root name hName, List.append_assoc, List.singleton_append] at hRest
    exact hRest

end Path

/-- The directories on the way down, the name of the entry in the last of them, and the entry. -/
structure Trail where
  folders : List String
  name : String
  entry : Entry

namespace Trail

def names (trail : Trail) : List String :=
  trail.folders ++ [trail.name]

def under (folder : String) (trail : Trail) : Trail :=
  { trail with folders := folder :: trail.folders }

theorem names_under (folder : String) (trail : Trail) :
    (trail.under folder).names = folder :: trail.names := rfl

theorem names_ne_nil (trail : Trail) : trail.names ≠ [] := by
  simp [names]

/-- The names tell texts apart as their bytes do. -/
def bytes (names : List String) : List (List UInt8) :=
  names.map fun name => Utf8.write name.toList

theorem bytes_lt_bytes {names names' : List String} (h : names < names') :
    bytes names < bytes names' := by
  induction h with
  | nil => exact List.Lex.nil
  | rel hName => exact List.Lex.rel (Utf8.write_lt_write (String.lt_iff_toList_lt.mp hName))
  | cons _ ih => exact List.Lex.cons ih

end Trail

namespace Disk

variable (disk : Disk)

theorem mem_entries_of_get? {place : Place} {entry : Entry} (hPlace : place ≠ [])
    (h : disk.get? place = some entry) : (place, entry) ∈ disk.entries := by
  rw [get?, if_neg (by simpa using hPlace)] at h
  obtain ⟨before, after, hSplit, _⟩ := List.lookup_eq_some_iff.mp h
  rw [hSplit]
  exact List.mem_append_right _ List.mem_cons_self

theorem mem_children_iff (place : Place) (name : String) (entry : Entry) :
    (name, entry) ∈ disk.children place ↔ disk.get? (place ++ [name]) = some entry := by
  constructor
  · exact fun h => disk.get?_of_mem_entries (disk.mem_entries_of_mem_children h)
  · intro h
    have hMem := disk.mem_entries_of_get? (by simp) h
    rw [children_eq, List.mem_mergeSort, List.mem_filterMap]
    exact ⟨_, hMem, (childAt?_eq_some_iff place _ _).mpr rfl⟩

theorem nodup_children (place : Place) : ((disk.children place).map (·.1)).Nodup := by
  rw [children_eq, (List.mergeSort_perm _ _).map _ |>.nodup_iff, List.Nodup, List.pairwise_map,
    List.pairwise_filterMap]
  have hNodup := disk.nodup
  rw [List.Nodup, List.pairwise_map] at hNodup
  refine hNodup.imp ?_
  intro e e' hNe child hChild child' hChild' hSame
  rw [childAt?_eq_some_iff] at hChild hChild'
  exact hNe (by rw [hChild, hChild', hSame])

theorem pairwise_children (place : Place) :
    (disk.children place).Pairwise fun a b => a.1 < b.1 := by
  have hSorted : (disk.children place).Pairwise fun a b => decide (a.1 ≤ b.1) = true := by
    rw [children_eq]
    refine List.pairwise_mergeSort (fun a b c hab hbc => ?_) (fun a b => ?_) _
    · rw [decide_eq_true_eq] at hab hbc ⊢
      exact le_trans hab hbc
    · rw [Bool.or_eq_true, decide_eq_true_eq, decide_eq_true_eq]
      exact le_total a.1 b.1
  have hNodup := disk.nodup_children place
  rw [List.Nodup, List.pairwise_map] at hNodup
  exact (hSorted.and hNodup).imp fun h => lt_of_le_of_ne (of_decide_eq_true h.1) h.2

/-- Each place on the way is a directory, and no link to one. -/
def IsWay (place : Place) (folders : List String) : Prop :=
  ∀ front, front <+: folders → front ≠ [] → disk.get? (place ++ front) = some .directory

theorem isWay_nil (place : Place) : disk.IsWay place [] := by
  intro front hFront hNe
  exact absurd (List.prefix_nil.mp hFront) hNe

theorem isWay_cons_iff (place : Place) (folder : String) (folders : List String) :
    disk.IsWay place (folder :: folders) ↔
      disk.get? (place ++ [folder]) = some .directory ∧ disk.IsWay (place ++ [folder]) folders := by
  constructor
  · intro h
    refine ⟨h [folder] ⟨folders, rfl⟩ (List.cons_ne_nil _ _), fun front hFront hNe => ?_⟩
    rw [List.append_assoc]
    exact h (folder :: front) (List.cons_prefix_cons.mpr ⟨rfl, hFront⟩) (List.cons_ne_nil _ _)
  · rintro ⟨hFolder, hBelow⟩ front hFront hNe
    obtain ⟨first, front, rfl⟩ := List.exists_cons_of_ne_nil hNe
    obtain ⟨rfl, hBefore⟩ := List.cons_prefix_cons.mp hFront
    by_cases hNil : front = []
    · rw [hNil, hFolder]
    · have h := hBelow front hBefore hNil
      rwa [List.append_assoc] at h

section Length

variable {place : Place} {folders : List String} {name : String} {entry : Entry}
  (hWay : disk.IsWay place folders)
  (hEntry : disk.get? (place ++ (folders ++ [name])) = some entry)

include hWay hEntry

theorem exists_get?_take_of_isWay (count : Nat) : ∃ entry',
    disk.get? (place ++ (folders ++ [name]).take (count + 1)) = some entry' := by
  by_cases hLast : count < folders.length
  · refine ⟨.directory, hWay _ ?_ (by simp)⟩
    rw [List.take_append_of_le_length hLast]
    exact List.take_prefix _ _
  · have hLength : (folders ++ [name]).length ≤ count + 1 := by
      rw [List.length_append, List.length_singleton]
      omega
    exact ⟨entry, by rw [List.take_of_length_le hLength, hEntry]⟩

/-- The places on a way are all different, so no way is longer than the list of the places. -/
theorem length_le_of_isWay : (folders ++ [name]).length ≤ disk.entries.length := by
  let names := folders ++ [name]
  let places := (List.range names.length).map fun count => place ++ names.take (count + 1)
  have hNodup : places.Nodup := by
    refine List.Nodup.map_on (fun count hCount count' hCount' hSame => ?_) List.nodup_range
    have hLength := congrArg List.length (List.append_cancel_left hSame)
    simp only [List.length_take, List.mem_range] at hLength hCount hCount'
    omega
  have hSubset : places ⊆ disk.entries.map (·.1) := by
    intro place' hPlace
    obtain ⟨count, hCount, rfl⟩ := List.mem_map.mp hPlace
    obtain ⟨entry', hGet⟩ := disk.exists_get?_take_of_isWay hWay hEntry count
    exact List.mem_map_of_mem (disk.mem_entries_of_get? (by simp) hGet)
  have h := hNodup.length_le_of_subset hSubset
  simpa [places, names] using h

end Length

/-- The trails below a place, down to a depth. -/
def trails : Nat → Place → List Trail
  | 0, _ => []
  | depth + 1, place =>
    (disk.children place).flatMap fun (name, entry) =>
      ⟨[], name, entry⟩ ::
        if entry = .directory then (trails depth (place ++ [name])).map (Trail.under name) else []

theorem mem_trails_succ_iff (depth : Nat) (place : Place) (trail : Trail) :
    trail ∈ disk.trails (depth + 1) place ↔ ∃ name entry,
      disk.get? (place ++ [name]) = some entry ∧ (trail = ⟨[], name, entry⟩ ∨
        entry = .directory ∧ ∃ below ∈ disk.trails depth (place ++ [name]),
          trail = below.under name) := by
  rw [trails, List.mem_flatMap]
  constructor
  · rintro ⟨⟨name, entry⟩, hChild, hTrail⟩
    refine ⟨name, entry, (disk.mem_children_iff place name entry).mp hChild, ?_⟩
    rcases List.mem_cons.mp hTrail with hSelf | hBelow
    · exact .inl hSelf
    · split at hBelow
      · next hDirectory =>
        obtain ⟨below, hMem, rfl⟩ := List.mem_map.mp hBelow
        exact .inr ⟨hDirectory, below, hMem, rfl⟩
      · cases hBelow
  · rintro ⟨name, entry, hEntry, hTrail⟩
    refine ⟨(name, entry), (disk.mem_children_iff place name entry).mpr hEntry, ?_⟩
    rcases hTrail with rfl | ⟨hDirectory, below, hBelow, rfl⟩
    · exact List.mem_cons_self
    · dsimp only
      rw [if_pos hDirectory]
      exact List.mem_cons_of_mem _ (List.mem_map_of_mem hBelow)

theorem mem_trails_iff (depth : Nat) (place : Place) (trail : Trail) :
    trail ∈ disk.trails depth place ↔ trail.names.length ≤ depth ∧
      disk.IsWay place trail.folders ∧ disk.get? (place ++ trail.names) = some trail.entry := by
  induction depth generalizing place trail with
  | zero => simp [trails, trail.names_ne_nil]
  | succ depth ih =>
    obtain ⟨folders, name, entry⟩ := trail
    rw [mem_trails_succ_iff]
    cases folders with
    | nil =>
      constructor
      · rintro ⟨name', entry', hEntry, hTrail | ⟨_, below, _, hTrail⟩⟩
        · cases hTrail
          exact ⟨by simp [Trail.names], disk.isWay_nil place, hEntry⟩
        · cases hTrail
      · rintro ⟨_, _, hEntry⟩
        exact ⟨name, entry, hEntry, .inl rfl⟩
    | cons folder folders =>
      let below : Trail := ⟨folders, name, entry⟩
      have hBelow := ih (place ++ [folder]) below
      rw [List.append_assoc] at hBelow
      rw [isWay_cons_iff]
      constructor
      · rintro ⟨name', entry', hEntry, hTrail | ⟨rfl, below', hMem, hTrail⟩⟩
        · cases hTrail
        · cases hTrail
          obtain ⟨hLength, hWay, hLast⟩ := hBelow.mp hMem
          exact ⟨Nat.succ_le_succ hLength, ⟨hEntry, hWay⟩, hLast⟩
      · rintro ⟨hLength, ⟨hFolder, hWay⟩, hLast⟩
        exact ⟨folder, .directory, hFolder, .inr
          ⟨rfl, below, hBelow.mpr ⟨Nat.le_of_succ_le_succ hLength, hWay, hLast⟩, rfl⟩⟩

theorem exists_names_eq_cons {depth : Nat} {place : Place} {child : String × Entry} {trail : Trail}
    (h : trail ∈ (⟨[], child.1, child.2⟩ ::
      if child.2 = .directory then (disk.trails depth place).map (Trail.under child.1) else [])) :
    ∃ rest, trail.names = child.1 :: rest := by
  rcases List.mem_cons.mp h with rfl | hBelow
  · exact ⟨[], rfl⟩
  · split at hBelow
    · obtain ⟨trail, _, rfl⟩ := List.mem_map.mp hBelow
      exact ⟨_, trail.names_under child.1⟩
    · cases hBelow

theorem pairwise_trails (depth : Nat) (place : Place) :
    (disk.trails depth place).Pairwise fun a b => a.names < b.names := by
  induction depth generalizing place with
  | zero => exact List.Pairwise.nil
  | succ depth ih =>
    rw [trails, List.pairwise_flatMap]
    constructor
    · rintro ⟨name, entry⟩ _
      refine List.pairwise_cons.mpr ⟨fun trail hTrail => ?_, ?_⟩
      · split at hTrail
        · obtain ⟨below, _, rfl⟩ := List.mem_map.mp hTrail
          obtain ⟨first, rest, hNames⟩ := List.exists_cons_of_ne_nil below.names_ne_nil
          rw [Trail.names_under, hNames]
          exact List.Lex.cons List.Lex.nil
        · cases hTrail
      · split
        · rw [List.pairwise_map]
          exact (ih (place ++ [name])).imp fun h => List.Lex.cons h
        · exact List.Pairwise.nil
    · refine (disk.pairwise_children place).imp fun hName trail hTrail trail' hTrail' => ?_
      obtain ⟨rest, hRest⟩ := disk.exists_names_eq_cons hTrail
      obtain ⟨rest', hRest'⟩ := disk.exists_names_eq_cons hTrail'
      rw [hRest, hRest']
      exact List.Lex.rel hName

end Disk

namespace View

theorem nodesOf_eq_flatMap (views : List View) : nodesOf views = views.flatMap nodes := by
  induction views with
  | nil => rfl
  | cons view views ih => rw [nodesOf, ih, List.flatMap_cons]

end View

namespace Disk

variable (disk : Disk)

def nodeOf (directory : String) (trail : Trail) : Node where
  path := Path.extend directory trail.names
  name := trail.name
  isFile := disk.lists (Path.extend directory trail.names) trail.entry

theorem nodes_ofEntry (fuel : Nat) (ancestors : List View.Ancestor) (path name : String)
    (place : Place) (entry : Entry) :
    View.nodes (View.ofEntry disk false fuel ancestors path name place entry) =
      ⟨path, name, disk.lists path entry⟩ ::
        if entry = .directory then (disk.trails fuel place).map (disk.nodeOf path) else [] := by
  induction fuel generalizing ancestors path name place entry with
  | zero => cases entry <;> rfl
  | succ fuel ih =>
    cases entry with
    | file | link => rfl
    | directory =>
      rw [View.ofEntry, View.nodes, View.nodesOf_eq_flatMap, List.flatMap_map, if_pos rfl, trails,
        List.map_flatMap]
      refine congrArg _ (List.flatMap_congr fun child _ => ?_)
      rw [ih, List.map_cons]
      refine congrArg _ ?_
      split
      · rw [List.map_map]
        rfl
      · rfl

theorem nodesBelow_eq_map_trails {root : String} {place : Place}
    (hRoot : disk.stat root = .ok (.directory place)) :
    disk.nodesBelow root = (disk.trails (View.depthLimit disk) place).map (disk.nodeOf root) := by
  have h := disk.nodes_ofEntry (View.depthLimit disk) [] root "" place .directory
  rw [View.ofEntry_eq_folder, View.nodes, if_pos rfl] at h
  rw [nodesBelow_eq hRoot]
  exact (List.cons.inj h).2

theorem isName_of_mem_trails {depth : Nat} {place : Place} {trail : Trail}
    (h : trail ∈ disk.trails depth place) : ∀ name ∈ trail.names, Path.isName name = true := by
  intro name hName
  have hEntry := ((disk.mem_trails_iff depth place trail).mp h).2.2
  refine disk.isName_of_hasName ⟨place ++ trail.names, ?_, List.mem_append_right _ hName⟩
  exact List.mem_map_of_mem (disk.mem_entries_of_get? (by simp [trail.names_ne_nil]) hEntry)

end Disk

end HeaderRename
