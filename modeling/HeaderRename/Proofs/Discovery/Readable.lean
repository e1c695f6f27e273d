import HeaderRename.Discovery.Discover
import HeaderRename.Proofs.Discovery.Nodes

/-!
# The files that a walk lists

Whether links are followed or not, what a view shows as a file is one by its own path, and a walk
lists nothing else, whatever its options leave out and whether or not a broken link ends it.
-/
set_option autoImplicit false

namespace HeaderRename

variable (disk : Disk)

namespace Disk

theorem advance_true_ne_link (start : Place) (steps : List String) (place : Place)
    (target : String) : disk.advance true start steps ≠ .stopped (.ok (.link place target)) := by
  induction steps generalizing start with
  | nil => simp [advance]
  | cons step rest ih =>
    unfold advance
    split
    · exact ih start
    · split
      · split
        · simp
        · exact ih start.dropLast
      · dsimp only
        cases disk.get? (start ++ [step]) with
        | none => cases rest <;> simp
        | some entry =>
          cases entry with
          | directory => exact ih (start ++ [step])
          | file bytes => cases rest <;> simp
          | link target' => simp

theorem resolveFrom_true_ne_link (links : Nat) (start : Place) (steps : List String)
    (place : Place) (target : String) :
    disk.resolveFrom true links start steps ≠ .ok (.link place target) := by
  induction links generalizing start steps with
  | zero =>
    rw [resolveFrom]
    cases hAdvance : disk.advance true start steps with
    | stopped result =>
      rintro rfl
      exact disk.advance_true_ne_link start steps place target hAdvance
    | link parent target' rest => simp
  | succ links ih =>
    rw [resolveFrom]
    cases hAdvance : disk.advance true start steps with
    | stopped result =>
      rintro rfl
      exact disk.advance_true_ne_link start steps place target hAdvance
    | link parent target' rest =>
      dsimp only
      split
      · simp
      · exact ih parent _

/-- What there is at the end of all links is a file or a directory. -/
theorem stat_eq_ok_cases {path : String} {found : Found} (h : disk.stat path = .ok found) :
    (∃ place bytes, found = .file place bytes) ∨ ∃ place, found = .directory place := by
  unfold stat resolve at h
  cases found with
  | file place bytes => exact .inl ⟨place, bytes, rfl⟩
  | directory place => exact .inr ⟨place, rfl⟩
  | missing place =>
    split at h
    · cases h
    · cases hResolve : disk.resolveFrom true linkLimit [] (Path.steps path) with
      | error fault => rw [hResolve] at h; cases h
      | ok found => rw [hResolve] at h; cases found <;> cases h
  | link place target =>
    split at h
    · cases h
    · cases hResolve : disk.resolveFrom true linkLimit [] (Path.steps path) with
      | error fault => rw [hResolve] at h; cases h
      | ok found =>
        rw [hResolve] at h
        cases found with
        | link place' target' =>
          exact absurd hResolve (disk.resolveFrom_true_ne_link _ _ _ place' target')
        | file | directory | missing => cases h

end Disk

namespace View

theorem isFile_of_mem_nodes {follow : Bool} {fuel : Nat} {ancestors : List Ancestor}
    {path name : String} {place : Place} {entry : Entry} (h : disk.LeadsTo path place entry)
    {node : Node} (hNode : node ∈ nodes (ofEntry disk follow fuel ancestors path name place entry))
    (hFile : node.isFile = true) : disk.isFile node.path = true := by
  induction fuel generalizing ancestors path name place entry with
  | zero =>
    cases entry with
    | file bytes =>
      obtain rfl := List.mem_singleton.mp hNode
      exact disk.isFile_eq_lists h
    | directory =>
      obtain rfl := List.mem_singleton.mp hNode
      cases hFile
    | link target =>
      obtain rfl := List.mem_singleton.mp hNode
      exact hFile
  | succ fuel ih =>
    cases entry with
    | file bytes =>
      obtain rfl := List.mem_singleton.mp hNode
      exact disk.isFile_eq_lists h
    | directory =>
      rw [ofEntry, nodes, List.mem_cons, mem_nodesOf_iff] at hNode
      rcases hNode with rfl | ⟨view, hView, hNode⟩
      · cases hFile
      · obtain ⟨⟨child, entry⟩, hChild, rfl⟩ := List.mem_map.mp hView
        exact ih (disk.leadsTo_join h hChild) hNode
    | link target =>
      rw [ofEntry] at hNode
      split at hNode
      · obtain rfl := List.mem_singleton.mp hNode
        exact hFile
      · -- the link is followed, and only a way into a directory goes on below it
        cases hStat : disk.stat path with
        | error fault =>
          rw [hStat] at hNode
          obtain rfl := List.mem_singleton.mp hNode
          cases hFile
        | ok found =>
          rw [hStat] at hNode
          rcases disk.stat_eq_ok_cases hStat with ⟨place', bytes, rfl⟩ | ⟨place', rfl⟩
          · obtain rfl := List.mem_singleton.mp hNode
            rw [Disk.isFile, hStat]
          · dsimp only at hNode
            split at hNode
            · obtain rfl := List.mem_singleton.mp hNode
              cases hFile
            · have hLeads : disk.LeadsTo path place' .directory := hStat
              exact ih hLeads hNode

theorem isFile_of_mem_nodes_ofRoot {follow : Bool} {root : String} {place : Place}
    (hRoot : disk.stat root = .ok (.directory place)) {node : Node}
    (hNode : node ∈ nodesOf (ofRoot disk follow root place).children)
    (hFile : node.isFile = true) : disk.isFile node.path = true := by
  have hLeads : disk.LeadsTo root place .directory := hRoot
  have hMem : node ∈ nodes (ofEntry disk follow (depthLimit disk) [] root "" place .directory) := by
    rw [ofEntry_eq_folder]
    exact List.mem_cons_of_mem _ hNode
  exact isFile_of_mem_nodes disk hLeads hMem hFile

end View

namespace Walk

variable (options : WalkOptions)

mutual

/-- The files that a walk visits are files of its view. -/
theorem exists_node_of_mem_visits (levels : List Ignore.Level) {path name : String} :
    (view : View) → .file path name ∈ visits disk options levels view →
      ∃ node ∈ view.nodes, node.path = path ∧ node.isFile = true
  | .leaf path' name' isFile, h => by
    rw [visits] at h
    split at h
    · next hVisited =>
      rw [Bool.and_eq_true] at hVisited
      obtain ⟨rfl, rfl⟩ := Visit.file.inj (List.mem_singleton.mp h)
      exact ⟨⟨path, name, isFile⟩, List.mem_singleton_self _, rfl, hVisited.1⟩
    · cases h
  | .broken .., h => by
    rw [visits] at h
    cases List.mem_singleton.mp h
  | .folder path' name' children, h => by
    rw [visits] at h
    split at h
    · obtain ⟨node, hNode, hPath⟩ := exists_node_of_mem_visitsOf _ children h
      exact ⟨node, List.mem_cons_of_mem _ hNode, hPath⟩
    · cases h

theorem exists_node_of_mem_visitsOf (levels : List Ignore.Level) {path name : String} :
    (views : List View) → .file path name ∈ visitsOf disk options levels views →
      ∃ node ∈ View.nodesOf views, node.path = path ∧ node.isFile = true
  | [], h => by
    rw [visitsOf] at h
    cases h
  | view :: views, h => by
    rw [visitsOf, List.mem_append] at h
    rw [View.nodesOf]
    rcases h with h | h
    · obtain ⟨node, hNode, hPath⟩ := exists_node_of_mem_visits levels view h
      exact ⟨node, List.mem_append_left _ hNode, hPath⟩
    · obtain ⟨node, hNode, hPath⟩ := exists_node_of_mem_visitsOf levels views h
      exact ⟨node, List.mem_append_right _ hNode, hPath⟩

end

theorem isFile_of_mem_rootVisits {root path name : String}
    (h : .file path name ∈ rootVisits disk options root) : disk.isFile path = true := by
  unfold rootVisits at h
  split at h
  · cases h
  · split at h
    · next place hRoot =>
      rw [View.ofRoot, View.ofEntry_eq_folder, visitsFrom] at h
      obtain ⟨node, hNode, rfl, hFile⟩ := exists_node_of_mem_visitsOf disk options _ _ h
      exact View.isFile_of_mem_nodes_ofRoot disk hRoot hNode hFile
    · next hRoot =>
      obtain ⟨rfl, -⟩ := Visit.file.inj (List.mem_singleton.mp h)
      rw [Disk.isFile, hRoot]
    · cases h

theorem exists_visit_of_mem_untilBroken {accepts : String → Bool} {visits : List Visit}
    {path : String} (h : path ∈ (untilBroken accepts visits).1) :
    ∃ name, .file path name ∈ visits := by
  induction visits with
  | nil => cases h
  | cons visit visits ih =>
    cases visit with
    | broken => cases h
    | file path' name =>
      have hCases : path = path' ∨ path ∈ (untilBroken accepts visits).1 := by
        simp only [untilBroken] at h
        split at h
        · exact List.mem_cons.mp h
        · exact .inr h
      rcases hCases with rfl | hRest
      · exact ⟨name, List.mem_cons_self⟩
      · obtain ⟨name, hName⟩ := ih hRest
        exact ⟨name, List.mem_cons_of_mem _ hName⟩

theorem isFile_of_mem_walkRoots {accepts : String → Bool} {roots : List String} {path : String}
    (h : path ∈ (walkRoots disk options accepts roots).files) : disk.isFile path = true := by
  induction roots with
  | nil => cases h
  | cons root roots ih =>
    have hRoot : path ∈ (untilBroken accepts (rootVisits disk options root)).1 →
        disk.isFile path = true := by
      intro hPath
      obtain ⟨name, hVisit⟩ := exists_visit_of_mem_untilBroken hPath
      exact isFile_of_mem_rootVisits disk options hVisit
    rw [walkRoots] at h
    split at h
    · split at h
      · next hStop =>
        rw [hStop] at hRoot
        exact hRoot h
      · next hStop =>
        rw [hStop] at hRoot
        exact (List.mem_append.mp h).elim hRoot ih
    · cases h

/-- Every path that a walk lists leads to a regular file. -/
theorem isFile_of_mem_files {pattern : String} {roots : List String} {path : String}
    (h : path ∈ (files disk options pattern roots).files) : disk.isFile path = true := by
  unfold files at h
  split at h
  · cases h
  · exact isFile_of_mem_walkRoots disk options h

end Walk

namespace Search

theorem files_eq_of_run_walk {search : Search} (hBackend : search.backend = .walk)
    {files : List String} (h : (search.run disk).result = .ok files) :
    files = (Walk.files disk search.options search.pattern search.roots).files := by
  unfold run at h
  rw [hBackend] at h
  split at h
  · cases h
  · split at h
    · cases h
    · unfold walk at h
      dsimp only at h
      cases hError : (Walk.files disk search.options search.pattern search.roots).error with
      | some error => simp [hError] at h
      | none =>
        simp only [hError, Except.ok.injEq] at h
        exact h.symm

theorem exists_fault_of_run_walk {search : Search} (hBackend : search.backend = .walk)
    {error : Error} (h : (search.run disk).result = .error error) :
    ∃ fault, error = .discovery fault := by
  unfold run at h
  rw [hBackend] at h
  split at h
  · exact ⟨_, (Except.error.inj h).symm⟩
  · split at h
    · exact ⟨_, (Except.error.inj h).symm⟩
    · unfold walk at h
      dsimp only at h
      cases hError : (Walk.files disk search.options search.pattern search.roots).error with
      | some fault =>
        simp only [hError, Except.error.injEq] at h
        exact ⟨fault, h.symm⟩
      | none => simp [hError] at h

end Search

end HeaderRename
