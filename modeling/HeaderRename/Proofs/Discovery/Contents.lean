import HeaderRename.Discovery.Discover
import HeaderRename.Proofs.Disk.Contents

/-!
# Discovery and the contents of files

What a walk sees, and what the listing command lists, is told by the names and kinds of the entries
and by where links lead. Where ignore rules are not asked, a search so finds the same on two disks
that differ in the bytes of regular files alone.
-/
set_option autoImplicit false

namespace HeaderRename

variable (disk : Disk) (f : Place → List UInt8 → List UInt8)

namespace Disk

def childAt? (place : Place) (e : Place × Entry) : Option (String × Entry) :=
  match Place.below? place e.1 with
  | some [name] => some (name, e.2)
  | _ => none

theorem childAt?_eq_some_iff (place : Place) (e : Place × Entry) (child : String × Entry) :
    childAt? place e = some child ↔ e = (place ++ [child.1], child.2) := by
  obtain ⟨place', entry⟩ := e
  obtain ⟨name, entry'⟩ := child
  unfold childAt?
  constructor
  · intro h
    split at h
    · next name' hBelow =>
      obtain rfl := (Place.below?_eq_some_iff _ _ _).mp hBelow
      cases h
      rfl
    · cases h
  · intro h
    cases h
    rw [(Place.below?_eq_some_iff place _ [name]).mpr rfl]

theorem children_eq (place : Place) :
    disk.children place = (disk.entries.filterMap (childAt? place)).mergeSort
      fun a b => decide (a.1 ≤ b.1) := rfl

theorem childAt?_mapBytes (place : Place) (e : Place × Entry) :
    childAt? place (e.1, e.2.mapBytes (f e.1)) =
      (childAt? place e).map fun e => (e.1, e.2.mapBytes (f (place ++ [e.1]))) := by
  obtain ⟨place', entry⟩ := e
  unfold childAt?
  cases hBelow : Place.below? place place' with
  | none => rfl
  | some names =>
    rw [Place.below?_eq_some_iff] at hBelow
    subst hBelow
    rcases names with _ | ⟨name, _ | ⟨_, _⟩⟩ <;> rfl

theorem children_mapFiles (place : Place) :
    (disk.mapFiles f).children place =
      (disk.children place).map fun e => (e.1, e.2.mapBytes (f (place ++ [e.1]))) := by
  have hChildAt : (disk.mapFiles f).entries.filterMap (childAt? place) =
      (disk.entries.filterMap (childAt? place)).map
        fun e => (e.1, e.2.mapBytes (f (place ++ [e.1]))) := by
    rw [entries_mapFiles, List.filterMap_map, List.map_filterMap]
    exact List.filterMap_congr fun e _ => childAt?_mapBytes f place e
  rw [children_eq, children_eq, hChildAt]
  symm
  apply List.map_mergeSort
  intro a _ b _
  rfl

theorem isFile_mapFiles (path : String) : (disk.mapFiles f).isFile path = disk.isFile path := by
  rw [isFile, isFile, stat_mapFiles]
  rcases disk.stat path with fault | place | place | ⟨place, target⟩ | place <;> rfl

theorem lstat_mapFiles (path : String) :
    (disk.mapFiles f).lstat path = (disk.lstat path).map (Found.mapBytes f) := by
  rw [lstat, lstat, resolve_mapFiles]
  rcases disk.resolve false path with fault | place | place | ⟨place, target⟩ | place <;> rfl

end Disk

namespace View

theorem exists_depthLimit_eq_succ : ∃ fuel, depthLimit disk = fuel + 1 := by
  have hPos : 0 < depthLimit disk := Nat.mul_pos (by omega) (by omega)
  exact Nat.exists_eq_succ_of_ne_zero (Nat.ne_of_gt hPos)

theorem depthLimit_mapFiles : depthLimit (disk.mapFiles f) = depthLimit disk := by
  rw [depthLimit, depthLimit, Disk.entries_mapFiles, List.length_map]

theorem ofEntry_file (follow : Bool) (fuel : Nat) (ancestors : List Ancestor) (path name : String)
    (place : Place) (bytes : List UInt8) :
    ofEntry disk follow fuel ancestors path name place (.file bytes) = .leaf path name true := by
  cases fuel <;> rfl

theorem ofEntry_mapFiles (follow : Bool) (fuel : Nat) (ancestors : List Ancestor)
    (path name : String) (place : Place) (entry : Entry) (g : List UInt8 → List UInt8) :
    ofEntry (disk.mapFiles f) follow fuel ancestors path name place (entry.mapBytes g) =
      ofEntry disk follow fuel ancestors path name place entry := by
  induction fuel generalizing ancestors path name place entry g with
  | zero =>
    cases entry with
    | file bytes => rfl
    | directory => rfl
    | link target => simp only [Entry.mapBytes, ofEntry, Disk.isFile_mapFiles]
  | succ fuel ih =>
    have hFolder : ∀ (ancestors : List Ancestor) (path name : String) (place : Place),
        ofEntry (disk.mapFiles f) follow (fuel + 1) ancestors path name place .directory =
          ofEntry disk follow (fuel + 1) ancestors path name place .directory := by
      intro ancestors path name place
      simp only [ofEntry, Disk.children_mapFiles, List.map_map]
      congr 1
      apply List.map_congr_left
      rintro ⟨child, entry⟩ _
      exact ih _ _ _ _ _ _
    cases entry with
    | file bytes => rfl
    | directory => exact hFolder ancestors path name place
    | link target =>
      simp only [Entry.mapBytes, ofEntry, Disk.isFile_mapFiles, Disk.stat_mapFiles]
      split
      · rfl
      · rcases disk.stat path with fault | ⟨place, bytes⟩ | place | ⟨place, target⟩ | place
        · rfl
        · rfl
        · simp only [Except.map, Disk.Found.mapBytes]
          split
          · rfl
          · exact ih ancestors path name place .directory g
        · rfl
        · rfl

theorem ofRoot_mapFiles (follow : Bool) (path : String) (place : Place) :
    ofRoot (disk.mapFiles f) follow path place = ofRoot disk follow path place := by
  rw [ofRoot, ofRoot, depthLimit_mapFiles]
  exact ofEntry_mapFiles disk f follow _ [] path "" place .directory id

end View

namespace Walk

theorem below_of_not_ignore {options : WalkOptions} (hIgnore : options.respectGitignore = false)
    (levels : List Ignore.Level) (path : String) : below disk options levels path = [] := by
  rw [below, hIgnore, if_neg Bool.false_ne_true]

mutual

/-- A walk asks the disk for ignore files alone. -/
theorem visits_eq_of_not_ignore {options : WalkOptions} (hIgnore : options.respectGitignore = false)
    (disk' : Disk) (levels : List Ignore.Level) :
    (view : View) → visits disk options levels view = visits disk' options levels view
  | .leaf .. => by rw [visits, visits]
  | .broken .. => by rw [visits, visits]
  | .folder path name children => by
    rw [visits, visits, below_of_not_ignore disk hIgnore, below_of_not_ignore disk' hIgnore,
      visitsOf_eq_of_not_ignore hIgnore disk' [] children]

theorem visitsOf_eq_of_not_ignore {options : WalkOptions}
    (hIgnore : options.respectGitignore = false) (disk' : Disk) (levels : List Ignore.Level) :
    (views : List View) → visitsOf disk options levels views = visitsOf disk' options levels views
  | [] => by rw [visitsOf, visitsOf]
  | view :: views => by
    rw [visitsOf, visitsOf, visits_eq_of_not_ignore hIgnore disk' levels view,
      visitsOf_eq_of_not_ignore hIgnore disk' levels views]

end

section NoIgnoreRules

variable {options : WalkOptions} (hIgnore : options.respectGitignore = false)

include hIgnore

theorem visitsFrom_eq_of_not_ignore (disk' : Disk) (view : View) :
    visitsFrom disk options view = visitsFrom disk' options view := by
  cases view with
  | leaf | broken => exact visits_eq_of_not_ignore disk hIgnore disk' [] _
  | folder path name children =>
    rw [visitsFrom, visitsFrom, below_of_not_ignore disk hIgnore, below_of_not_ignore disk' hIgnore]
    exact visitsOf_eq_of_not_ignore disk hIgnore disk' [] children

theorem rootVisits_mapFiles (root : String) :
    rootVisits (disk.mapFiles f) options root = rootVisits disk options root := by
  unfold rootVisits
  split
  · rfl
  · rw [Disk.stat_mapFiles]
    rcases disk.stat root with fault | ⟨place, bytes⟩ | place | ⟨place, target⟩ | place <;> try rfl
    simp only [Except.map, Disk.Found.mapBytes]
    rw [View.ofRoot_mapFiles]
    exact visitsFrom_eq_of_not_ignore _ hIgnore disk _

theorem files_mapFiles (pattern : String) (roots : List String) :
    files (disk.mapFiles f) options pattern roots = files disk options pattern roots := by
  have hRoots : ∀ accepts, walkRoots (disk.mapFiles f) options accepts roots =
      walkRoots disk options accepts roots := by
    intro accepts
    induction roots with
    | nil => rfl
    | cons root roots ih =>
      rw [walkRoots, walkRoots, disk.pathExists_mapFiles, rootVisits_mapFiles disk f hIgnore, ih]
  unfold files
  cases Glob.compile pattern with
  | error fault => rfl
  | ok expr => exact hRoots _

end NoIgnoreRules

end Walk

namespace Listing

theorem startPlace?_mapFiles (path : String) :
    startPlace? (disk.mapFiles f) path = startPlace? disk path := by
  unfold startPlace?
  simp only [Disk.resolveFrom_mapFiles]
  cases (Path.names path).getLast? with
  | none => rfl
  | some name =>
    dsimp only
    split
    · rfl
    · rcases disk.resolveFrom true Disk.linkLimit [] (Path.names path).dropLast with
        fault | ⟨place, bytes⟩ | place | ⟨place, target⟩ | place <;> try rfl
      have hDirectory : ((disk.mapFiles f).get? (place ++ [name]) != some .directory) =
          (disk.get? (place ++ [name]) != some .directory) := by
        rw [Disk.get?_mapFiles]
        rcases disk.get? (place ++ [name]) with _ | ⟨bytes | _ | target⟩ <;> rfl
      simp only [Except.map, Disk.Found.mapBytes, hDirectory]

theorem Item.delete?_mapFiles (item : Item) :
    item.delete? (disk.mapFiles f) = (item.delete? disk).map (·.mapFiles f) := by
  have hPlace : item.place? (disk.mapFiles f) = item.place? disk := by
    unfold Item.place?
    rw [startPlace?_mapFiles]
  unfold Item.delete?
  rw [hPlace]
  split
  · rfl
  · cases item.place? disk with
    | none => rfl
    | some place => exact disk.unlink?_mapFiles f place

def Effect.mapFiles (effect : Effect) : Effect :=
  { effect with disk := effect.disk.mapFiles f }

namespace Effect

variable (effect : Effect)

@[simp] theorem disk_mapFiles : (effect.mapFiles f).disk = effect.disk.mapFiles f := rfl

@[simp] theorem value_mapFiles : (effect.mapFiles f).value = effect.value := rfl

@[simp] theorem quit_mapFiles : (effect.mapFiles f).quit = effect.quit := rfl

theorem andThen_mapFiles (first : Effect) {second : Disk → Effect}
    (h : ∀ disk : Disk, second (disk.mapFiles f) = (second disk).mapFiles f) :
    (first.mapFiles f).andThen second = (first.andThen second).mapFiles f := by
  unfold andThen
  rw [disk_mapFiles, quit_mapFiles, h]
  split <;> rfl

end Effect

/-- An expression is told by the tree alone, and what it deletes is deleted whatever it holds. -/
theorem Expr.eval_mapFiles (item : Item) (e : Expr) (disk : Disk) :
    e.eval item (disk.mapFiles f) = (e.eval item disk).mapFiles f := by
  induction e generalizing disk with
  | name | constant | print | prune | quit => rfl
  | delete =>
    rw [eval, eval, Item.delete?_mapFiles]
    cases item.delete? disk <;> rfl
  | not e ih =>
    rw [eval, eval, ih]
    rfl
  | and a b ihA ihB =>
    rw [eval, eval, ihA, Effect.andThen_mapFiles f _ ihB, Effect.value_mapFiles]
    split <;> rfl
  | or a b ihA ihB =>
    rw [eval, eval, ihA, Effect.andThen_mapFiles f _ ihB, Effect.value_mapFiles]
    split <;> rfl
  | both a b ihA ihB => rw [eval, eval, ihA, Effect.andThen_mapFiles f _ ihB]

def State.mapFiles (state : State) : State :=
  { state with disk := state.disk.mapFiles f }

@[simp] theorem State.disk_mapFiles (state : State) :
    (state.mapFiles f).disk = state.disk.mapFiles f := rfl

@[simp] theorem State.quit_mapFiles (state : State) :
    (state.mapFiles f).quit = state.quit := rfl

theorem visit_mapFiles (query : Query) (item : Item) (state : State) :
    visit query item (state.mapFiles f) =
      ((visit query item state).1.mapFiles f, (visit query item state).2) := by
  rw [visit, visit, State.disk_mapFiles, Expr.eval_mapFiles]
  rfl

mutual

theorem list_mapFiles (query : Query) : (directory : Option Place) → (place : Place) →
    (state : State) → (view : View) →
      list query directory place (state.mapFiles f) view =
        (list query directory place state view).mapFiles f
  | directory, place, state, .leaf path name _ => by
    rw [list, list, visit_mapFiles, State.quit_mapFiles]
    split <;> rfl
  | directory, place, state, .broken path name reason => by
    unfold list
    rw [visit_mapFiles, State.quit_mapFiles]
    split
    · rfl
    · split <;> rfl
  | directory, place, state, .folder path name children => by
    rw [list, list, visit_mapFiles, State.quit_mapFiles]
    split
    · rfl
    · dsimp only
      rw [listAll_mapFiles query place state children,
        listAll_mapFiles query place (visit query ⟨path, name, directory⟩ state).1 children,
        visit_mapFiles, State.quit_mapFiles]
      split
      · split <;> rfl
      · split <;> rfl

theorem listAll_mapFiles (query : Query) (place : Place) :
    (state : State) → (views : List View) →
      listAll query place (state.mapFiles f) views = (listAll query place state views).mapFiles f
  | state, [] => rfl
  | state, view :: views => by
    rw [listAll, listAll, list_mapFiles query (some place) (place ++ [view.name]) state view,
      listAll_mapFiles query place _ views]

end

theorem startView?_mapFiles (links : Links) (path : String) :
    startView? (disk.mapFiles f) links path = startView? disk links path := by
  have hFolder (follow : Bool) := View.ofEntry_mapFiles disk f follow (View.depthLimit disk) [] path
    (baseName path)
  have hOk : ((disk.lstat path).map (Disk.Found.mapBytes f)).isOk = (disk.lstat path).isOk := by
    cases disk.lstat path <;> rfl
  have hFound :
      (if links = .never then (disk.mapFiles f).lstat path else (disk.mapFiles f).stat path) =
        (if links = .never then disk.lstat path else disk.stat path).map (Disk.Found.mapBytes f) := by
    rw [Disk.stat_mapFiles, Disk.lstat_mapFiles]
    split <;> rfl
  unfold startView?
  dsimp only
  rw [hFound, Disk.lstat_mapFiles, View.depthLimit_mapFiles, hOk]
  rcases (if links = .never then disk.lstat path else disk.stat path) with
    fault | ⟨place, bytes⟩ | place | ⟨place, target⟩ | place
  · cases fault <;> rfl
  · rfl
  · exact congrArg (fun view => some (place, view)) (hFolder _ place .directory id)
  · rfl
  · rfl

theorem start_mapFiles (query : Query) (state : State) (path : String) :
    start query (state.mapFiles f) path = (start query state path).mapFiles f := by
  rw [start, start, State.quit_mapFiles, State.disk_mapFiles, startView?_mapFiles]
  split
  · rfl
  · rcases startView? state.disk query.mode.links path with _ | ⟨place, view⟩
    · rfl
    · exact list_mapFiles f query none place state view

/-- A query prints the same and deletes the same whatever bytes the files hold. -/
theorem Query.run_mapFiles (query : Query) :
    query.run (disk.mapFiles f) =
      { query.run disk with disk := (query.run disk).disk.mapFiles f } := by
  have hStarts : ∀ (starts : List String) (state : State),
      starts.foldl (start query) (state.mapFiles f) =
        (starts.foldl (start query) state).mapFiles f := by
    intro starts
    induction starts with
    | nil => exact fun state => rfl
    | cons path rest ih =>
      intro state
      rw [List.foldl_cons, List.foldl_cons, start_mapFiles, ih]
  have hStart := hStarts query.starts ⟨disk, [], false, false⟩
  unfold Query.run
  exact congrArg (fun state : State => (⟨state.disk, if state.failed then 1 else 0,
    output state.printed⟩ : Answer)) hStart

end Listing

namespace Search

theorem rootFault?_mapFiles : rootFault? (disk.mapFiles f) = rootFault? disk := by
  funext root
  rw [rootFault?, rootFault?, Disk.stat_mapFiles]
  rcases disk.stat root with fault | place | place | ⟨place, target⟩ | place <;> rfl

end Search

end HeaderRename
