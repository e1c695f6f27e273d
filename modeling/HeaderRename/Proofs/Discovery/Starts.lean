import HeaderRename.Proofs.Discovery.Contents

/-!
# Roots that are start points

The listing command takes a root for a start point unless it looks like an expression. Where it
takes all of them so, it is asked for the names that the pattern matches and for nothing else; then
a search leaves the disk as it is, and does not depend on the bytes of the files. Of a root that
looks like an expression neither can be said.
-/
set_option autoImplicit false

namespace HeaderRename

namespace Listing

def nameQuery (follow : Bool) (roots : List String) (pattern : String) : Query where
  starts := roots
  expr := .name pattern
  mode := ⟨if follow then .always else .never, false⟩

theorem leadingOptions_of_start {arg : String} (h : looksLikeExpression true arg = false)
    (links : Links) (rest : List String) :
    leadingOptions links (arg :: rest) = some (links, arg :: rest) := by
  have hNe (text : String) (hText : looksLikeExpression true text = true) : arg ≠ text := by
    rintro rfl
    rw [h] at hText
    cases hText
  rw [leadingOptions]
  · split
    · next level hLevel => simp [looksLikeExpression, hLevel] at h
    · rfl
  -- the other arms of the match want an argument that looks like an option
  · exact hNe "-H" (by decide)
  · exact hNe "-P" (by decide)
  · exact hNe "-L" (by decide)
  · exact hNe "--" (by decide)

theorem ofArguments?_arguments (follow : Bool) {roots : List String} (pattern : String)
    (hNe : roots ≠ []) (hRoots : ∀ root ∈ roots, looksLikeExpression true root = false) :
    Query.ofArguments? (arguments follow roots pattern) = some (nameQuery follow roots pattern) := by
  have hStarts : ∀ root ∈ roots, (!looksLikeExpression true root) = true := by
    intro root hRoot
    rw [hRoots root hRoot]
    rfl
  have hLeading : leadingOptions .never (arguments follow roots pattern) =
      some (if follow then .always else .never, roots ++ ["-name", pattern]) := by
    obtain ⟨root, rest, rfl⟩ := List.exists_cons_of_ne_nil hNe
    have hPlain (links : Links) := leadingOptions_of_start (hRoots root List.mem_cons_self) links
      (rest ++ ["-name", pattern])
    cases follow with
    | false => exact hPlain .never
    | true => exact hPlain .always
  have hName : looksLikeExpression true "-name" = true := by decide
  have hTake : (roots ++ ["-name", pattern]).takeWhile (!looksLikeExpression true ·) = roots := by
    rw [List.takeWhile_append_of_pos hStarts, List.takeWhile_cons_of_neg (by simp [hName]),
      List.append_nil]
  have hDrop : (roots ++ ["-name", pattern]).dropWhile (!looksLikeExpression true ·) =
      ["-name", pattern] := by
    rw [List.dropWhile_append_of_pos hStarts, List.dropWhile_cons_of_neg (by simp [hName])]
  have hParsed (mode : Mode) : parseList 12 mode ["-name", pattern] =
      some ⟨.name pattern, mode, []⟩ := by
    simp [parseList, parseOr, parseAnd, parsePrimary]
  have hSome : roots.isEmpty = false := by simpa using hNe
  rw [Query.ofArguments?, hLeading]
  simp only [Option.bind_eq_bind, Option.bind_some, hTake, hDrop, List.length_cons, List.length_nil]
  rw [hParsed]
  simp [hSome, Parsed.query?, Expr.deletes, Expr.any, nameQuery]

theorem Effect.disk_andThen {first : Effect} {second : Disk → Effect} {disk : Disk}
    (hFirst : first.disk = disk) (hSecond : (second disk).disk = disk) :
    (first.andThen second).disk = disk := by
  unfold Effect.andThen
  split
  · exact hFirst
  · rw [hFirst]
    exact hSecond

theorem Expr.disk_eval (item : Item) (disk : Disk) (e : Expr) (h : e.deletes = false) :
    (e.eval item disk).disk = disk := by
  induction e with
  | name | constant | print | prune | quit => rfl
  | delete => cases h
  | not e ih => exact ih h
  | and a b ihA ihB =>
    obtain ⟨hA, hB⟩ := Bool.or_eq_false_iff.mp h
    rw [eval]
    split
    · exact Effect.disk_andThen (ihA hA) (ihB hB)
    · exact ihA hA
  | or a b ihA ihB =>
    obtain ⟨hA, hB⟩ := Bool.or_eq_false_iff.mp h
    rw [eval]
    split
    · exact ihA hA
    · exact Effect.disk_andThen (ihA hA) (ihB hB)
  | both a b ihA ihB =>
    obtain ⟨hA, hB⟩ := Bool.or_eq_false_iff.mp h
    exact Effect.disk_andThen (ihA hA) (ihB hB)

theorem disk_visit {query : Query} (h : query.expr.deletes = false) (item : Item) (state : State) :
    (visit query item state).1.disk = state.disk :=
  query.expr.disk_eval item state.disk h

mutual

theorem disk_list {query : Query} (h : query.expr.deletes = false) :
    (directory : Option Place) → (place : Place) → (state : State) → (view : View) →
      (list query directory place state view).disk = state.disk
  | directory, place, state, .leaf path name _ => by
    rw [list]
    split
    · rfl
    · exact disk_visit h _ state
  | directory, place, state, .broken path name reason => by
    unfold list
    split
    · rfl
    · split
      · exact disk_visit h _ state
      · rfl
  | directory, place, state, .folder path name children => by
    rw [list]
    split
    · rfl
    · split
      · dsimp only
        split
        · exact disk_listAll h place state children
        · rw [disk_visit h, disk_listAll h place state children]
      · dsimp only
        split
        · exact disk_visit h _ state
        · rw [disk_listAll h place _ children, disk_visit h]

theorem disk_listAll {query : Query} (h : query.expr.deletes = false) (place : Place) :
    (state : State) → (views : List View) → (listAll query place state views).disk = state.disk
  | state, [] => rfl
  | state, view :: views => by
    rw [listAll, disk_listAll h place _ views,
      disk_list h (some place) (place ++ [view.name]) state view]

end

/-- A query that deletes nothing leaves the disk as it is. -/
theorem Query.disk_run {query : Query} (h : query.expr.deletes = false) (disk : Disk) :
    (query.run disk).disk = disk := by
  have hStarts : ∀ (starts : List String) (state : State),
      (starts.foldl (start query) state).disk = state.disk := by
    intro starts
    induction starts with
    | nil => exact fun state => rfl
    | cons path rest ih =>
      intro state
      rw [List.foldl_cons, ih, start]
      split
      · rfl
      · split
        · exact disk_list h none _ state _
        · rfl
  exact hStarts query.starts ⟨disk, [], false, false⟩

end Listing

theorem Finder.run_arguments (finder : Finder) (disk : Disk) (follow : Bool) {roots : List String}
    (pattern : String) (hNe : roots ≠ [])
    (hRoots : ∀ root ∈ roots, Listing.looksLikeExpression true root = false) :
    finder.run disk (Listing.arguments follow roots pattern) =
      (Listing.nameQuery follow roots pattern).run disk := by
  rw [run, Listing.ofArguments?_arguments follow pattern hNe hRoots]

namespace Search

variable (search : Search) (disk : Disk)

/-- Every root is read as a path from the working directory. A walk reads all of them so; the
listing command takes one that looks like an expression for a part of its own. -/
def ReadsRoots : Prop :=
  search.backend = .find → ∀ root ∈ search.roots, Listing.looksLikeExpression true root = false

instance : Decidable search.ReadsRoots :=
  inferInstanceAs (Decidable (_ → _))

variable {search}

theorem readsRoots_of_walk (h : search.backend = .walk) : search.ReadsRoots := by
  intro hFind
  rw [h] at hFind
  cases hFind

theorem disk_walk : (search.walk disk).disk = disk := by
  rw [walk]
  split <;> rfl

section Roots

variable (hNe : search.roots ≠ [])
  (hRoots : ∀ root ∈ search.roots, Listing.looksLikeExpression true root = false)

include hNe hRoots

theorem disk_list : (search.list disk).disk = disk := by
  rw [list]
  split
  · rfl
  · next finder _ =>
    dsimp only
    rw [finder.run_arguments disk _ _ hNe hRoots]
    split <;> exact Listing.Query.disk_run rfl disk

theorem result_list_mapFiles (f : Place → List UInt8 → List UInt8) :
    (search.list (disk.mapFiles f)).result = (search.list disk).result := by
  rw [list, list]
  split
  · rfl
  · next finder _ =>
    dsimp only
    rw [finder.run_arguments _ _ _ hNe hRoots, finder.run_arguments _ _ _ hNe hRoots,
      Listing.Query.run_mapFiles]
    dsimp only
    split <;> rfl

end Roots

theorem ne_nil_of_not_isEmpty {roots : List String} (h : ¬roots.isEmpty = true) : roots ≠ [] := by
  simpa using h

theorem disk_run (hReads : search.ReadsRoots) : (search.run disk).disk = disk := by
  rw [run]
  split
  · rfl
  · next hNe =>
    split
    · rfl
    · dsimp only
      cases hBackend : search.backend with
      | walk =>
        dsimp only
        split <;> exact search.disk_walk disk
      | find =>
        have hDisk := disk_list disk (ne_nil_of_not_isEmpty hNe) (hReads hBackend)
        dsimp only
        split <;> exact hDisk

/-- Where ignore rules are not asked, a search that reads its roots finds nothing else after the
bytes of files have changed. -/
theorem result_run_mapFiles (f : Place → List UInt8 → List UInt8) (hReads : search.ReadsRoots)
    (hIgnore : search.options.respectGitignore = false) :
    (search.run (disk.mapFiles f)).result = (search.run disk).result := by
  rw [run, run, rootFault?_mapFiles]
  split
  · rfl
  · next hNe =>
    split
    · rfl
    · cases hBackend : search.backend with
      | walk =>
        have hWalk : (search.walk (disk.mapFiles f)).result = (search.walk disk).result := by
          rw [walk, walk, Walk.files_mapFiles disk f hIgnore]
          split <;> rfl
        dsimp only
        rw [hWalk]
        cases (search.walk disk).result <;> rfl
      | find =>
        have hList := result_list_mapFiles disk (ne_nil_of_not_isEmpty hNe) (hReads hBackend) f
        dsimp only
        rw [hList]
        cases (search.list disk).result <;> rfl

end Search

end HeaderRename
