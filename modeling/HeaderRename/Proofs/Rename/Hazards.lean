import HeaderRename.Proofs.Rename.NameAfter
import Mathlib.Data.List.Nodup

/-!
# Names renamed at most once

No two renames of a table take the same name, so a name can also be changed by the one rename that
takes it, whatever the order of the table. A hazard is what tells the two apart: where none of the
later renames is fed, the name that a rename gives is the last; and the last rename that feeds
another gives a name that is surely changed again.
-/
set_option autoImplicit false

namespace HeaderRename

namespace Rename

theorem feeds_iff (earlier later : Rename) :
    earlier.feeds later = true ↔
      ∃ bracket, earlier.styles.has bracket = true ∧ later.Takes bracket earlier.new := by
  rw [feeds, Bool.and_eq_true, beq_iff_eq, Styles.intersects, Bool.or_eq_true, Bool.and_eq_true,
    Bool.and_eq_true]
  constructor
  · rintro ⟨hName, ⟨hEarlier, hLater⟩ | ⟨hEarlier, hLater⟩⟩
    · exact ⟨.quoted, hEarlier, hLater, hName⟩
    · exact ⟨.angle, hEarlier, hLater, hName⟩
  · rintro ⟨bracket, hEarlier, hLater, hName⟩
    refine ⟨hName, ?_⟩
    cases bracket with
    | quoted => exact Or.inl ⟨hEarlier, hLater⟩
    | angle => exact Or.inr ⟨hEarlier, hLater⟩

theorem Takes.eq_of_mem {renames : List Rename} (hNodup : (renames.map (·.old)).Nodup)
    {r r' : Rename} (hr : r ∈ renames) (hr' : r' ∈ renames) {bracket bracket' : Bracket}
    {name : String} (h : r.Takes bracket name) (h' : r'.Takes bracket' name) : r = r' :=
  List.inj_on_of_nodup_map hNodup hr hr' (h.2.symm.trans h'.2)

/-- What becomes of a name that passes through these renames in order. -/
def passAll (renames : List Rename) (bracket : Bracket) (name : String) : String :=
  renames.foldl (fun name rename => rename.nameAfter bracket name) name

theorem passAll_cons_of_takes {r : Rename} {bracket : Bracket} {name : String}
    (h : r.Takes bracket name) (rest : List Rename) :
    passAll (r :: rest) bracket name = passAll rest bracket r.new := by
  rw [passAll, List.foldl_cons, nameAfter_of_takes h, passAll]

theorem passAll_append_of_forall_not_takes {front : List Rename} {bracket : Bracket} {name : String}
    (h : ∀ r ∈ front, ¬ r.Takes bracket name) (rest : List Rename) :
    passAll (front ++ rest) bracket name = passAll rest bracket name := by
  induction front with
  | nil => rfl
  | cons r front ih =>
    rw [List.forall_mem_cons] at h
    rw [List.cons_append, passAll, List.foldl_cons, nameAfter_of_not_takes h.1]
    exact ih h.2

end Rename

namespace Table

open Rename

theorem nameAfter_eq_passAll (table : Table) (bracket : Bracket) (name : String) :
    table.nameAfter bracket name = passAll table.renames bracket name := rfl

theorem hazardsOf_eq_nil_iff (renames : List Rename) :
    hazardsOf renames = [] ↔ renames.Pairwise fun earlier later => ¬ earlier.feeds later = true := by
  induction renames with
  | nil => simp [hazardsOf]
  | cons earlier rest ih =>
    rw [hazardsOf, List.append_eq_nil_iff, List.map_eq_nil_iff, List.filter_eq_nil_iff, ih,
      List.pairwise_cons]

/-- Without a hazard a name that is taken gets its new name and keeps it. -/
theorem passAll_of_takes {renames : List Rename} (hNodup : (renames.map (·.old)).Nodup)
    (hHazards : hazardsOf renames = []) {r : Rename} (hr : r ∈ renames) {bracket : Bracket}
    {name : String} (h : r.Takes bracket name) : passAll renames bracket name = r.new := by
  obtain ⟨before, after, rfl⟩ := List.append_of_mem hr
  have hBefore : ∀ q ∈ before, ¬ q.Takes bracket name := by
    intro q hq hTakes
    have hSame := Takes.eq_of_mem hNodup (List.mem_append_left _ hq) hr hTakes h
    rw [List.map_append, List.map_cons, List.nodup_middle, List.nodup_cons] at hNodup
    exact hNodup.1 (List.mem_append_left _ (List.mem_map.mpr ⟨q, hq, congrArg _ hSame⟩))
  have hAfter : ∀ q ∈ after, ¬ q.Takes bracket r.new := by
    rw [hazardsOf_eq_nil_iff, List.pairwise_append, List.pairwise_cons] at hHazards
    intro q hq hTakes
    exact hHazards.2.1.1 q hq ((feeds_iff r q).mpr ⟨bracket, h.1, hTakes⟩)
  rw [passAll_append_of_forall_not_takes hBefore, passAll_cons_of_takes h]
  simpa [passAll] using passAll_append_of_forall_not_takes hAfter []

/-- The last rename that feeds another feeds one behind which there is no hazard. -/
theorem exists_last_feeds (renames : List Rename) (h : hazardsOf renames ≠ []) :
    ∃ before earlier rest later, renames = before ++ earlier :: rest ∧ later ∈ rest ∧
      earlier.feeds later = true ∧ hazardsOf rest = [] := by
  induction renames with
  | nil => exact absurd rfl h
  | cons r rest ih =>
    by_cases hRest : hazardsOf rest = []
    · rw [hazardsOf, hRest, List.append_nil, Ne, List.map_eq_nil_iff, List.filter_eq_nil_iff] at h
      push Not at h
      obtain ⟨later, hLater, hFeeds⟩ := h
      exact ⟨[], r, rest, later, rfl, hLater, hFeeds, hRest⟩
    · obtain ⟨before, earlier, rest', later, rfl, hLater⟩ := ih hRest
      exact ⟨r :: before, earlier, rest', later, rfl, hLater⟩

/-- The rename that takes a name in the directives of a style. -/
def taking? (table : Table) (bracket : Bracket) (name : String) : Option Rename :=
  table.renames.find? fun r => r.styles.has bracket && name == r.old

theorem taking?_eq_some_iff (table : Table) (bracket : Bracket) (name : String) (r : Rename) :
    table.taking? bracket name = some r ↔ r ∈ table.renames ∧ r.Takes bracket name := by
  have hTakes : ∀ q : Rename, (q.styles.has bracket && name == q.old) = true ↔
      q.Takes bracket name := by
    intro q
    rw [Bool.and_eq_true, beq_iff_eq, Takes]
  constructor
  · intro h
    rw [taking?] at h
    have hTaken := List.find?_some h
    exact ⟨List.mem_of_find?_eq_some h, (hTakes r).mp hTaken⟩
  · rintro ⟨hr, h⟩
    cases hFind : table.taking? bracket name with
    | none => exact absurd ((hTakes r).mpr h) (List.find?_eq_none.mp hFind r hr)
    | some q =>
      rw [taking?] at hFind
      have hTaken := List.find?_some hFind
      rw [Takes.eq_of_mem table.nodup (List.mem_of_find?_eq_some hFind) hr ((hTakes q).mp hTaken) h]

theorem taking?_eq_none_iff (table : Table) (bracket : Bracket) (name : String) :
    table.taking? bracket name = none ↔ ∀ r ∈ table.renames, ¬ r.Takes bracket name := by
  simp only [Option.eq_none_iff_forall_ne_some, ne_eq, taking?_eq_some_iff, not_and]

/-- What becomes of a name that is renamed once, if a rename takes it, and never again. -/
def nameOnce (table : Table) (bracket : Bracket) (name : String) : String :=
  match table.taking? bracket name with
  | some r => r.new
  | none => name

theorem nameOnce_of_takes {table : Table} {r : Rename} (hr : r ∈ table.renames) {bracket : Bracket}
    {name : String} (h : r.Takes bracket name) : table.nameOnce bracket name = r.new := by
  rw [nameOnce, (table.taking?_eq_some_iff bracket name r).mpr ⟨hr, h⟩]

theorem isValid_nameOnce (table : Table) (bracket : Bracket) (name : String)
    (h : HeaderName.isValid name = true) :
    HeaderName.isValid (table.nameOnce bracket name) = true := by
  unfold nameOnce
  split
  · rename_i r hTaking
    exact (table.valid r ((table.taking?_eq_some_iff bracket name r).mp hTaking).1).2
  · exact h

theorem nameAfter_eq_nameOnce (table : Table) (hHazards : table.hazards = []) :
    table.nameAfter = table.nameOnce := by
  funext bracket name
  cases hTaking : table.taking? bracket name with
  | none =>
    rw [nameOnce, hTaking]
    exact table.nameAfter_of_forall_not_takes bracket name
      ((table.taking?_eq_none_iff bracket name).mp hTaking)
  | some r =>
    obtain ⟨hr, hTakes⟩ := (table.taking?_eq_some_iff bracket name r).mp hTaking
    rw [nameOnce_of_takes hr hTakes]
    exact passAll_of_takes table.nodup hHazards hr hTakes

/-- With a hazard some name is renamed again, unless a rename keeps its name. -/
theorem exists_nameAfter_ne_nameOnce (table : Table) (hMoves : ∀ r ∈ table.renames, r.old ≠ r.new)
    (hHazards : table.hazards ≠ []) :
    ∃ bracket, ∃ r ∈ table.renames,
      table.nameAfter bracket r.old ≠ table.nameOnce bracket r.old := by
  obtain ⟨before, earlier, rest, later, hSplit, hLater, hFeeds, hRest⟩ :=
    exists_last_feeds table.renames hHazards
  obtain ⟨bracket, hStyle, hTakes⟩ := (feeds_iff earlier later).mp hFeeds
  have hNodup := table.nodup
  rw [hSplit, List.map_append, List.map_cons] at hNodup
  have hEarlier : earlier ∈ table.renames := by rw [hSplit]; simp
  have hLaterMem : later ∈ table.renames := by rw [hSplit]; simp [hLater]
  have hTakesOld : earlier.Takes bracket earlier.old := ⟨hStyle, rfl⟩
  have hBefore : ∀ r ∈ before, ¬ r.Takes bracket earlier.old := by
    intro r hr hTakesOld'
    rw [List.nodup_middle, List.nodup_cons] at hNodup
    exact hNodup.1 (List.mem_append_left _ (hTakesOld'.2 ▸ List.mem_map_of_mem hr))
  have hAfter : table.nameAfter bracket earlier.old = later.new := by
    rw [nameAfter_eq_passAll, hSplit, passAll_append_of_forall_not_takes hBefore,
      passAll_cons_of_takes hTakesOld]
    exact passAll_of_takes hNodup.of_append_right.of_cons hRest hLater hTakes
  refine ⟨bracket, earlier, hEarlier, ?_⟩
  rw [hAfter, nameOnce_of_takes hEarlier hTakesOld, hTakes.2]
  exact (hMoves later hLaterMem).symm

theorem nameOnce_eq_of_perm (table table' : Table) (h : table.renames.Perm table'.renames) :
    table.nameOnce = table'.nameOnce := by
  funext bracket name
  have hTaking : table.taking? bracket name = table'.taking? bracket name := by
    apply Option.ext
    intro r
    rw [taking?_eq_some_iff, taking?_eq_some_iff, h.mem_iff]
  rw [nameOnce, nameOnce, hTaking]

end Table

end HeaderRename
