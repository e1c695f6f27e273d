import HeaderRename.Proofs.Rename.Hazards
import Mathlib.Data.Finset.Card
import Mathlib.Logic.Relation

/-!
# Chains of renames

In one style each name is taken by one rename at most, so the renames that feed each other form
chains. A pass of a name through the table goes along its chain by one step at least, and by more
where the order of the table allows it. Where no chain is a cycle, the old names that still lie ahead
become fewer with each pass, until none is left. The end of a chain does not depend on the order.
-/
set_option autoImplicit false

namespace HeaderRename.Table

open Rename Relation

section Style

variable (table : Table) (bracket : Bracket)

def Leads (name name' : String) : Prop :=
  ∃ r ∈ table.renames, r.Takes bracket name ∧ r.new = name'

def EndsAt (name last : String) : Prop :=
  ReflTransGen (table.Leads bracket) name last ∧ ∀ name', ¬ table.Leads bracket last name'

variable {table bracket}

theorem rightUnique_leads : Relator.RightUnique (table.Leads bracket) := by
  rintro name _ _ ⟨r, hr, hTakes, rfl⟩ ⟨r', hr', hTakes', rfl⟩
  rw [Takes.eq_of_mem table.nodup hr hr' hTakes hTakes']

theorem EndsAt.unique {name last last' : String} (h : table.EndsAt bracket name last)
    (h' : table.EndsAt bracket name last') : last = last' := by
  obtain ⟨hReach, hEnd⟩ := h
  obtain ⟨hReach', hEnd'⟩ := h'
  rcases ReflTransGen.total_of_right_unique rightUnique_leads hReach hReach' with hOn | hOn
  · rcases hOn.cases_head with hSame | ⟨next, hLeads, _⟩
    · exact hSame
    · exact absurd hLeads (hEnd next)
  · rcases hOn.cases_head with hSame | ⟨next, hLeads, _⟩
    · exact hSame.symm
    · exact absurd hLeads (hEnd' next)

/-- Some renames of the table, passed in any order, leave a name or bring it on along its chain. -/
theorem passAll_cases {renames : List Rename} (hMem : ∀ r ∈ renames, r ∈ table.renames)
    (name : String) :
    (passAll renames bracket name = name ∧ ∀ r ∈ renames, ¬ r.Takes bracket name) ∨
      TransGen (table.Leads bracket) name (passAll renames bracket name) := by
  induction renames generalizing name with
  | nil => exact .inl ⟨rfl, fun r hr => absurd hr List.not_mem_nil⟩
  | cons r rest ih =>
    obtain ⟨hr, hRest⟩ := List.forall_mem_cons.mp hMem
    by_cases hTakes : r.Takes bracket name
    · right
      have hLeads : table.Leads bracket name r.new := ⟨r, hr, hTakes, rfl⟩
      rw [passAll_cons_of_takes hTakes]
      rcases ih hRest r.new with ⟨hSame, _⟩ | hOn
      · rw [hSame]
        exact TransGen.single hLeads
      · exact TransGen.head hLeads hOn
    · have hFirst : ∀ q ∈ [r], ¬ q.Takes bracket name := by simpa using hTakes
      rw [← List.singleton_append, passAll_append_of_forall_not_takes hFirst]
      rcases ih hRest name with ⟨hSame, hNone⟩ | hOn
      · exact .inl ⟨hSame, List.forall_mem_cons.mpr ⟨hTakes, hNone⟩⟩
      · exact .inr hOn

theorem nameAfter_eq_or_transGen (table : Table) (bracket : Bracket) (name : String) :
    (table.nameAfter bracket name = name ∧ ∀ name', ¬ table.Leads bracket name name') ∨
      TransGen (table.Leads bracket) name (table.nameAfter bracket name) := by
  rw [nameAfter_eq_passAll]
  refine (passAll_cases (fun r hr => hr) name).imp_left ?_
  rintro ⟨hSame, hNone⟩
  refine ⟨hSame, ?_⟩
  rintro _ ⟨r, hr, hTakes, rfl⟩
  exact hNone r hr hTakes

theorem reflTransGen_iterate_nameAfter (passes : Nat) (name : String) :
    ReflTransGen (table.Leads bracket) name ((table.nameAfter bracket)^[passes] name) := by
  induction passes generalizing name with
  | zero => exact ReflTransGen.refl
  | succ passes ih =>
    rw [Function.iterate_succ_apply]
    rcases nameAfter_eq_or_transGen table bracket name with ⟨hSame, _⟩ | hOn
    · rw [hSame]
      exact ih name
    · exact hOn.to_reflTransGen.trans (ih _)

end Style

def Acyclic (table : Table) : Prop :=
  ∀ bracket name, ¬ TransGen (table.Leads bracket) name name

/-- A table has no cycle if each of its renames leads to a name of lower rank. -/
theorem acyclic_of_rank_lt (table : Table) (rank : Bracket → String → Nat)
    (h : ∀ r ∈ table.renames, ∀ bracket ∈ r.styles.brackets,
      rank bracket r.new < rank bracket r.old) : table.Acyclic := by
  intro bracket name hCycle
  have hLt : ∀ {name name'}, TransGen (table.Leads bracket) name name' →
      rank bracket name' < rank bracket name := by
    intro name name' hOn
    induction hOn with
    | single hLeads =>
      obtain ⟨r, hr, ⟨hStyle, rfl⟩, rfl⟩ := hLeads
      exact h r hr bracket ((Styles.mem_brackets_iff _ _).mpr hStyle)
    | tail _ hLeads ih =>
      obtain ⟨r, hr, ⟨hStyle, rfl⟩, rfl⟩ := hLeads
      exact (h r hr bracket ((Styles.mem_brackets_iff _ _).mpr hStyle)).trans ih
  exact lt_irrefl _ (hLt hCycle)

open Classical in
/-- The old names on the chain from a name on, itself among them if it is one. -/
noncomputable def ahead (table : Table) (bracket : Bracket) (name : String) : Finset String :=
  {old ∈ (table.renames.map (·.old)).toFinset | ReflTransGen (table.Leads bracket) name old}

theorem mem_ahead_iff (table : Table) (bracket : Bracket) (name old : String) :
    old ∈ table.ahead bracket name ↔
      (∃ r ∈ table.renames, r.old = old) ∧ ReflTransGen (table.Leads bracket) name old := by
  simp [ahead]

theorem card_ahead_le (table : Table) (bracket : Bracket) (name : String) :
    (table.ahead bracket name).card ≤ table.renames.length := by
  have hSubset : table.ahead bracket name ⊆ (table.renames.map (·.old)).toFinset := by
    intro old hOld
    rw [List.mem_toFinset, List.mem_map]
    exact ((mem_ahead_iff table bracket name old).mp hOld).1
  calc (table.ahead bracket name).card
      ≤ (table.renames.map (·.old)).toFinset.card := Finset.card_le_card hSubset
    _ ≤ (table.renames.map (·.old)).length := List.toFinset_card_le _
    _ = table.renames.length := List.length_map _

namespace Acyclic

variable {table : Table} (h : table.Acyclic)

include h

theorem card_ahead_lt {bracket : Bracket} {name name' : String}
    (hOn : TransGen (table.Leads bracket) name name') :
    (table.ahead bracket name').card < (table.ahead bracket name).card := by
  refine Finset.card_lt_card (Finset.ssubset_iff_of_subset ?_ |>.mpr ⟨name, ?_, ?_⟩)
  · intro old hOld
    rw [mem_ahead_iff] at hOld ⊢
    exact ⟨hOld.1, hOn.to_reflTransGen.trans hOld.2⟩
  · obtain ⟨_, ⟨r, hr, hTakes, _⟩, _⟩ := TransGen.head'_iff.mp hOn
    rw [mem_ahead_iff]
    exact ⟨⟨r, hr, hTakes.2.symm⟩, ReflTransGen.refl⟩
  · intro hBack
    rw [mem_ahead_iff] at hBack
    exact h bracket name (hOn.trans_left hBack.2)

theorem not_leads_iterate {bracket : Bracket} (passes : Nat) (name : String)
    (hPasses : (table.ahead bracket name).card ≤ passes) :
    ∀ name', ¬ table.Leads bracket ((table.nameAfter bracket)^[passes] name) name' := by
  induction passes generalizing name with
  | zero =>
    rintro name' ⟨r, hr, hTakes, _⟩
    have hEmpty : table.ahead bracket name = ∅ := Finset.card_eq_zero.mp (Nat.le_zero.mp hPasses)
    have hMem : name ∈ table.ahead bracket name :=
      (mem_ahead_iff _ _ _ _).mpr ⟨⟨r, hr, hTakes.2.symm⟩, ReflTransGen.refl⟩
    rw [hEmpty] at hMem
    exact absurd hMem (Finset.notMem_empty name)
  | succ passes ih =>
    rw [Function.iterate_succ_apply]
    rcases nameAfter_eq_or_transGen table bracket name with ⟨hSame, hEnd⟩ | hOn
    · rw [hSame, Function.iterate_fixed hSame]
      exact hEnd
    · have hLt := h.card_ahead_lt hOn
      exact ih _ (by omega)

/-- As many passes as there are renames bring every name to the end of its chain. -/
theorem endsAt_iterate (bracket : Bracket) {passes : Nat}
    (hPasses : table.renames.length ≤ passes) (name : String) :
    table.EndsAt bracket name ((table.nameAfter bracket)^[passes] name) := by
  constructor
  · exact reflTransGen_iterate_nameAfter passes name
  · exact h.not_leads_iterate passes name ((card_ahead_le table bracket name).trans hPasses)

end Acyclic

section Perm

variable {table table' : Table} (hPerm : table'.renames.Perm table.renames)

include hPerm

theorem leads_eq_of_perm : table'.Leads = table.Leads := by
  funext bracket name name'
  simp only [Leads, hPerm.mem_iff]

theorem endsAt_eq_of_perm : table'.EndsAt = table.EndsAt := by
  funext bracket name last
  rw [EndsAt, EndsAt, leads_eq_of_perm hPerm]

theorem Acyclic.of_perm (h : table.Acyclic) : table'.Acyclic := by
  intro bracket
  rw [leads_eq_of_perm hPerm]
  exact h bracket

end Perm

/-- Renames that are accepted in one order are accepted in any other. -/
theorem exists_ofRenames?_eq_ok_of_perm (table : Table) {renames : List Rename}
    (hPerm : renames.Perm table.renames) :
    ∃ table', ofRenames? table.name table.description renames = .ok table' ∧
      table'.renames = renames := by
  let table' : Table :=
    { name := table.name
      description := table.description
      renames := renames
      valid := fun r hr => table.valid r (hPerm.mem_iff.mp hr)
      nodup := ((hPerm.map _).nodup_iff).mpr table.nodup }
  exact ⟨table', ofRenames?_eq_ok table', rfl⟩

end HeaderRename.Table
