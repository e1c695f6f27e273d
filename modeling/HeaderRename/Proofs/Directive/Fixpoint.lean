import HeaderRename.Proofs.Directive.Rules
import HeaderRename.Proofs.Rename.Chains
import Mathlib.Logic.Function.Iterate

/-!
# Passes up to a fixed point

A table whose chains of renames have no cycle comes to rest on every text, after as many passes at
most as it has renames. How far one pass takes a directive depends on the order of the renames; where
the passes end does not.
-/
set_option autoImplicit false

namespace HeaderRename

def Table.pass (table : Table) (text : Text) : Text :=
  (applyRules table.rules text).text

namespace Directive

open Relation

/-- Passes over a text are passes over the names in its directives. -/
theorem iterate_pass_eq_scan (table : Table) (passes : Nat) (text : Text) :
    table.pass^[passes] text = scan (fun bracket => (table.nameAfter bracket)^[passes]) text := by
  induction passes generalizing text with
  | zero => exact (scan_id text).symm
  | succ passes ih =>
    rw [Function.iterate_succ_apply, ih, Table.pass, text_applyRules,
      scan_scan (keepsNames_table table)]
    rfl

section Rest

variable {table : Table} {last : Bracket → String → String}
  (hLast : ∀ bracket name, table.EndsAt bracket name (last bracket name))

include hLast

theorem keepsNames_last : KeepsNames last := by
  intro bracket name hName
  rcases (hLast bracket name).1.cases_tail with hSame | ⟨_, _, r, hr, _, hNew⟩
  · rwa [hSame]
  · rw [← hNew]
    exact (table.valid r hr).2

theorem changed_applyRules_scan_last (text : Text) :
    (applyRules table.rules (scan last text)).changed = false := by
  rw [← Bool.not_eq_true, applyRules_changed_iff, not_not, text_applyRules,
    scan_eq_self_iff (keepsNames_table table), tokens_scan (keepsNames_last hLast)]
  intro bracket name hToken
  obtain ⟨token, _, hRename⟩ := List.mem_map.mp hToken
  cases token with
  | symbol c => cases hRename
  | directive bracket' name' =>
    cases hRename
    apply table.nameAfter_of_forall_not_takes
    intro r hr hTakes
    exact (hLast bracket name').2 r.new ⟨r, hr, hTakes, rfl⟩

theorem iterate_pass_eq_scan_last (hAcyclic : table.Acyclic) {passes : Nat}
    (hPasses : table.renames.length ≤ passes) (text : Text) :
    table.pass^[passes] text = scan last text := by
  rw [iterate_pass_eq_scan]
  apply scan_congr
  intro bracket name _
  exact (hAcyclic.endsAt_iterate bracket hPasses name).unique (hLast bracket name)

end Rest

/-- Where no chain of renames is a cycle, as many passes as there are renames bring every text to
rest. Each directive then names the end of its chain, all else is as it was, and a further pass
changes nothing. Every other order of the renames is accepted too and brings the text to the same. -/
theorem passes_end_of_acyclic (table : Table) (h : table.Acyclic) :
    ∃ last : Bracket → String → String,
      (∀ bracket name, table.EndsAt bracket name (last bracket name)) ∧
      ∀ text : Text,
        tokens (scan last text) = (tokens text).map (Token.rename last) ∧
        (applyRules table.rules (scan last text)).changed = false ∧
        (∀ passes, table.renames.length ≤ passes → table.pass^[passes] text = scan last text) ∧
        ∀ renames, renames.Perm table.renames →
          ∃ table', Table.ofRenames? table.name table.description renames = .ok table' ∧
            (applyRules table'.rules (scan last text)).changed = false ∧
            ∀ passes, renames.length ≤ passes → table'.pass^[passes] text = scan last text := by
  let last : Bracket → String → String :=
    fun bracket => (table.nameAfter bracket)^[table.renames.length]
  have hLast : ∀ bracket name, table.EndsAt bracket name (last bracket name) :=
    fun bracket name => h.endsAt_iterate bracket le_rfl name
  refine ⟨last, hLast, fun text => ⟨tokens_scan (keepsNames_last hLast) text,
    changed_applyRules_scan_last hLast text,
    fun passes hPasses => iterate_pass_eq_scan_last hLast h hPasses text, ?_⟩⟩
  intro renames hPerm
  obtain ⟨table', hAccepted, rfl⟩ := table.exists_ofRenames?_eq_ok_of_perm hPerm
  have hLast' : ∀ bracket name, table'.EndsAt bracket name (last bracket name) := by
    rw [Table.endsAt_eq_of_perm hPerm]
    exact hLast
  refine ⟨table', hAccepted, changed_applyRules_scan_last hLast' text, ?_⟩
  intro passes hPasses
  exact iterate_pass_eq_scan_last hLast' (h.of_perm hPerm) hPasses text

/-- Each rename feeds the one before it, so a pass takes a directive on by one step only. -/
def backward : Table :=
  .ofAccepted "backward" "includes"
    [⟨"c.h", "d.h", ⟨true, true⟩⟩, ⟨"b.h", "c.h", ⟨true, false⟩⟩, ⟨"a.h", "b.h", ⟨true, true⟩⟩]
    (by decide +kernel)

def threeSteps : Text :=
  "#include \"a.h\"\n#include <a.h>\n".toList

theorem passes_end_of_acyclic_backward :
    backward.Acyclic ∧
      (applyRules backward.rules (backward.pass^[2] threeSteps)).changed = true ∧
      backward.pass^[3] threeSteps = "#include \"d.h\"\n#include <b.h>\n".toList ∧
      ∃ table', Table.ofRenames? "backward" "includes" backward.renames.reverse = .ok table' ∧
        table'.pass^[3] threeSteps = backward.pass^[3] threeSteps := by
  have hAcyclic : backward.Acyclic :=
    backward.acyclic_of_rank_lt (fun _ name => 'e'.toNat - (name.toList.headD 'e').toNat)
      (by decide +kernel)
  obtain ⟨last, _, hText⟩ := passes_end_of_acyclic backward hAcyclic
  obtain ⟨_, _, hPasses, hOrders⟩ := hText threeSteps
  obtain ⟨table', hAccepted, _, hPasses'⟩ :=
    hOrders backward.renames.reverse (List.reverse_perm _)
  refine ⟨hAcyclic, by decide +kernel, by decide +kernel, table', hAccepted, ?_⟩
  rw [hPasses' 3 (by decide), hPasses 3 (by decide)]

end Directive

end HeaderRename
