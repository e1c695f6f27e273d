import HeaderRename.Proofs.Directive.Rules
import HeaderRename.Proofs.Rename.Hazards
import HeaderRename.Rename.Builtin

/-!
# The order of the renames

The hazards of a table tell whether its order matters. Without one, the rules that are applied in
turn do to every text what they would do at once, and any other order that has no hazard either does
the same. With one, some directive is rewritten twice, unless a rename keeps its name.
-/
set_option autoImplicit false

namespace HeaderRename.Directive

theorem keepsNames_nameOnce (table : Table) : KeepsNames table.nameOnce :=
  table.isValid_nameOnce

theorem text_applyRules_eq_scan_nameOnce (table : Table) (h : table.hazards = []) (text : Text) :
    (applyRules table.rules text).text = scan table.nameOnce text := by
  rw [text_applyRules, table.nameAfter_eq_nameOnce h]

theorem exists_text_applyRules_ne_scan_nameOnce (table : Table)
    (hMoves : ∀ r ∈ table.renames, r.old ≠ r.new) (hHazards : table.hazards ≠ []) :
    ∃ text, (applyRules table.rules text).text ≠ scan table.nameOnce text := by
  obtain ⟨bracket, r, hr, hName⟩ := table.exists_nameAfter_ne_nameOnce hMoves hHazards
  refine ⟨bracket.directive r.old, ?_⟩
  rw [text_applyRules, Ne, scan_eq_scan_iff (keepsNames_table table) (keepsNames_nameOnce table),
    tokens_directive bracket r.old (table.valid r hr).1]
  exact fun h => hName (h bracket r.old List.mem_cons_self)

/-- Where a table has no hazard, its rules change each directive at most once, by the one rename that
takes its name in its style; where it has one and each rename moves its name, they do not. So the
orders of its renames that have no hazard all rewrite every text alike. -/
theorem applyRules_eq_scan_nameOnce (table : Table) :
    (∀ bracket name r, table.taking? bracket name = some r ↔
      r ∈ table.renames ∧ r.Takes bracket name) ∧
    (table.hazards = [] → ∀ text : Text,
      (applyRules table.rules text).text = scan table.nameOnce text) ∧
    ((∀ r ∈ table.renames, r.old ≠ r.new) → table.hazards ≠ [] →
      ∃ text : Text, (applyRules table.rules text).text ≠ scan table.nameOnce text) ∧
    ∀ table' : Table, table.renames.Perm table'.renames →
      table.hazards = [] → table'.hazards = [] → ∀ text : Text,
        (applyRules table.rules text).text = (applyRules table'.rules text).text := by
  refine ⟨table.taking?_eq_some_iff, text_applyRules_eq_scan_nameOnce table,
    exists_text_applyRules_ne_scan_nameOnce table, ?_⟩
  intro table' hPerm hHazards hHazards' text
  rw [text_applyRules_eq_scan_nameOnce table hHazards,
    text_applyRules_eq_scan_nameOnce table' hHazards', table.nameOnce_eq_of_perm table' hPerm]

/-- The second rename changes what the first gives. -/
def chain : Table :=
  .ofAccepted "chain" "includes"
    [⟨"old.h", "mid.h", ⟨true, true⟩⟩, ⟨"mid.h", "new.h", ⟨true, false⟩⟩] (by decide +kernel)

theorem applyRules_eq_scan_nameOnce_chain :
    (Table.lib.hazards = [] ∧ ∀ text : Text,
      (applyRules Table.lib.rules text).text = scan Table.lib.nameOnce text) ∧
    (∀ r ∈ chain.renames, r.old ≠ r.new) ∧ chain.hazards ≠ [] ∧
      ∃ text : Text, (applyRules chain.rules text).text ≠ scan chain.nameOnce text := by
  have hLib : Table.lib.hazards = [] := by decide +kernel
  have hMoves : ∀ r ∈ chain.renames, r.old ≠ r.new := by decide +kernel
  have hChain : chain.hazards ≠ [] := by decide +kernel
  exact ⟨⟨hLib, (applyRules_eq_scan_nameOnce Table.lib).2.1 hLib⟩, hMoves, hChain,
    (applyRules_eq_scan_nameOnce chain).2.2.1 hMoves hChain⟩

end HeaderRename.Directive
