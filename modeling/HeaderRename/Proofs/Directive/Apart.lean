import HeaderRename.Proofs.Directive.Rules
import HeaderRename.Proofs.Text.Positions

/-!
# Occurrences of the rules keep apart

The pattern of a rule has its only number sign at its beginning, and so has what the rule writes. So
no two occurrences in a text overlap, of one rule or of two, and writing a rule's replacement for one
of its occurrences moves the others without making or unmaking any. Only where the replacement is
itself a pattern of the table is there an occurrence again.
-/
set_option autoImplicit false

namespace HeaderRename

theorem Bracket.directive_inj (bracket bracket' : Bracket) {name name' : String}
    (h : HeaderName.isValid name = true) (h' : HeaderName.isValid name' = true) :
    bracket.directive name = bracket'.directive name' ↔ bracket = bracket' ∧ name = name' := by
  constructor
  · intro hSame
    exact eq_of_directive_prefix bracket bracket' name name' h h' _ (List.prefix_refl _)
      (hSame ▸ List.prefix_refl _)
  · rintro ⟨rfl, rfl⟩
    rfl

namespace Text

/-- The text is a directive with a header name, and nothing more. -/
def IsDirective (text : Text) : Prop :=
  ∃ bracket name, HeaderName.isValid name = true ∧ text = Bracket.directive bracket name

theorem IsDirective.isMarked {text : Text} (h : IsDirective text) : IsMarked '#' text := by
  obtain ⟨bracket, name, hName, rfl⟩ := h
  exact ⟨_, bracket.directive_eq name, bracket.numberSign_notMem name hName⟩

/-- Of two directives with which a text begins, neither is longer than the other. -/
theorem IsDirective.prefix_append_iff {text text' : Text} (h : IsDirective text)
    (h' : IsDirective text') (after : Text) : text <+: text' ++ after ↔ text = text' := by
  obtain ⟨bracket, name, hName, rfl⟩ := h
  obtain ⟨bracket', name', hName', rfl⟩ := h'
  constructor
  · intro hPrefix
    obtain ⟨rfl, rfl⟩ := Bracket.eq_of_directive_prefix bracket bracket' name name' hName hName' _
      hPrefix (List.prefix_append _ _)
    rfl
  · intro hSame
    rw [hSame]
    exact List.prefix_append _ _

end Text

theorem Styles.nodup_brackets (styles : Styles) : styles.brackets.Nodup :=
  List.Pairwise.filter _ (by decide)

namespace Rule

/-- The text with the replacement for the pattern at this position. -/
def writeAt (rule : Rule) (position : Nat) (text : Text) : Text :=
  text.take position ++ (rule.replacement ++ text.drop (position + rule.pattern.length))

theorem writeAt_length (rule : Rule) (before after : Text) :
    rule.writeAt before.length (before ++ (rule.pattern ++ after)) =
      before ++ (rule.replacement ++ after) := by
  rw [writeAt, List.take_left, List.drop_length_add_append, List.drop_left]

end Rule

namespace Table

/-- A rule of the table finds its pattern at this position. -/
def FindsAt (table : Table) (rule : Rule) (position : Nat) (text : Text) : Prop :=
  rule ∈ table.rules ∧ Text.StandsAt rule.pattern position text

instance (table : Table) (rule : Rule) (position : Nat) (text : Text) :
    Decidable (table.FindsAt rule position text) :=
  inferInstanceAs (Decidable (rule ∈ table.rules ∧ Text.StandsAt rule.pattern position text))

theorem isDirective_of_mem_rules {table : Table} {rule : Rule} (h : rule ∈ table.rules) :
    Text.IsDirective rule.pattern ∧ Text.IsDirective rule.replacement := by
  obtain ⟨bracket, old, new, hOld, hNew, rfl⟩ := Directive.exists_eq_rule_of_mem_rules table rule h
  exact ⟨⟨bracket, old, hOld, rfl⟩, ⟨bracket, new, hNew, rfl⟩⟩

theorem pairwise_pattern_ne (table : Table) :
    table.rules.Pairwise fun rule rule' => rule.pattern ≠ rule'.pattern := by
  have hNames : table.renames.Pairwise fun r r' => r.old ≠ r'.old := List.pairwise_map.mp table.nodup
  rw [rules, List.pairwise_flatMap]
  constructor
  · intro r hr
    have hOld := (table.valid r hr).1
    rw [Rename.rules, List.pairwise_map]
    apply r.styles.nodup_brackets.imp
    intro bracket bracket' hNe hSame
    exact hNe ((bracket.directive_inj bracket' hOld hOld).mp hSame).1
  · apply hNames.imp_of_mem
    intro r r' hr hr' hNe rule hRule rule' hRule' hSame
    obtain ⟨bracket, _, rfl⟩ := List.mem_map.mp hRule
    obtain ⟨bracket', _, rfl⟩ := List.mem_map.mp hRule'
    exact hNe ((bracket.directive_inj bracket' (table.valid r hr).1 (table.valid r' hr').1).mp
      hSame).2

variable {table : Table} {rule rule' : Rule} {position position' : Nat} {text : Text}

namespace FindsAt

theorem exists_eq_append (h : table.FindsAt rule position text) :
    ∃ before after, before.length = position ∧ text = before ++ (rule.pattern ++ after) := by
  obtain ⟨before, after, hLength, rfl⟩ := Text.standsAt_iff_exists.mp h.2
  exact ⟨before, after, hLength, List.append_assoc _ _ _⟩

theorem isDirective (h : table.FindsAt rule position text) : Text.IsDirective rule.pattern :=
  (isDirective_of_mem_rules h.1).1

theorem pattern_eq (h : table.FindsAt rule position text)
    (h' : table.FindsAt rule' position text) : rule'.pattern = rule.pattern := by
  obtain ⟨before, after, rfl, rfl⟩ := h.exists_eq_append
  have hStands := h'.2.2
  rw [List.drop_left] at hStands
  exact (h'.isDirective.prefix_append_iff h.isDirective after).mp hStands

/-- An occurrence behind another one begins behind its end. -/
theorem le_of_lt (h : table.FindsAt rule position text) (h' : table.FindsAt rule' position' text)
    (hLt : position < position') : position + rule.pattern.length ≤ position' := by
  obtain ⟨before, after, rfl, rfl⟩ := h.exists_eq_append
  obtain ⟨behind, _, rfl⟩ :=
    h'.isDirective.isMarked.exists_behind_of_lt h.isDirective.isMarked hLt h'.2
  omega

theorem writeAt_iff (h : table.FindsAt rule position text) (rule' : Rule) (position' : Nat) :
    table.FindsAt rule' position' (rule.writeAt position text) ↔
      (position' < position ∧ table.FindsAt rule' position' text) ∨
      (position' = position ∧ rule' ∈ table.rules ∧ rule'.pattern = rule.replacement) ∨
      ∃ oldPosition, position < oldPosition ∧ table.FindsAt rule' oldPosition text ∧
        position' + rule.pattern.length = oldPosition + rule.replacement.length := by
  obtain ⟨before, after, rfl, rfl⟩ := h.exists_eq_append
  rw [Rule.writeAt_length]
  by_cases h' : rule' ∈ table.rules
  · obtain ⟨hOld, hNew⟩ := isDirective_of_mem_rules h.1
    have hPattern := (isDirective_of_mem_rules h').1
    have hReplaced := hPattern.isMarked.standsAt_replaced_iff hOld.isMarked hNew.isMarked before
      after position'
    rw [hPattern.prefix_append_iff hNew] at hReplaced
    simpa only [FindsAt, h', true_and] using hReplaced
  · simp only [FindsAt, h', false_and, and_false, exists_false, or_self]

end FindsAt

end Table

namespace Directive

/-- Whatever the text, what the rules of a table find in it lies apart, and there is no position at
which two of them find something. When one occurrence is replaced, those before it stay where they
are and those behind it move by the difference of the lengths; others are not found, unless the
replacement is a pattern as a whole. -/
theorem occurrences_apart (table : Table) (text : Text) :
    (∀ rule ∈ table.rules, Text.occurs rule.pattern text = true ↔
      ∃ position, table.FindsAt rule position text) ∧
    (∀ rule position rule' position', table.FindsAt rule position text →
      table.FindsAt rule' position' text → position < position' →
      position + rule.pattern.length ≤ position') ∧
    (∀ position, table.rules.Pairwise fun rule rule' =>
      ¬ (Text.StandsAt rule.pattern position text ∧ Text.StandsAt rule'.pattern position text)) ∧
    ∀ rule position, table.FindsAt rule position text → ∀ rule' position',
      table.FindsAt rule' position' (rule.writeAt position text) ↔
        (position' < position ∧ table.FindsAt rule' position' text) ∨
        (position' = position ∧ rule' ∈ table.rules ∧ rule'.pattern = rule.replacement) ∨
        ∃ oldPosition, position < oldPosition ∧ table.FindsAt rule' oldPosition text ∧
          position' + rule.pattern.length = oldPosition + rule.replacement.length := by
  refine ⟨?_, ?_, ?_, ?_⟩
  · intro rule hRule
    simp only [Table.FindsAt, hRule, true_and, Text.occurs_iff_exists_standsAt]
  · intro rule position rule' position' h h' hLt
    exact h.le_of_lt h' hLt
  · intro position
    apply table.pairwise_pattern_ne.imp_of_mem
    rintro rule rule' hRule hRule' hNe ⟨hStands, hStands'⟩
    exact hNe (Table.FindsAt.pattern_eq ⟨hRule', hStands'⟩ ⟨hRule, hStands⟩)
  · intro rule position h rule' position'
    exact h.writeAt_iff rule' position'

/-- Two directives without anything between them, of which the first gets shorter. -/
def adjacent : Text :=
  "#include \"llimits.h\"#include <lgc.h>".toList

theorem occurrences_apart_adjacent :
    ∃ first second, Table.lib.FindsAt first 0 adjacent ∧ Table.lib.FindsAt second 20 adjacent ∧
      Text.occurs first.pattern adjacent = true ∧ 0 + first.pattern.length ≤ 20 ∧
      Table.lib.FindsAt second 19 (first.writeAt 0 adjacent) ∧
      ¬ Table.lib.FindsAt first 0 (first.writeAt 0 adjacent) := by
  let first := Bracket.quoted.rule "llimits.h" "limits.h"
  let second := Bracket.angle.rule "lgc.h" "gc.h"
  have hFirst : Table.lib.FindsAt first 0 adjacent := by decide +kernel
  have hSecond : Table.lib.FindsAt second 20 adjacent := by decide +kernel
  obtain ⟨hFound, hApart, _, hWritten⟩ := occurrences_apart Table.lib adjacent
  refine ⟨first, second, hFirst, hSecond, (hFound first hFirst.1).mpr ⟨0, hFirst⟩,
    hApart first 0 second 20 hFirst hSecond (by decide), ?_, by decide +kernel⟩
  exact (hWritten first 0 hFirst second 19).mpr
    (.inr (.inr ⟨20, by decide, hSecond, by decide +kernel⟩))

end Directive

end HeaderRename
