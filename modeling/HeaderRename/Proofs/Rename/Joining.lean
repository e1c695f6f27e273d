import HeaderRename.Proofs.Directive.Rules
import HeaderRename.Proofs.Text.Splitting

/-!
# Rules that are applied without looking first

A rule looks for its pattern before it rewrites a text, and leaves the text alone where it finds
none. It need not look: splitting the text at the pattern and joining the pieces by the replacement
gives the same, whatever the two are. A text has changed when the result differs from it, not when a
rule has found its pattern.
-/
set_option autoImplicit false

namespace HeaderRename

theorem Text.replace_of_occurs_eq_false (old new text : Text) (h : occurs old text = false) :
    replace old new text = text := by
  rw [replace]
  split
  · rename_i hEmpty
    rw [List.isEmpty_iff.mp hEmpty] at h
    cases text <;> cases h
  · exact replaceFrom_of_occurs_eq_false old new text h

namespace Rule

/-- The text split at the pattern and joined by the replacement. -/
def join (rule : Rule) (text : Text) : Text :=
  List.intercalate rule.replacement (Text.splitBy rule.pattern text)

theorem apply_eq_join (rule : Rule) (text : Text) : rule.apply text = rule.join text := by
  rw [join, ← Text.replace_eq_intercalate, apply]
  split
  · rfl
  · rename_i hOccurs
    rw [Text.replace_of_occurs_eq_false _ _ _ (Bool.eq_false_of_not_eq_true hOccurs)]

theorem join_self (pattern text : Text) : join ⟨pattern, pattern⟩ text = text :=
  ((Text.isSplitting_iff pattern text _).mpr rfl).joined

end Rule

theorem applyRules_text_eq_foldl_join (rules : List Rule) (text : Text) :
    (applyRules rules text).text = rules.foldl (fun t rule => rule.join t) text := by
  simp only [applyRules_text, Rule.apply_eq_join]

theorem matched_applyRules_singleton_iff (rule : Rule) (text : Text) :
    (applyRules [rule] text).matched = [rule] ↔ Text.occurs rule.pattern text = true := by
  cases hOccurs : Text.occurs rule.pattern text <;> simp [applyRules, Rule.applyAll, hOccurs]

/-- What the rules leave of a text is what they would leave if each of them split the text at its
pattern and joined the pieces by its replacement, and the text counts as changed just when this
differs from it. There is one way to split a text at the occurrences of a pattern that are read from
the left without overlap. A rule that writes what it finds matches and yet changes nothing. -/
theorem applyRules_eq_joined (rules : List Rule) (text : Text) :
    (∀ pattern text pieces,
      Text.IsSplitting pattern text pieces ↔ pieces = Text.splitBy pattern text) ∧
    (applyRules rules text).text = rules.foldl (fun t rule => rule.join t) text ∧
    ((applyRules rules text).changed = true ↔
      rules.foldl (fun t rule => rule.join t) text ≠ text) ∧
    ∀ pattern, ((applyRules [⟨pattern, pattern⟩] text).matched = [⟨pattern, pattern⟩] ↔
        Text.occurs pattern text = true) ∧
      (applyRules [⟨pattern, pattern⟩] text).changed = false := by
  refine ⟨Text.isSplitting_iff, applyRules_text_eq_foldl_join rules text, ?_, ?_⟩
  · rw [applyRules_changed_iff, applyRules_text_eq_foldl_join]
  · intro pattern
    refine ⟨matched_applyRules_singleton_iff ⟨pattern, pattern⟩ text, ?_⟩
    rw [← Bool.not_eq_true, applyRules_changed_iff, applyRules_text_eq_foldl_join, not_not]
    exact Rule.join_self pattern text

/-- Both rules match, and the second undoes what the first has done. -/
example :
    let rules : List Rule := [⟨['a'], ['b']⟩, ⟨['b'], ['a']⟩]
    (applyRules rules ['a']).matched = rules ∧ (applyRules rules ['a']).changed = false := by
  decide

end HeaderRename
