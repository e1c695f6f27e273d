import HeaderRename.Text.Replace

/-!
# Literal substitution rules

Rules are applied to a text one after another, so a later rule can rewrite what an earlier one
wrote. The result records which rules found their pattern, in order; whether the text changed is
decided on the final text.
-/
set_option autoImplicit false

namespace HeaderRename

structure Rule where
  pattern : Text
  replacement : Text
deriving DecidableEq, Repr

namespace Rule

def apply (rule : Rule) (text : Text) : Text :=
  if Text.occurs rule.pattern text then Text.replace rule.pattern rule.replacement text else text

end Rule

structure Rewritten where
  text : Text
  matched : List Rule
  changed : Bool

/-- The text that the rules leave, and those of them that found their pattern. -/
def Rule.applyAll : List Rule → Text → Text × List Rule
  | [], text => (text, [])
  | rule :: rules, text =>
    if Text.occurs rule.pattern text then
      let (final, matched) :=
        applyAll rules (Text.replace rule.pattern rule.replacement text)
      (final, rule :: matched)
    else applyAll rules text

def applyRules (rules : List Rule) (text : Text) : Rewritten :=
  let (final, matched) := Rule.applyAll rules text
  { text := final, matched, changed := decide (final ≠ text) }

/-- The text is what the rules make of it one after another. -/
theorem applyRules_text (rules : List Rule) (text : Text) :
    (applyRules rules text).text = rules.foldl (fun t rule => rule.apply t) text := by
  change (Rule.applyAll rules text).1 = _
  induction rules generalizing text with
  | nil => rfl
  | cons rule rules ih =>
    by_cases h : Text.occurs rule.pattern text <;> simp [Rule.applyAll, Rule.apply, h, ih]

theorem applyRules_changed_iff (rules : List Rule) (text : Text) :
    (applyRules rules text).changed = true ↔ (applyRules rules text).text ≠ text := by
  simp [applyRules]

end HeaderRename
