import HeaderRename.Proofs.Directive.Rules

/-!
# Applying a table twice

A second application of a table changes no text just when the table settles the name that each of
its renames takes. A table whose new names are none of its old ones does, and what it leaves holds
none of its patterns. Both built-in tables are such.
-/
set_option autoImplicit false

namespace HeaderRename

namespace Table

/-- A second application leaves every text as the first has left it. -/
def IsIdempotent (table : Table) : Prop :=
  ∀ text : Text, (applyRules table.rules (applyRules table.rules text).text).changed = false

/-- Each name that a rename takes is changed no further once it has passed through the table. -/
def Settles (table : Table) : Prop :=
  ∀ r ∈ table.renames, ∀ bracket, r.styles.has bracket = true →
    table.nameAfter bracket (table.nameAfter bracket r.old) = table.nameAfter bracket r.old

/-- No rule finds its pattern in what an application leaves. -/
def Exhausts (table : Table) : Prop :=
  ∀ text : Text, ∀ rule ∈ table.rules,
    Text.occurs rule.pattern (applyRules table.rules text).text = false

def NewNamesAreFree (table : Table) : Prop :=
  ∀ r ∈ table.renames, ∀ r' ∈ table.renames, r.new ≠ r'.old

instance (table : Table) : Decidable table.NewNamesAreFree :=
  inferInstanceAs (Decidable (∀ r ∈ table.renames, ∀ r' ∈ table.renames, r.new ≠ r'.old))

theorem newNamesAreFree_limits : limits.NewNamesAreFree := by decide +kernel

theorem newNamesAreFree_lib : lib.NewNamesAreFree := by decide +kernel

/-- It is enough to know it of the names that are taken: the others stay as they are. -/
theorem Settles.nameAfter_nameAfter {table : Table} (h : table.Settles) (bracket : Bracket)
    (name : String) :
    table.nameAfter bracket (table.nameAfter bracket name) = table.nameAfter bracket name := by
  by_cases hTaken : ∃ r ∈ table.renames, r.Takes bracket name
  · obtain ⟨r, hr, hStyle, rfl⟩ := hTaken
    exact h r hr bracket hStyle
  · have hSame : table.nameAfter bracket name = name :=
      table.nameAfter_of_forall_not_takes bracket name fun r hr hTakes => hTaken ⟨r, hr, hTakes⟩
    rw [hSame, hSame]

theorem NewNamesAreFree.not_takes_nameAfter {table : Table} (h : table.NewNamesAreFree)
    (bracket : Bracket) (name : String) (r : Rename) (hr : r ∈ table.renames) :
    ¬ r.Takes bracket (table.nameAfter bracket name) := by
  intro hTakes
  rcases table.nameAfter_cases bracket name with ⟨hSame, hNone⟩ | ⟨r', hr', hNew⟩
  · rw [hSame] at hTakes
    exact hNone r hr hTakes
  · exact h r' hr' r hr (hNew ▸ hTakes.2)

theorem NewNamesAreFree.settles {table : Table} (h : table.NewNamesAreFree) : table.Settles :=
  fun r _ bracket _ => table.nameAfter_of_forall_not_takes bracket _
    (h.not_takes_nameAfter bracket r.old)

end Table

namespace Directive

theorem changed_applyRules_eq_false_iff (table : Table) (text : Text) :
    (applyRules table.rules text).changed = false ↔
      ∀ bracket name, Token.directive bracket name ∈ tokens text →
        table.nameAfter bracket name = name := by
  rw [← scan_eq_self_iff (keepsNames_table table), ← text_applyRules, ← Bool.not_eq_true,
    applyRules_changed_iff, not_not]

theorem isIdempotent_iff_settles (table : Table) : table.IsIdempotent ↔ table.Settles := by
  constructor
  · intro h r hr bracket _
    apply (changed_applyRules_eq_false_iff table _).mp (h (bracket.directive r.old))
    rw [tokens_text_applyRules, tokens_directive bracket r.old (table.valid r hr).1]
    exact List.mem_cons_self
  · intro h text
    rw [changed_applyRules_eq_false_iff]
    intro bracket name hToken
    rw [tokens_text_applyRules] at hToken
    obtain ⟨token, _, hRename⟩ := List.mem_map.mp hToken
    cases token with
    | symbol c => cases hRename
    | directive bracket' name' =>
      cases hRename
      exact h.nameAfter_nameAfter bracket name'

/-- A rename that feeds one before it is no hazard, and keeps the table from settling. -/
example : ∃ table : Table, table.hazards = [] ∧ ¬ table.Settles := by
  refine ⟨.ofAccepted "" "" [⟨"b.h", "c.h", ⟨true, false⟩⟩, ⟨"a.h", "b.h", ⟨true, false⟩⟩]
    (by decide +kernel), by decide +kernel, ?_⟩
  intro h
  exact absurd (h ⟨"a.h", "b.h", ⟨true, false⟩⟩ (by decide +kernel) .quoted rfl) (by decide +kernel)

theorem exhausts_of_newNamesAreFree (table : Table) (h : table.NewNamesAreFree) :
    table.Exhausts := by
  intro text rule hRule
  obtain ⟨r, hr, hRule⟩ := List.mem_flatMap.mp hRule
  obtain ⟨bracket, hBracket, rfl⟩ := List.mem_map.mp hRule
  rw [← Bool.not_eq_true, Text.occurs_iff, directive_infix_iff bracket r.old (table.valid r hr).1,
    tokens_text_applyRules]
  intro hToken
  obtain ⟨token, _, hRename⟩ := List.mem_map.mp hToken
  cases token with
  | symbol c => cases hRename
  | directive bracket' name =>
    injection hRename with hStyle hName
    subst hStyle
    exact h.not_takes_nameAfter bracket' name r hr
      ⟨(Styles.mem_brackets_iff r.styles bracket').mp hBracket, hName⟩

/-- A second application changes no text just when it changes none of the names that a rename takes;
the built-in tables fulfil this, and leave none of their patterns in any text. -/
theorem idempotent_applications :
    (∀ table : Table, table.IsIdempotent ↔ table.Settles) ∧
    (Table.limits.Settles ∧ Table.lib.Settles) ∧
    (Table.limits.Exhausts ∧ Table.lib.Exhausts) ∧
    (Table.limits.IsIdempotent ∧ Table.lib.IsIdempotent) := by
  have hLimits := Table.newNamesAreFree_limits
  have hLib := Table.newNamesAreFree_lib
  refine ⟨isIdempotent_iff_settles, ⟨hLimits.settles, hLib.settles⟩, ?_, ?_⟩
  · exact ⟨exhausts_of_newNamesAreFree _ hLimits, exhausts_of_newNamesAreFree _ hLib⟩
  · exact ⟨(isIdempotent_iff_settles _).mpr hLimits.settles,
      (isIdempotent_iff_settles _).mpr hLib.settles⟩

end Directive

end HeaderRename
