import HeaderRename.Proofs.Directive.Rules
import HeaderRename.Rename.Builtin

/-!
# Two tables in turn

A table absorbs another when it makes of every text what it makes of the other's result; this can be
told from the names that the other takes. Two tables that move a name to and fro never come to rest
on a text that holds it: each undoes what the other has done. Of the built-in tables, the library's
absorbs the one of a single header, and they move that header's name to and fro.
-/
set_option autoImplicit false

namespace HeaderRename

namespace Table

/-- What the other table has done to a text makes no difference to the result. -/
def Absorbs (table other : Table) : Prop :=
  ∀ text : Text, (applyRules table.rules (applyRules other.rules text).text).text =
    (applyRules table.rules text).text

/-- The first table moves the one name to the other, in directives of this style, and the second
moves it back. -/
structure Swaps (bracket : Bracket) (first second : Table) (name name' : String) : Prop where
  moves : name ≠ name'
  there : first.nameAfter bracket name = name'
  stays : first.nameAfter bracket name' = name'
  back : second.nameAfter bracket name' = name
  stays_back : second.nameAfter bracket name = name

theorem Swaps.symm {bracket : Bracket} {first second : Table} {name name' : String}
    (h : Swaps bracket first second name name') : Swaps bracket second first name' name :=
  ⟨h.moves.symm, h.back, h.stays_back, h.there, h.stays⟩

/-- One of the applications of two tables that take turns, by the number of those before it. -/
def application (first second : Table) : Nat → Text → Rewritten
  | 0, text => applyRules first.rules text
  | before + 1, text => application second first before (applyRules first.rules text).text

end Table

namespace Directive

theorem absorbs_iff (table other : Table) : table.Absorbs other ↔
    ∀ r ∈ other.renames, ∀ bracket ∈ r.styles.brackets,
      table.nameAfter bracket (other.nameAfter bracket r.old) = table.nameAfter bracket r.old := by
  have hAfter : KeepsNames fun bracket name =>
      table.nameAfter bracket (other.nameAfter bracket name) := fun bracket name hName =>
    keepsNames_table table bracket _ (keepsNames_table other bracket name hName)
  simp only [Table.Absorbs, text_applyRules, scan_scan (keepsNames_table other),
    scan_eq_scan_iff hAfter (keepsNames_table table)]
  constructor
  · intro h r hr bracket _
    apply h (bracket.directive r.old)
    rw [tokens_directive bracket r.old (other.valid r hr).1]
    exact List.mem_cons_self
  · intro h text bracket name _
    by_cases hTaken : ∃ r ∈ other.renames, r.Takes bracket name
    · obtain ⟨r, hr, hStyle, rfl⟩ := hTaken
      exact h r hr bracket ((Styles.mem_brackets_iff _ _).mpr hStyle)
    · rw [other.nameAfter_of_forall_not_takes bracket name fun r hr hTakes => hTaken ⟨r, hr, hTakes⟩]

section Swaps

variable {bracket : Bracket} {first second : Table} {name name' : String}
  (hSwaps : Table.Swaps bracket first second name name')

include hSwaps

/-- An application leaves the name that it moves to, whichever of the two was there. -/
theorem directive_mem_tokens_applyRules {text : Text}
    (h : Token.directive bracket name ∈ tokens text ∨ Token.directive bracket name' ∈ tokens text) :
    Token.directive bracket name' ∈ tokens (applyRules first.rules text).text := by
  rw [tokens_text_applyRules, List.mem_map]
  rcases h with hThere | hStays
  · exact ⟨_, hThere, by rw [Token.rename, hSwaps.there]⟩
  · exact ⟨_, hStays, by rw [Token.rename, hSwaps.stays]⟩

theorem changed_applyRules_of_swaps {text : Text}
    (h : Token.directive bracket name ∈ tokens text) :
    (applyRules first.rules text).changed = true := by
  rw [applyRules_changed_iff, text_applyRules, Ne, scan_eq_self_iff (keepsNames_table first)]
  intro hSame
  exact hSwaps.moves ((hSame bracket name h).symm.trans hSwaps.there)

/-- Where the name is that the first table moves, every application changes the text. -/
theorem changed_application_of_mem (before : Nat) {text : Text}
    (h : Token.directive bracket name ∈ tokens text) :
    (Table.application first second before text).changed = true := by
  induction before generalizing first second name name' text with
  | zero => exact changed_applyRules_of_swaps hSwaps h
  | succ before ih =>
    exact ih hSwaps.symm (directive_mem_tokens_applyRules hSwaps (.inl h))

/-- Where one of the two names is, every application but the first changes the text. -/
theorem changed_application_succ (before : Nat) {text : Text}
    (h : Token.directive bracket name ∈ tokens text ∨ Token.directive bracket name' ∈ tokens text) :
    (Table.application first second (before + 1) text).changed = true :=
  changed_application_of_mem hSwaps.symm before (directive_mem_tokens_applyRules hSwaps h)

end Swaps

theorem swaps_limits_lib :
    Table.Swaps .quoted Table.limits Table.lib "limits.h" "llimits.h" := by
  constructor <;> decide +kernel

/-- The library's table makes of every text what it makes of the text that the other built-in table
has rewritten. On a text that includes the header under one of its two names, the tables never come
to rest when they take turns: whichever begins, all applications but the first change the text. -/
theorem lib_absorbs_limits :
    (∀ text : Text, (applyRules Table.lib.rules (applyRules Table.limits.rules text).text).text =
      (applyRules Table.lib.rules text).text) ∧
    ∀ text : Text, (Bracket.quoted.directive "limits.h" <:+: text ∨
        Bracket.quoted.directive "llimits.h" <:+: text) →
      ∀ before, (Table.application Table.limits Table.lib (before + 1) text).changed = true ∧
        (Table.application Table.lib Table.limits (before + 1) text).changed = true := by
  constructor
  · exact (absorbs_iff Table.lib Table.limits).mpr (by decide +kernel)
  · intro text h before
    rw [directive_infix_iff .quoted "limits.h" (by decide +kernel),
      directive_infix_iff .quoted "llimits.h" (by decide +kernel)] at h
    exact ⟨changed_application_succ swaps_limits_lib before h,
      changed_application_succ swaps_limits_lib.symm before h.symm⟩

def bothStyles : Text :=
  "#include <limits.h>\n#include \"llimits.h\"\n".toList

theorem lib_absorbs_limits_bothStyles :
    (applyRules Table.lib.rules (applyRules Table.limits.rules bothStyles).text).text =
        (applyRules Table.lib.rules bothStyles).text ∧
      Bracket.quoted.directive "llimits.h" <:+: bothStyles ∧
      (applyRules Table.limits.rules bothStyles).changed = false ∧
      ∀ before, (Table.application Table.limits Table.lib (before + 1) bothStyles).changed = true ∧
        (Table.application Table.lib Table.limits (before + 1) bothStyles).changed = true := by
  have hOccurs : Bracket.quoted.directive "llimits.h" <:+: bothStyles :=
    (Text.occurs_iff _ _).mp (by decide +kernel)
  exact ⟨lib_absorbs_limits.1 bothStyles, hOccurs, by decide +kernel,
    lib_absorbs_limits.2 bothStyles (.inr hOccurs)⟩

end Directive

end HeaderRename
