import HeaderRename.Text.Replace
import Mathlib.Data.List.Basic

/-!
# Where a pattern stands in a text

Patterns that share their first character and have it nowhere else do not overlap: around an
occurrence of one of them, the others stand where they stand in the text before it and in the text
behind it. So they take no notice when another such text takes its place.
-/
set_option autoImplicit false

namespace HeaderRename.Text

def StandsAt (pattern : Text) (position : Nat) (text : Text) : Prop :=
  position ≤ text.length ∧ pattern <+: text.drop position

instance (pattern : Text) (position : Nat) (text : Text) :
    Decidable (StandsAt pattern position text) :=
  inferInstanceAs (Decidable (position ≤ text.length ∧ pattern <+: text.drop position))

section Positions

variable {pattern text : Text} {position : Nat}

theorem standsAt_iff_exists : StandsAt pattern position text ↔
    ∃ before after, before.length = position ∧ text = before ++ pattern ++ after := by
  constructor
  · rintro ⟨hLength, after, hAfter⟩
    refine ⟨text.take position, after, List.length_take_of_le hLength, ?_⟩
    rw [List.append_assoc, hAfter, List.take_append_drop]
  · rintro ⟨before, after, rfl, rfl⟩
    constructor
    · simp
    · rw [List.append_assoc, List.drop_left]
      exact List.prefix_append pattern after

theorem occurs_iff_exists_standsAt :
    occurs pattern text = true ↔ ∃ position, StandsAt pattern position text := by
  simp only [occurs_iff, standsAt_iff_exists]
  constructor
  · rintro ⟨before, after, rfl⟩
    exact ⟨before.length, before, after, rfl, rfl⟩
  · rintro ⟨_, before, after, _, rfl⟩
    exact ⟨before, after, rfl⟩

theorem standsAt_zero_iff : StandsAt pattern 0 text ↔ pattern <+: text := by
  simp [StandsAt]

theorem standsAt_succ_cons_iff {c : Char} :
    StandsAt pattern (position + 1) (c :: text) ↔ StandsAt pattern position text := by
  rw [StandsAt, StandsAt, List.length_cons, List.drop_succ_cons, Nat.succ_le_succ_iff]

theorem standsAt_length_add_iff (before : Text) :
    StandsAt pattern (before.length + position) (before ++ text) ↔
      StandsAt pattern position text := by
  rw [StandsAt, StandsAt, List.length_append, List.drop_length_add_append, Nat.add_le_add_iff_left]

end Positions

/-- The text begins with the mark and has it nowhere else. -/
def IsMarked (mark : Char) (text : Text) : Prop :=
  ∃ body, text = mark :: body ∧ mark ∉ body

theorem prefix_append_cons_iff {mark : Char} {front : Text} (h : mark ∉ front) (text rest : Text) :
    front <+: text ++ mark :: rest ↔ front <+: text := by
  induction text generalizing front with
  | nil =>
    cases front with
    | nil => simp
    | cons c front =>
      have hc : c ≠ mark := fun hc => h (hc ▸ List.mem_cons_self)
      simp [hc]
  | cons d text ih =>
    cases front with
    | nil => simp
    | cons c front =>
      rw [List.cons_append, List.cons_prefix_cons, List.cons_prefix_cons,
        ih fun hMem => h (List.mem_cons_of_mem c hMem)]

namespace IsMarked

variable {mark : Char} {pattern middle : Text}

theorem length_pos (h : IsMarked mark pattern) : 0 < pattern.length := by
  obtain ⟨body, rfl, _⟩ := h
  exact Nat.succ_pos body.length

theorem lt_length_of_standsAt (h : IsMarked mark pattern) {text : Text} {position : Nat}
    (hStands : StandsAt pattern position text) : position < text.length := by
  have hPos := h.length_pos
  have hLength := hStands.2.length_le
  rw [List.length_drop] at hLength
  omega

theorem standsAt_append_iff_of_lt (hPattern : IsMarked mark pattern) (hMiddle : IsMarked mark middle)
    {before : Text} {position : Nat} (h : position < before.length) (after : Text) :
    StandsAt pattern position (before ++ (middle ++ after)) ↔ StandsAt pattern position before := by
  obtain ⟨body, rfl, hBody⟩ := hPattern
  obtain ⟨rest, rfl, _⟩ := hMiddle
  have hLe := Nat.le_of_lt h
  have hLength : position ≤ (before ++ (mark :: rest ++ after)).length := by
    rw [List.length_append]
    exact Nat.le_add_right_of_le hLe
  apply and_congr (iff_of_true hLength hLe)
  -- behind its first character the pattern has no mark, and so it ends before the next one
  rw [List.drop_append_of_le_length hLe, List.drop_eq_getElem_cons h, List.cons_append,
    List.cons_append, List.cons_prefix_cons, List.cons_prefix_cons, prefix_append_cons_iff hBody]

theorem not_standsAt_of_lt (hPattern : IsMarked mark pattern) (hMiddle : IsMarked mark middle)
    {position : Nat} (h : position + 1 < middle.length) (after : Text) :
    ¬ StandsAt pattern (position + 1) (middle ++ after) := by
  obtain ⟨body, rfl, _⟩ := hPattern
  obtain ⟨rest, rfl, hRest⟩ := hMiddle
  have hLt : position < rest.length := Nat.lt_of_succ_lt_succ h
  rintro ⟨_, hPrefix⟩
  rw [List.cons_append, List.drop_succ_cons, List.drop_append_of_le_length (Nat.le_of_lt hLt),
    List.drop_eq_getElem_cons hLt, List.cons_append, List.cons_prefix_cons] at hPrefix
  exact hRest (hPrefix.1 ▸ List.getElem_mem hLt)

theorem standsAt_append_iff_of_marked (hPattern : IsMarked mark pattern)
    (hMiddle : IsMarked mark middle) (after : Text) (position : Nat) :
    StandsAt pattern position (middle ++ after) ↔
      (position = 0 ∧ pattern <+: middle ++ after) ∨
      ∃ behind, StandsAt pattern behind after ∧ position = middle.length + behind := by
  constructor
  · intro h
    rcases Nat.lt_or_ge position middle.length with hLt | hGe
    · cases position with
      | zero => exact Or.inl ⟨rfl, standsAt_zero_iff.mp h⟩
      | succ position => exact absurd h (not_standsAt_of_lt hPattern hMiddle hLt after)
    · obtain ⟨behind, rfl⟩ := Nat.exists_eq_add_of_le hGe
      exact Or.inr ⟨behind, (standsAt_length_add_iff middle).mp h, rfl⟩
  · rintro (⟨rfl, h⟩ | ⟨behind, h, rfl⟩)
    · exact standsAt_zero_iff.mpr h
    · exact (standsAt_length_add_iff middle).mpr h

/-- A marked pattern stands before a marked text, where it begins, or behind it, and never inside. -/
theorem standsAt_around_iff (hPattern : IsMarked mark pattern) (hMiddle : IsMarked mark middle)
    (before after : Text) (position : Nat) :
    StandsAt pattern position (before ++ (middle ++ after)) ↔
      StandsAt pattern position before ∨
      (position = before.length ∧ pattern <+: middle ++ after) ∨
      ∃ behind, StandsAt pattern behind after ∧
        position = before.length + (middle.length + behind) := by
  rcases Nat.lt_or_ge position before.length with hLt | hGe
  · rw [standsAt_append_iff_of_lt hPattern hMiddle hLt]
    constructor
    · exact Or.inl
    · rintro (h | ⟨rfl, _⟩ | ⟨behind, _, rfl⟩)
      · exact h
      · omega
      · omega
  · obtain ⟨inner, rfl⟩ := Nat.exists_eq_add_of_le hGe
    have hBefore : ¬ StandsAt pattern (before.length + inner) before :=
      fun h => absurd (hPattern.lt_length_of_standsAt h) (Nat.not_lt_of_le hGe)
    rw [standsAt_length_add_iff, standsAt_append_iff_of_marked hPattern hMiddle,
      or_iff_right hBefore]
    simp only [Nat.add_eq_left, Nat.add_left_cancel_iff]

theorem exists_behind_of_lt (hPattern : IsMarked mark pattern) (hMiddle : IsMarked mark middle)
    {before after : Text} {position : Nat} (hLt : before.length < position)
    (h : StandsAt pattern position (before ++ (middle ++ after))) :
    ∃ behind, StandsAt pattern behind after ∧
      position = before.length + (middle.length + behind) := by
  rcases (standsAt_around_iff hPattern hMiddle before after position).mp h with h | ⟨rfl, _⟩ | h
  · exact absurd (hPattern.lt_length_of_standsAt h) (Nat.not_lt_of_lt hLt)
  · exact absurd hLt (Nat.lt_irrefl _)
  · exact h

/-- When one marked text takes the place of another, what is before it stays where it is and what is
behind it moves by the difference of the lengths. -/
theorem standsAt_replaced_iff {old new : Text} (hPattern : IsMarked mark pattern)
    (hOld : IsMarked mark old) (hNew : IsMarked mark new) (before after : Text) (position : Nat) :
    StandsAt pattern position (before ++ (new ++ after)) ↔
      (position < before.length ∧ StandsAt pattern position (before ++ (old ++ after))) ∨
      (position = before.length ∧ pattern <+: new ++ after) ∨
      ∃ earlier, before.length < earlier ∧ StandsAt pattern earlier (before ++ (old ++ after)) ∧
        position + old.length = earlier + new.length := by
  have hAround := standsAt_around_iff hPattern hOld before after
  rw [standsAt_around_iff hPattern hNew]
  constructor
  · rintro (hBefore | hSame | ⟨behind, hBehind, rfl⟩)
    · exact Or.inl ⟨hPattern.lt_length_of_standsAt hBefore, (hAround position).mpr (.inl hBefore)⟩
    · exact Or.inr (.inl hSame)
    · have hPos := hOld.length_pos
      exact Or.inr (.inr ⟨before.length + (old.length + behind), by omega,
        (hAround _).mpr (.inr (.inr ⟨behind, hBehind, rfl⟩)), by omega⟩)
  · rintro (⟨hLt, hText⟩ | hSame | ⟨earlier, hLt, hText, hLength⟩)
    · exact Or.inl ((standsAt_append_iff_of_lt hPattern hOld hLt after).mp hText)
    · exact Or.inr (.inl hSame)
    · obtain ⟨behind, hBehind, rfl⟩ := exists_behind_of_lt hPattern hOld hLt hText
      exact Or.inr (.inr ⟨behind, hBehind, by omega⟩)

end IsMarked

end HeaderRename.Text
