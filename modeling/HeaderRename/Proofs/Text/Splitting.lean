import HeaderRename.Proofs.Text.Positions
import Mathlib.Data.List.Sort

/-!
# Splitting a text at a pattern

The occurrences of a pattern that are read from the left without overlap are told apart from all
others by three laws, and there is one list of them only. A text is split at these, and joined again
by another text: this is substitution, for every pattern, one that overlaps itself and the empty one
among them. The empty pattern stands at every position, and none of its occurrences covers another.
-/
set_option autoImplicit false

namespace HeaderRename.Text

/-- How far behind an occurrence the next one may begin: at its end, but not where it began. -/
def stride (pattern : Text) : Nat :=
  max pattern.length 1

/-- Occurrences of the pattern in order, none of which overlaps with the one before it. An occurrence
that is not among them overlaps with an earlier one that is. -/
structure IsLeftmost (pattern text : Text) (positions : List Nat) : Prop where
  stands : ∀ position ∈ positions, StandsAt pattern position text
  apart : positions.Pairwise fun position position' => position + stride pattern ≤ position'
  covers : ∀ position, StandsAt pattern position text →
    ∃ taken ∈ positions, taken ≤ position ∧ position < taken + stride pattern

theorem stride_pos (pattern : Text) : 0 < stride pattern :=
  Nat.lt_of_lt_of_le Nat.one_pos (Nat.le_max_right _ _)

theorem stride_of_ne_nil {pattern : Text} (h : pattern ≠ []) : stride pattern = pattern.length :=
  Nat.max_eq_left (List.length_pos_iff.mpr h)

namespace IsLeftmost

variable {pattern text : Text} {positions positions' : List Nat}

theorem apart_of_lt (h : IsLeftmost pattern text positions) {position position' : Nat}
    (hMem : position ∈ positions) (hMem' : position' ∈ positions) (hLt : position < position') :
    position + stride pattern ≤ position' := by
  obtain ⟨before, after, rfl⟩ := List.append_of_mem hMem
  obtain ⟨_, hAfter, hBefore⟩ := List.pairwise_append.mp h.apart
  rcases List.mem_append.mp hMem' with hMem' | hMem'
  · have hLe := hBefore position' hMem' position List.mem_cons_self
    omega
  · rcases List.mem_cons.mp hMem' with rfl | hMem'
    · exact absurd hLt (Nat.lt_irrefl _)
    · exact (List.pairwise_cons.mp hAfter).1 position' hMem'

/-- Two lists that agree up to an occurrence agree on it: an earlier one that covers it is in both,
and then it is in neither. -/
theorem mem_of_mem (h : IsLeftmost pattern text positions)
    (h' : IsLeftmost pattern text positions') {position : Nat}
    (ih : ∀ earlier, earlier < position → (earlier ∈ positions ↔ earlier ∈ positions'))
    (hMem : position ∈ positions) : position ∈ positions' := by
  obtain ⟨taken, hTaken, hLe, hCovers⟩ := h'.covers position (h.stands position hMem)
  rcases Nat.lt_or_eq_of_le hLe with hLt | rfl
  · have hApart := h.apart_of_lt ((ih taken hLt).mpr hTaken) hMem hLt
    omega
  · exact hTaken

theorem mem_iff (h : IsLeftmost pattern text positions) (h' : IsLeftmost pattern text positions')
    (position : Nat) : position ∈ positions ↔ position ∈ positions' := by
  induction position using Nat.strongRecOn with
  | ind position ih =>
    constructor
    · exact h.mem_of_mem h' ih
    · exact h'.mem_of_mem h fun earlier hLt => (ih earlier hLt).symm

theorem pairwise_lt (h : IsLeftmost pattern text positions) : positions.Pairwise (· < ·) :=
  h.apart.imp fun hApart => Nat.lt_of_lt_of_le (Nat.lt_add_of_pos_right (stride_pos pattern)) hApart

theorem unique (h : IsLeftmost pattern text positions) (h' : IsLeftmost pattern text positions') :
    positions = positions' :=
  h.pairwise_lt.eq_of_mem_iff h'.pairwise_lt (h.mem_iff h')

theorem nil (h : pattern ≠ []) : IsLeftmost pattern [] [] where
  stands := fun _ hMem => absurd hMem List.not_mem_nil
  apart := List.Pairwise.nil
  covers := by
    rintro position ⟨_, hPrefix⟩
    rw [List.drop_nil, List.prefix_nil] at hPrefix
    exact absurd hPrefix h

theorem cons {c : Char} {rest : Text} (hFirst : ¬ pattern <+: c :: rest)
    (h : IsLeftmost pattern rest positions) :
    IsLeftmost pattern (c :: rest) (positions.map (· + 1)) where
  stands := by
    intro position hMem
    obtain ⟨behind, hBehind, rfl⟩ := List.mem_map.mp hMem
    exact standsAt_succ_cons_iff.mpr (h.stands behind hBehind)
  apart := by
    rw [List.pairwise_map]
    exact h.apart.imp fun hApart => by omega
  covers := by
    intro position hStands
    cases position with
    | zero => exact absurd (standsAt_zero_iff.mp hStands) hFirst
    | succ position =>
      obtain ⟨taken, hTaken, hLe, hLt⟩ := h.covers position (standsAt_succ_cons_iff.mp hStands)
      exact ⟨taken + 1, List.mem_map_of_mem hTaken, by omega, by omega⟩

/-- An occurrence at the beginning, and then what is found from the end of it on. -/
theorem append {front rest : Text} (hFront : front.length = stride pattern)
    (hFirst : pattern <+: front ++ rest) (h : IsLeftmost pattern rest positions) :
    IsLeftmost pattern (front ++ rest) (0 :: positions.map (front.length + ·)) where
  stands := by
    intro position hMem
    rcases List.mem_cons.mp hMem with rfl | hMem
    · exact standsAt_zero_iff.mpr hFirst
    · obtain ⟨behind, hBehind, rfl⟩ := List.mem_map.mp hMem
      exact (standsAt_length_add_iff front).mpr (h.stands behind hBehind)
  apart := by
    rw [List.pairwise_cons, List.forall_mem_map, List.pairwise_map]
    constructor
    · intro behind _
      omega
    · exact h.apart.imp fun hApart => by omega
  covers := by
    intro position hStands
    rcases Nat.lt_or_ge position front.length with hLt | hGe
    · exact ⟨0, List.mem_cons_self, Nat.zero_le position, by omega⟩
    · obtain ⟨behind, rfl⟩ := Nat.exists_eq_add_of_le hGe
      obtain ⟨taken, hTaken, hLe, hLt⟩ :=
        h.covers behind ((standsAt_length_add_iff front).mp hStands)
      exact ⟨front.length + taken, List.mem_cons_of_mem _ (List.mem_map_of_mem hTaken),
        by omega, by omega⟩

theorem empty_nil : IsLeftmost [] [] [0] where
  stands := fun _ hMem => List.mem_singleton.mp hMem ▸ standsAt_zero_iff.mpr List.prefix_rfl
  apart := List.pairwise_singleton _ _
  covers := by
    rintro position ⟨hLength, _⟩
    obtain rfl := Nat.le_zero.mp hLength
    exact ⟨0, List.mem_singleton_self 0, Nat.le_refl 0, stride_pos []⟩

end IsLeftmost

/-- Where the pattern stands between these pieces, when they are joined by it. -/
def joints (pattern : Text) : List Text → List Nat
  | [] => []
  | [_] => []
  | piece :: next :: pieces =>
    piece.length :: (joints pattern (next :: pieces)).map (piece.length + pattern.length + ·)

/-- The text is these pieces joined by the pattern, which between them is at its leftmost occurrences
in the text. -/
structure IsSplitting (pattern text : Text) (pieces : List Text) : Prop where
  ne_nil : pieces ≠ []
  joined : List.intercalate pattern pieces = text
  leftmost : IsLeftmost pattern text (joints pattern pieces)

theorem intercalate_cons_head (sep : Text) (c : Char) (piece : Text) (pieces : List Text) :
    List.intercalate sep ((c :: piece) :: pieces) = c :: List.intercalate sep (piece :: pieces) := by
  cases pieces <;> simp

theorem intercalate_nil_cons (sep : Text) {pieces : List Text} (h : pieces ≠ []) :
    List.intercalate sep ([] :: pieces) = sep ++ List.intercalate sep pieces := by
  cases pieces with
  | nil => exact absurd rfl h
  | cons piece pieces => rw [List.intercalate_cons_cons, List.nil_append]

theorem joints_cons_head (pattern : Text) (c : Char) (piece : Text) (pieces : List Text) :
    joints pattern ((c :: piece) :: pieces) = (joints pattern (piece :: pieces)).map (· + 1) := by
  cases pieces with
  | nil => rfl
  | cons next pieces =>
    rw [joints, joints, List.map_cons, List.map_map, List.length_cons]
    congr 1
    apply List.map_congr_left
    intro position _
    simp only [Function.comp_apply]
    omega

theorem joints_nil_cons (pattern : Text) {pieces : List Text} (h : pieces ≠ []) :
    joints pattern ([] :: pieces) = 0 :: (joints pattern pieces).map (pattern.length + ·) := by
  cases pieces with
  | nil => exact absurd rfl h
  | cons piece pieces => simp only [joints, List.length_nil, Nat.zero_add]

theorem eq_of_joints_eq {pattern : Text} {pieces pieces' : List Text} (hNe : pieces ≠ [])
    (hNe' : pieces' ≠ []) (hJoints : joints pattern pieces = joints pattern pieces')
    (hJoined : List.intercalate pattern pieces = List.intercalate pattern pieces') :
    pieces = pieces' := by
  induction pieces generalizing pieces' with
  | nil => exact absurd rfl hNe
  | cons piece rest ih =>
    obtain ⟨piece', rest', rfl⟩ := List.exists_cons_of_ne_nil hNe'
    cases rest with
    | nil =>
      cases rest' with
      | nil => simpa using hJoined
      | cons next' rest' => cases hJoints
    | cons next rest =>
      cases rest' with
      | nil => cases hJoints
      | cons next' rest' =>
        rw [joints, joints, List.cons.injEq] at hJoints
        obtain ⟨hLength, hJoints⟩ := hJoints
        rw [List.intercalate_cons_cons, List.intercalate_cons_cons, List.append_assoc,
          List.append_assoc] at hJoined
        obtain ⟨rfl, hRest⟩ := List.append_inj hJoined hLength
        have hBehind : joints pattern (next :: rest) = joints pattern (next' :: rest') := by
          rw [hLength] at hJoints
          exact List.map_injective_iff.mpr (fun _ _ hSame => Nat.add_left_cancel hSame) hJoints
        rw [ih (List.cons_ne_nil _ _) (List.cons_ne_nil _ _) hBehind (List.append_cancel_left hRest)]

namespace IsSplitting

variable {pattern text rest piece : Text} {pieces pieces' : List Text} {c : Char}

theorem unique (h : IsSplitting pattern text pieces) (h' : IsSplitting pattern text pieces') :
    pieces = pieces' :=
  eq_of_joints_eq h.ne_nil h'.ne_nil (h.leftmost.unique h'.leftmost) (h.joined.trans h'.joined.symm)

theorem nil (h : pattern ≠ []) : IsSplitting pattern [] [[]] :=
  ⟨List.cons_ne_nil _ _, rfl, .nil h⟩

theorem cons (hFirst : ¬ pattern <+: c :: rest) (h : IsSplitting pattern rest (piece :: pieces)) :
    IsSplitting pattern (c :: rest) ((c :: piece) :: pieces) where
  ne_nil := List.cons_ne_nil _ _
  joined := by rw [intercalate_cons_head, h.joined]
  leftmost := by
    rw [joints_cons_head]
    exact h.leftmost.cons hFirst

theorem append (hPattern : pattern ≠ []) (h : IsSplitting pattern rest pieces) :
    IsSplitting pattern (pattern ++ rest) ([] :: pieces) where
  ne_nil := List.cons_ne_nil _ _
  joined := by rw [intercalate_nil_cons pattern h.ne_nil, h.joined]
  leftmost := by
    rw [joints_nil_cons pattern h.ne_nil]
    exact h.leftmost.append (stride_of_ne_nil hPattern).symm (List.prefix_append pattern rest)

theorem empty_nil : IsSplitting [] [] [[], []] :=
  ⟨List.cons_ne_nil _ _, rfl, .empty_nil⟩

theorem empty_cons (h : IsSplitting [] rest ([] :: pieces)) :
    IsSplitting [] (c :: rest) ([] :: [c] :: pieces) where
  ne_nil := List.cons_ne_nil _ _
  joined := by
    rw [intercalate_nil_cons [] (List.cons_ne_nil _ _), intercalate_cons_head, h.joined,
      List.nil_append]
  leftmost := by
    have hAppend : IsLeftmost [] ([c] ++ rest) _ := h.leftmost.append rfl List.nil_prefix
    rw [joints_nil_cons [] (List.cons_ne_nil _ _), joints_cons_head, List.map_map]
    simpa [Function.comp_def, Nat.add_comm] using hAppend

end IsSplitting

/-- The number counts the characters of the last occurrence that are still to be passed over. -/
def splitFrom (pattern : Text) : Nat → Text → List Text
  | _, [] => [[]]
  | skip + 1, _ :: rest => splitFrom pattern skip rest
  | 0, c :: rest =>
    if pattern.isPrefixOf (c :: rest) then [] :: splitFrom pattern (pattern.length - 1) rest
    else (splitFrom pattern 0 rest).modifyHead (c :: ·)

def splitBy (pattern text : Text) : List Text :=
  if pattern.isEmpty then [] :: ((text.map fun c => [c]) ++ [[]]) else splitFrom pattern 0 text

theorem splitFrom_ne_nil (pattern : Text) (skip : Nat) (text : Text) :
    splitFrom pattern skip text ≠ [] := by
  induction text generalizing skip with
  | nil => cases skip <;> exact List.cons_ne_nil _ _
  | cons c rest ih =>
    cases skip with
    | zero =>
      rw [splitFrom]
      split
      · exact List.cons_ne_nil _ _
      · rw [Ne, List.modifyHead_eq_nil_iff]
        exact ih 0
    | succ skip => exact ih skip

theorem splitFrom_eq_drop (pattern : Text) (skip : Nat) (text : Text) :
    splitFrom pattern skip text = splitFrom pattern 0 (text.drop skip) := by
  induction text generalizing skip with
  | nil => cases skip <;> rfl
  | cons c rest ih =>
    cases skip with
    | zero => rfl
    | succ skip => exact ih skip

theorem splitFrom_append {pattern : Text} (h : pattern ≠ []) (rest : Text) :
    splitFrom pattern 0 (pattern ++ rest) = [] :: splitFrom pattern 0 rest := by
  have hPrefix : pattern.isPrefixOf (pattern ++ rest) = true :=
    List.isPrefixOf_iff_prefix.mpr (List.prefix_append pattern rest)
  obtain ⟨c, body, rfl⟩ := List.exists_cons_of_ne_nil h
  rw [List.cons_append] at hPrefix ⊢
  rw [splitFrom, if_pos hPrefix, splitFrom_eq_drop, List.length_cons, Nat.add_sub_cancel,
    List.drop_left]

theorem isSplitting_splitFrom {pattern : Text} (hPattern : pattern ≠ []) (text : Text) :
    IsSplitting pattern text (splitFrom pattern 0 text) := by
  -- by the length of the text, since an occurrence is passed over as a whole
  induction text using (measure List.length).wf.induction with
  | h text ih =>
    by_cases hPrefix : pattern <+: text
    · obtain ⟨behind, rfl⟩ := hPrefix
      have hLength : behind.length < (pattern ++ behind).length := by
        rw [List.length_append]
        exact Nat.lt_add_of_pos_left (List.length_pos_iff.mpr hPattern)
      rw [splitFrom_append hPattern]
      exact (ih behind hLength).append hPattern
    · cases text with
      | nil => exact .nil hPattern
      | cons c rest =>
        obtain ⟨piece, pieces, hPieces⟩ :=
          List.exists_cons_of_ne_nil (splitFrom_ne_nil pattern 0 rest)
        have hRest := ih rest (Nat.lt_succ_self _)
        rw [hPieces] at hRest
        rw [splitFrom, if_neg (by rwa [List.isPrefixOf_iff_prefix]), hPieces, List.modifyHead_cons]
        exact hRest.cons hPrefix

theorem isSplitting_empty (text : Text) :
    IsSplitting [] text ([] :: ((text.map fun c => [c]) ++ [[]])) := by
  induction text with
  | nil => exact .empty_nil
  | cons c rest ih => exact ih.empty_cons

/-- There is one splitting of a text at a pattern. -/
theorem isSplitting_iff (pattern text : Text) (pieces : List Text) :
    IsSplitting pattern text pieces ↔ pieces = splitBy pattern text := by
  have hSplit : IsSplitting pattern text (splitBy pattern text) := by
    rw [splitBy]
    split
    · rename_i hEmpty
      rw [List.isEmpty_iff.mp hEmpty]
      exact isSplitting_empty text
    · rename_i hPattern
      exact isSplitting_splitFrom (by rwa [List.isEmpty_iff] at hPattern) text
  constructor
  · exact fun h => h.unique hSplit
  · rintro rfl
    exact hSplit

theorem replaceFrom_eq_intercalate (old new : Text) (skip : Nat) (text : Text) :
    replaceFrom old new skip text = List.intercalate new (splitFrom old skip text) := by
  induction text generalizing skip with
  | nil => cases skip <;> rfl
  | cons c rest ih =>
    cases skip with
    | succ skip => exact ih skip
    | zero =>
      rw [replaceFrom, splitFrom]
      split
      · rw [intercalate_nil_cons new (splitFrom_ne_nil _ _ _), ih]
      · obtain ⟨piece, pieces, hPieces⟩ :=
          List.exists_cons_of_ne_nil (splitFrom_ne_nil old 0 rest)
        rw [ih, hPieces, List.modifyHead_cons, intercalate_cons_head]

theorem foldr_eq_intercalate (new text : Text) :
    text.foldr (fun c rest => new ++ c :: rest) new =
      List.intercalate new ([] :: ((text.map fun c => [c]) ++ [[]])) := by
  induction text with
  | nil => simp
  | cons c rest ih =>
    rw [List.foldr_cons, ih, List.map_cons, List.cons_append,
      intercalate_nil_cons new (List.cons_ne_nil _ _), intercalate_cons_head]

/-- Substitution is joining by the replacement what was split at the pattern. -/
theorem replace_eq_intercalate (old new text : Text) :
    replace old new text = List.intercalate new (splitBy old text) := by
  rw [replace, splitBy]
  split
  · exact foldr_eq_intercalate new text
  · exact replaceFrom_eq_intercalate old new 0 text

end HeaderRename.Text
