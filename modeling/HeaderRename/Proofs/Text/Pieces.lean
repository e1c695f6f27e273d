import HeaderRename.Proofs.Text.Forms

/-!
# The pieces of a byte string

A byte string splits in one way into the encodings of characters and into invalid parts: bytes that
begin a character, as many as do so, or a single byte that begins none. The machine that reads UTF-8
gives a character for each of the former and one mark for each of the latter.
-/
set_option autoImplicit false

namespace HeaderRename.Utf8

open Alphabet (toNat_ofNat_of_isValidChar)

/-- No character can be read here. The part begins one, but not with the byte after it, unless it is
a single byte. -/
structure Invalid (part rest : List UInt8) : Prop where
  ne_nil : part ≠ []
  begins : part.length = 1 ∨ ∃ c, part <+: String.utf8EncodeChar c
  maximal : ∀ b tail, rest = b :: tail → ∀ c, ¬ part ++ [b] <+: String.utf8EncodeChar c
  no_char : ∀ c, ¬ String.utf8EncodeChar c <+: part ++ rest

inductive Piece where
  | char (c : Char)
  | invalid (part : List UInt8)
deriving DecidableEq, Repr

namespace Piece

def bytes : Piece → List UInt8
  | char c => String.utf8EncodeChar c
  | invalid part => part

/-- The piece is one where these bytes follow it. -/
def Heads : Piece → List UInt8 → Prop
  | char _, _ => True
  | invalid part, rest => Invalid part rest

def mark : Piece → Option Char
  | char c => some c
  | invalid _ => none

theorem Heads.bytes_ne_nil {piece : Piece} {rest : List UInt8} (h : piece.Heads rest) :
    piece.bytes ≠ [] := by
  cases piece with
  | char c => exact String.utf8EncodeChar_ne_nil
  | invalid part => exact h.ne_nil

end Piece

inductive Splits : List UInt8 → List Piece → Prop where
  | nil : Splits [] []
  | cons (piece : Piece) {rest : List UInt8} {pieces : List Piece} :
    piece.Heads rest → Splits rest pieces → Splits (piece.bytes ++ rest) (piece :: pieces)

theorem Splits.flatMap_bytes {bytes : List UInt8} {pieces : List Piece} (h : Splits bytes pieces) :
    pieces.flatMap Piece.bytes = bytes := by
  induction h with
  | nil => rfl
  | cons piece _ _ ih => rw [List.flatMap_cons, ih]

theorem cons_eq_encode_iff_of_lt (b : UInt8) (h : b.toNat < 0x80) (tail : List UInt8) (c : Char) :
    b :: tail = String.utf8EncodeChar c ↔ tail = [] ∧ c = Char.ofNat b.toNat := by
  constructor
  · intro hTail
    rcases cons_eq_encode_cases b tail c hTail with ⟨_, hFirst, rfl⟩ | ⟨_, _, hFirst, _⟩ |
      ⟨_, _, _, hFirst, _⟩ | ⟨_, _, hFirst, _⟩
    · exact ⟨rfl, eq_ofNat_of_toNat_eq c _ hFirst⟩
    · omega
    · omega
    · omega
  · rintro ⟨rfl, hc⟩
    have hNat : c.toNat = b.toNat := by
      rw [hc, toNat_ofNat_of_isValidChar _ (Or.inl (by omega))]
    rcases encode_cases c with ⟨_, hc⟩ | ⟨_, _, _⟩ | ⟨_, _, _, _⟩ | ⟨_, _, _⟩
    · rw [hc, hNat, UInt8.ofNat_toNat]
    · omega
    · omega
    · omega

theorem cons_ne_encode (b : UInt8)
    (h : 0x80 ≤ b.toNat ∧ b.toNat < 0xC2 ∨ 0xF5 ≤ b.toNat) (tail : List UInt8) (c : Char) :
    b :: tail ≠ String.utf8EncodeChar c := by
  intro hTail
  rcases cons_eq_encode_cases b tail c hTail with ⟨_, hFirst, _⟩ | ⟨_, _, hFirst, _⟩ |
    ⟨_, _, _, hFirst, _⟩ | ⟨_, _, hFirst, _⟩
  all_goals omega

theorem firstByte_cases (b : UInt8) :
    (∃ c, firstByte b = ([some c], .start) ∧
      ∀ tail d, b :: tail = String.utf8EncodeChar d ↔ tail = [] ∧ d = c) ∨
    (firstByte b = ([none], .start) ∧ ∀ tail d, b :: tail ≠ String.utf8EncodeChar d) ∨
    ∃ bits more low high, firstByte b = ([], .inside bits more low high) ∧
      Pending [b] bits more low high := by
  generalize hFirst : firstByte b = first
  simp only [firstByte] at hFirst
  split at hFirst
  · exact Or.inl ⟨_, hFirst.symm, cons_eq_encode_iff_of_lt b (by assumption)⟩
  refine Or.inr ?_
  split at hFirst
  · exact Or.inl ⟨hFirst.symm, cons_ne_encode b (by omega)⟩
  split at hFirst
  · exact Or.inr ⟨_, _, _, _, hFirst.symm, pending_two b (by omega) (by omega)⟩
  split at hFirst
  · rename_i hByte
    have hPending := pending_three b 0xA0 0xBF (by omega) (by omega) (by simp [hByte]) (by simp [hByte])
    rw [hByte] at hPending
    exact Or.inr ⟨_, _, _, _, hFirst.symm, hPending⟩
  split at hFirst
  · rename_i hByte
    have hPending := pending_three b 0x80 0x9F (by omega) (by omega) (by simp [hByte]) (by simp [hByte])
    rw [hByte] at hPending
    exact Or.inr ⟨_, _, _, _, hFirst.symm, hPending⟩
  split at hFirst
  · have hPending := pending_three b 0x80 0xBF (by omega) (by omega) (by simp [*]) (by simp [*])
    exact Or.inr ⟨_, _, _, _, hFirst.symm, hPending⟩
  split at hFirst
  · rename_i hByte
    have hPending := pending_four b 0x90 0xBF (by omega) (by omega) (by simp [hByte]) (by simp [hByte])
    rw [hByte] at hPending
    exact Or.inr ⟨_, _, _, _, hFirst.symm, hPending⟩
  split at hFirst
  · have hNe : b.toNat ≠ 0xF4 := by omega
    have hPending := pending_four b 0x80 0xBF (by omega) (by omega) (by simp [*]) (by simp [hNe])
    exact Or.inr ⟨_, _, _, _, hFirst.symm, hPending⟩
  split at hFirst
  · rename_i hByte
    have hPending := pending_four b 0x80 0x8F (by omega) (by omega) (by simp [hByte]) (by simp [hByte])
    rw [hByte] at hPending
    exact Or.inr ⟨_, _, _, _, hFirst.symm, hPending⟩
  · exact Or.inl ⟨hFirst.symm, cons_ne_encode b (by omega)⟩

theorem readFrom_tails (more bits : Nat) (low high : UInt8) (tail rest : List UInt8)
    (h : Tails more low high tail) :
    readFrom (.inside bits more low high) (tail ++ rest) =
      some (Char.ofNat (number bits tail)) :: read rest := by
  induction more generalizing bits low high tail with
  | zero =>
    obtain ⟨b, rfl, hBounds⟩ := h
    simp [readFrom, step, hBounds, number, read]
  | succ more ih =>
    obtain ⟨b, tail, rfl, hBounds, hTail⟩ := h
    simp [readFrom, step, hBounds, ih _ _ _ _ hTail, number]

theorem read_encode_append (c : Char) (rest : List UInt8) :
    read (String.utf8EncodeChar c ++ rest) = some c :: read rest := by
  obtain ⟨b, tail, hEncode⟩ := List.exists_cons_of_ne_nil (String.utf8EncodeChar_ne_nil (c := c))
  rw [hEncode, List.cons_append, read, readFrom, step]
  rcases firstByte_cases b with ⟨d, hByte, hForm⟩ | ⟨_, hForm⟩ | ⟨bits, more, low, high, hByte, h⟩
  · obtain ⟨rfl, rfl⟩ := (hForm tail c).mp hEncode.symm
    rw [hByte]
    rfl
  · exact absurd hEncode.symm (hForm tail c)
  · obtain ⟨hTail, hChar⟩ := (h.append_eq_iff tail c).mp hEncode.symm
    rw [hByte, hChar]
    exact readFrom_tails more bits low high tail rest hTail

theorem encode_append_inj (c c' : Char) (rest rest' : List UInt8)
    (h : String.utf8EncodeChar c ++ rest = String.utf8EncodeChar c' ++ rest') :
    c = c' ∧ rest = rest' := by
  have hRead := congrArg read h
  rw [read_encode_append, read_encode_append] at hRead
  obtain rfl : c = c' := Option.some.inj (List.cons.inj hRead).1
  exact ⟨rfl, List.append_cancel_left h⟩

theorem number_cons (bits : Nat) (b : UInt8) (tail : List UInt8) :
    number bits (b :: tail) = number (bits * 64 + (b.toNat - 0x80)) tail := by
  rw [number, List.foldl_cons, number]

theorem tails_succ_cons_iff (more : Nat) (low high b : UInt8) (tail : List UInt8) :
    Tails (more + 1) low high (b :: tail) ↔ (low ≤ b ∧ b ≤ high) ∧ Tails more 0x80 0xBF tail := by
  rw [Tails]
  constructor
  · rintro ⟨b', tail', hCons, h⟩
    cases hCons
    exact h
  · exact fun h => ⟨b, tail, rfl, h⟩

theorem Tails.head {more : Nat} {low high b : UInt8} {tail : List UInt8}
    (h : Tails more low high (b :: tail)) : low ≤ b ∧ b ≤ high := by
  cases more with
  | zero =>
    obtain ⟨b', hCons, hBounds⟩ := h
    cases hCons
    exact hBounds
  | succ more => exact ((tails_succ_cons_iff more low high b tail).mp h).1

namespace Pending

variable {front : List UInt8} {bits more : Nat} {low high : UInt8}

theorem exists_encode (h : Pending front bits more low high) :
    ∃ tail c, tail ≠ [] ∧ front ++ tail = String.utf8EncodeChar c := by
  -- the lowest byte that is wanted will do each time
  have hTails : ∃ tail, tail ≠ [] ∧ Tails more low high tail := by
    have hBounds := h.low_le_high
    clear h
    induction more generalizing low high with
    | zero => exact ⟨[low], List.cons_ne_nil _ _, low, rfl, UInt8.le_refl low, hBounds⟩
    | succ more ih =>
      obtain ⟨tail, _, hTail⟩ := ih (show (0x80 : UInt8) ≤ 0xBF by decide)
      exact ⟨low :: tail, List.cons_ne_nil _ _, low, tail, rfl, ⟨UInt8.le_refl low, hBounds⟩, hTail⟩
  obtain ⟨tail, hNe, hTail⟩ := hTails
  exact ⟨tail, _, hNe, (h.append_eq_iff tail _).mpr ⟨hTail, rfl⟩⟩

theorem invalid (h : Pending front bits more low high) (hFront : front ≠ []) (rest : List UInt8)
    (hNext : ∀ b tail, rest = b :: tail → ¬ (low ≤ b ∧ b ≤ high)) : Invalid front rest := by
  obtain ⟨tail, c, hTail, hEncode⟩ := h.exists_encode
  have hFront' : ∀ d middle, front ≠ String.utf8EncodeChar d ++ middle := by
    rintro d middle rfl
    rw [List.append_assoc, ← List.append_nil (String.utf8EncodeChar c)] at hEncode
    exact hTail (List.append_eq_nil_iff.mp (encode_append_inj d c _ _ hEncode).2).2
  have hMaximal : ∀ b rest', rest = b :: rest' → ∀ d, ¬ front ++ [b] <+: String.utf8EncodeChar d := by
    rintro b rest' hRest d ⟨middle, hMiddle⟩
    rw [List.append_assoc] at hMiddle
    exact hNext b rest' hRest ((h.append_eq_iff _ d).mp hMiddle).1.head
  refine ⟨hFront, Or.inr ⟨c, tail, hEncode⟩, hMaximal, ?_⟩
  rintro d ⟨rest', hRest⟩
  rcases List.append_eq_append_iff.mp hRest with ⟨middle, hMiddle, _⟩ | ⟨middle, hMiddle, hRest'⟩
  · exact hFront' d middle hMiddle
  · cases middle with
    | nil => exact hFront' d [] (by rw [hMiddle, List.append_nil, List.append_nil])
    | cons b middle =>
      refine hMaximal b (middle ++ rest') hRest' d ⟨middle, ?_⟩
      rw [hMiddle, List.append_assoc, List.singleton_append]

theorem snoc (h : Pending front bits (more + 1) low high) (b : UInt8) (hb : low ≤ b ∧ b ≤ high) :
    Pending (front ++ [b]) (bits * 64 + (b.toNat - 0x80)) more 0x80 0xBF where
  low_le_high := by decide
  append_eq_iff tail c := by
    have hAppend := h.append_eq_iff (b :: tail) c
    rwa [List.append_cons, tails_succ_cons_iff, and_iff_right hb, number_cons] at hAppend

end Pending

/-- From within a character the machine reads one piece, and then goes on from the start. -/
theorem readFrom_inside (rest front : List UInt8) (bits more : Nat) (low high : UInt8)
    (h : Pending front bits more low high) (hFront : front ≠ []) :
    ∃ (piece : Piece) (tail : List UInt8), front ++ rest = piece.bytes ++ tail ∧
      piece.Heads tail ∧ readFrom (.inside bits more low high) rest = piece.mark :: read tail := by
  induction rest generalizing front bits more low high with
  | nil =>
    refine ⟨.invalid front, [], rfl, h.invalid hFront [] ?_, rfl⟩
    intro b tail hCons
    cases hCons
  | cons b rest ih =>
    by_cases hb : low ≤ b ∧ b ≤ high
    · cases more with
      | zero =>
        refine ⟨.char (Char.ofNat (number bits [b])), rest, ?_, trivial, ?_⟩
        · rw [List.append_cons, (h.append_eq_iff [b] _).mpr ⟨⟨b, rfl, hb⟩, rfl⟩, Piece.bytes]
        · rw [readFrom, step, if_pos hb]
          rfl
      | succ more =>
        obtain ⟨piece, tail, hSplit, hHeads, hRead⟩ :=
          ih (front ++ [b]) _ more 0x80 0xBF (h.snoc b hb) (by simp)
        refine ⟨piece, tail, ?_, hHeads, ?_⟩
        · rw [List.append_cons, hSplit]
        · rw [readFrom, step, if_pos hb, ← hRead]
          rfl
    · refine ⟨.invalid front, b :: rest, rfl, h.invalid hFront _ ?_, ?_⟩
      · intro b' tail hCons
        cases hCons
        exact hb
      · rw [readFrom, step, if_neg hb]
        rfl

theorem read_cons (b : UInt8) (rest : List UInt8) :
    ∃ (piece : Piece) (tail : List UInt8), b :: rest = piece.bytes ++ tail ∧
      piece.Heads tail ∧ read (b :: rest) = piece.mark :: read tail := by
  rw [read, readFrom, step]
  rcases firstByte_cases b with ⟨c, hByte, hForm⟩ | ⟨hByte, hForm⟩ | ⟨bits, more, low, high, hByte, h⟩
  · refine ⟨.char c, rest, ?_, trivial, by rw [hByte]; rfl⟩
    rw [Piece.bytes, ← (hForm [] c).mpr ⟨rfl, rfl⟩, List.singleton_append]
  · refine ⟨.invalid [b], rest, rfl, ⟨List.cons_ne_nil _ _, Or.inl rfl, ?_, ?_⟩, by rw [hByte]; rfl⟩
    · rintro b' _ _ c ⟨tail, hTail⟩
      exact hForm _ c hTail
    · rintro c ⟨tail, hTail⟩
      obtain ⟨first, others, hEncode⟩ :=
        List.exists_cons_of_ne_nil (String.utf8EncodeChar_ne_nil (c := c))
      rw [hEncode, List.cons_append, List.singleton_append, List.cons.injEq] at hTail
      exact hForm others c (by rw [hEncode, hTail.1])
  · rw [hByte]
    exact readFrom_inside rest [b] bits more low high h (List.cons_ne_nil _ _)

theorem exists_splits_and_read_eq (bytes : List UInt8) :
    ∃ pieces, Splits bytes pieces ∧ read bytes = pieces.map Piece.mark := by
  induction bytes using (measure List.length).wf.induction with
  | h bytes ih =>
    cases bytes with
    | nil => exact ⟨[], .nil, rfl⟩
    | cons b rest =>
      obtain ⟨piece, tail, hSplit, hHeads, hRead⟩ := read_cons b rest
      obtain ⟨pieces, hSplits, hPieces⟩ := ih tail (by
        change tail.length < (b :: rest).length
        have hLength := congrArg List.length hSplit
        have hPositive := List.length_pos_iff.mpr hHeads.bytes_ne_nil
        rw [List.length_append] at hLength
        omega)
      refine ⟨piece :: pieces, ?_, ?_⟩
      · rw [hSplit]
        exact .cons piece hHeads hSplits
      · rw [hRead, hPieces, List.map_cons]

theorem Invalid.length_le {part part' rest rest' : List UInt8} (h : Invalid part rest)
    (h' : Invalid part' rest') (hBytes : part ++ rest = part' ++ rest') :
    part'.length ≤ part.length := by
  by_contra hLength
  rcases List.append_eq_append_iff.mp hBytes with ⟨middle, rfl, hRest⟩ | ⟨middle, rfl, _⟩
  · cases middle with
    | nil => exact hLength (by simp)
    | cons b middle =>
      rcases h'.begins with hOne | ⟨c, tail, hEncode⟩
      · have hPositive := List.length_pos_iff.mpr h.ne_nil
        rw [List.length_append, List.length_cons] at hOne
        omega
      · refine h.maximal b (middle ++ rest') hRest c ⟨middle ++ tail, ?_⟩
        rw [← hEncode, List.append_assoc, List.append_assoc]
        rfl
  · rw [List.length_append] at hLength
    omega

theorem Piece.heads_unique (piece piece' : Piece) (rest rest' : List UInt8) (h : piece.Heads rest)
    (h' : piece'.Heads rest') (hBytes : piece.bytes ++ rest = piece'.bytes ++ rest') :
    piece = piece' ∧ rest = rest' := by
  cases piece with
  | char c =>
    cases piece' with
    | char c' =>
      obtain ⟨rfl, rfl⟩ := encode_append_inj c c' rest rest' hBytes
      exact ⟨rfl, rfl⟩
    | invalid part' => exact absurd ⟨rest, hBytes⟩ (h'.no_char c)
  | invalid part =>
    cases piece' with
    | char c' => exact absurd ⟨rest', hBytes.symm⟩ (h.no_char c')
    | invalid part' =>
      have hLength : part.length = part'.length :=
        Nat.le_antisymm (Invalid.length_le h' h hBytes.symm) (Invalid.length_le h h' hBytes)
      obtain ⟨rfl, rfl⟩ := List.append_inj hBytes hLength
      exact ⟨rfl, rfl⟩

theorem Splits.unique {bytes : List UInt8} {pieces pieces' : List Piece} (h : Splits bytes pieces)
    (h' : Splits bytes pieces') : pieces = pieces' := by
  induction h generalizing pieces' with
  | nil =>
    generalize hBytes : ([] : List UInt8) = bytes at h'
    cases h' with
    | nil => rfl
    | cons piece hHeads _ =>
      exact absurd (List.append_eq_nil_iff.mp hBytes.symm).1 hHeads.bytes_ne_nil
  | @cons piece rest pieces hHeads _ ih =>
    generalize hBytes : piece.bytes ++ rest = bytes at h'
    cases h' with
    | nil => exact absurd (List.append_eq_nil_iff.mp hBytes).1 hHeads.bytes_ne_nil
    | cons piece' hHeads' hSplits' =>
      obtain ⟨rfl, rfl⟩ := Piece.heads_unique piece piece' _ _ hHeads hHeads' hBytes
      rw [ih hSplits']

theorem read_eq_of_splits {bytes : List UInt8} {pieces : List Piece} (h : Splits bytes pieces) :
    read bytes = pieces.map Piece.mark := by
  obtain ⟨pieces', hSplits, hRead⟩ := exists_splits_and_read_eq bytes
  rw [hRead, h.unique hSplits]

end HeaderRename.Utf8
