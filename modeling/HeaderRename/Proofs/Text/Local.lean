import HeaderRename.Proofs.Text.Clean

/-!
# Invalid bytes beside valid text

Within a character only bytes that continue one are wanted, and no character starts with such a
byte. So whatever was cut short before a text ends where the text begins, as it would at the end of
the file, and text among invalid bytes is read as it stands.
-/
set_option autoImplicit false

namespace HeaderRename

namespace Utf8

/-- The byte is one of those behind the first in an encoding. -/
def Continues (b : UInt8) : Prop :=
  0x80 ≤ b.toNat ∧ b.toNat ≤ 0xBF

namespace State

def WantsContinuation : State → Prop
  | start => True
  | inside _ _ low high => 0x80 ≤ low.toNat ∧ high.toNat ≤ 0xBF

theorem wantsContinuation_firstByte (b : UInt8) : (firstByte b).2.WantsContinuation := by
  rw [firstByte]
  repeat' split
  all_goals first | exact trivial | exact ⟨by decide, by decide⟩

theorem WantsContinuation.step {state : State} (h : state.WantsContinuation) (b : UInt8) :
    (Utf8.step state b).2.WantsContinuation := by
  cases state with
  | start => exact wantsContinuation_firstByte b
  | inside bits more low high =>
    rw [Utf8.step]
    split
    · cases more with
      | zero => trivial
      | succ more => exact ⟨by decide, by decide⟩
    · exact wantsContinuation_firstByte b

end State

/-- A byte that continues no character ends the one under way, as the end of the bytes does. -/
theorem step_of_not_continues {state : State} (h : state.WantsContinuation) {b : UInt8}
    (hb : ¬Continues b) :
    step state b = (finish state ++ (firstByte b).1, (firstByte b).2) := by
  cases state with
  | start => rfl
  | inside bits more low high =>
    have hOut : ¬(low ≤ b ∧ b ≤ high) := by
      rw [between_iff]
      rintro ⟨hLow, hHigh⟩
      exact hb ⟨Nat.le_trans h.1 hLow, Nat.le_trans hHigh h.2⟩
    rw [step, if_neg hOut]
    rfl

theorem readFrom_cons (state : State) (b : UInt8) (rest : List UInt8) :
    readFrom state (b :: rest) = (step state b).1 ++ readFrom (step state b).2 rest := rfl

theorem readFrom_append {state : State} (h : state.WantsContinuation) (front : List UInt8)
    {b : UInt8} (hb : ¬Continues b) (back : List UInt8) :
    readFrom state (front ++ b :: back) = readFrom state front ++ read (b :: back) := by
  induction front generalizing state with
  | nil =>
    rw [List.nil_append, readFrom_cons, step_of_not_continues h hb, List.append_assoc]
    rfl
  | cons b' front ih =>
    rw [List.cons_append, readFrom_cons, ih (h.step b'), readFrom_cons, List.append_assoc]

theorem not_continues_of_encode_eq_cons {c : Char} {b : UInt8} {tail : List UInt8}
    (h : String.utf8EncodeChar c = b :: tail) : ¬Continues b := by
  rintro ⟨hLow, hHigh⟩
  rcases cons_eq_encode_cases b tail c h.symm with ⟨_, hFirst, _⟩ | ⟨_, _, hFirst, _⟩ |
    ⟨_, _, _, hFirst, _⟩ | ⟨_, _, hFirst, _⟩
  all_goals omega

theorem read_write_append (text : List Char) (back : List UInt8) :
    read (write text ++ back) = text.map some ++ read back := by
  induction text with
  | nil => rfl
  | cons c text ih =>
    rw [write, List.flatMap_cons, List.append_assoc, ← write, read_encode_append, ih]
    rfl

theorem read_append_write_append (front back : List UInt8) {text : List Char} (hText : text ≠ []) :
    read (front ++ write text ++ back) = read front ++ text.map some ++ read back := by
  obtain ⟨c, text, rfl⟩ := List.exists_cons_of_ne_nil hText
  obtain ⟨b, tail, hEncode⟩ := List.exists_cons_of_ne_nil (String.utf8EncodeChar_ne_nil (c := c))
  have hWrite : write (c :: text) ++ back = b :: (tail ++ (write text ++ back)) := by
    rw [write, List.flatMap_cons, hEncode, List.append_assoc, List.cons_append, ← write]
  have hStart : State.start.WantsContinuation := trivial
  have hRead := readFrom_append hStart front (not_continues_of_encode_eq_cons hEncode)
    (tail ++ (write text ++ back))
  rw [← hWrite, read_write_append] at hRead
  rw [List.append_assoc, List.append_assoc]
  exact hRead

theorem mapM_id_eq_some_iff {α : Type} (items : List (Option α)) (values : List α) :
    items.mapM id = some values ↔ items = values.map some := by
  induction items generalizing values with
  | nil => cases values <;> simp
  | cons item items ih =>
    cases item with
    | none => cases values <;> simp
    | some value =>
      rw [List.mapM_cons]
      change (items.mapM id).bind (fun rest => some (value :: rest)) = some values ↔ _
      rw [Option.bind_eq_some_iff]
      constructor
      · rintro ⟨rest, hRest, hValues⟩
        rw [(ih rest).mp hRest, ← Option.some.inj hValues, List.map_cons]
      · intro h
        obtain ⟨first, rest, rfl, hFirst, hRest⟩ := List.map_eq_cons_iff.mp h.symm
        exact ⟨rest, (ih rest).mpr hRest.symm, by rw [Option.some.inj hFirst]⟩

theorem eq_map_char_of_map_mark_eq {pieces : List Piece} {text : List Char}
    (h : pieces.map Piece.mark = text.map some) : pieces = text.map Piece.char := by
  induction pieces generalizing text with
  | nil => rw [List.map_eq_nil_iff.mp h.symm, List.map_nil]
  | cons piece pieces ih =>
    obtain ⟨c, rest, rfl, hPiece, hRest⟩ := List.map_eq_cons_iff.mp h.symm
    cases piece with
    | char d => rw [ih hRest.symm, List.map_cons, Option.some.inj hPiece]
    | invalid part => cases hPiece

theorem decode?_eq_some_iff (bytes : List UInt8) (text : List Char) :
    decode? bytes = some text ↔ bytes = write text := by
  rw [decode?, mapM_id_eq_some_iff]
  constructor
  · intro hRead
    obtain ⟨pieces, hSplits, hPieces⟩ := exists_splits_and_read_eq bytes
    have hChars := eq_map_char_of_map_mark_eq (hPieces.symm.trans hRead)
    rw [← hSplits.flatMap_bytes, hChars, List.flatMap_map]
    rfl
  · rintro rfl
    exact read_write text

end Utf8

namespace Encoding

theorem decode_utf8_of_read_append (policy : DecodePolicy) {bytes front back : List UInt8}
    {text : Text} (h : Utf8.read bytes = Utf8.read front ++ text.map some ++ Utf8.read back) :
    utf8.decode policy bytes = utf8.decode policy front ++ text ++ utf8.decode policy back := by
  cases policy with
  | ignore =>
    change (Utf8.read bytes).filterMap id = _
    rw [h, List.filterMap_append, List.filterMap_append, List.filterMap_map, Function.id_comp,
      List.filterMap_some]
    rfl
  | replace =>
    change (Utf8.read bytes).map (·.getD Utf8.replacement) = _
    rw [h, List.map_append, List.map_append, List.map_map]
    exact congrArg (fun middle => _ ++ middle ++ _) (List.map_id' text)

/-- Text is decoded as it stands, whatever the bytes around it: these are decoded as they would be
without it. Bytes that are the encoding of a text are found to be so, and decode to this text. -/
theorem decode_append_encode_append (policy : DecodePolicy) (front back : List UInt8) (text : Text)
    (hText : text ≠ []) :
    utf8.decode policy (front ++ utf8.encode text ++ back) =
        utf8.decode policy front ++ text ++ utf8.decode policy back ∧
      ∀ (bytes : List UInt8) (valid : Text),
        (Utf8.decode? bytes = some valid ↔ bytes = utf8.encode valid) ∧
          (Utf8.decode? bytes = some valid → utf8.decode policy bytes = valid) := by
  refine ⟨?_, fun bytes valid => ?_⟩
  · exact decode_utf8_of_read_append policy (Utf8.read_append_write_append front back hText)
  · have hValid := Utf8.decode?_eq_some_iff bytes valid
    refine ⟨hValid, fun h => ?_⟩
    rw [hValid.mp h]
    exact decode_encode utf8 policy valid fun page hPage => by cases hPage

/-- A character cut short in front of the euro sign and bytes of one behind it: alone the outer
bytes would have made a euro sign of their own. -/
theorem decode_append_encode_append_euro :
    ['€'] ≠ [] ∧
      utf8.decode .replace ([0xE2, 0x82] ++ utf8.encode ['€'] ++ [0xAC]) =
        utf8.decode .replace [0xE2, 0x82] ++ ['€'] ++ utf8.decode .replace [0xAC] ∧
      utf8.decode .replace [0xE2, 0x82] ++ ['€'] ++ utf8.decode .replace [0xAC] =
        ['\uFFFD', '€', '\uFFFD'] ∧
      utf8.decode .replace ([0xE2, 0x82] ++ [0xAC]) = ['€'] ∧
      Utf8.decode? [0xE2, 0x82, 0xAC] = some ['€'] := by
  have hText : ['€'] ≠ [] := List.cons_ne_nil _ _
  obtain ⟨hDecode, hValid⟩ :=
    decode_append_encode_append .replace [0xE2, 0x82] [0xAC] ['€'] hText
  exact ⟨hText, hDecode, by decide, by decide, (hValid [0xE2, 0x82, 0xAC] ['€']).1.mpr (by decide)⟩

end Encoding

end HeaderRename
