import HeaderRename.Proofs.Text.Pieces
import HeaderRename.Text.Encoding
import Mathlib.Data.List.GetD
import Mathlib.Data.List.Nodup

/-!
# Decoding and encoding again

What is decoded from a file and encoded again is the file itself, save that invalid parts of UTF-8
are dropped or marked. No character that was decoded falls outside its code page, and all but ASCII
characters are written in bytes that are not ASCII.
-/
set_option autoImplicit false

namespace HeaderRename

open Alphabet (toNat_ofNat_byte toNat_ofNat_of_isValidChar)

/-- ASCII characters are written as themselves, and the others of the text in other bytes. -/
structure Transparent (enc : Char → List UInt8) (text : Text) : Prop where
  ascii : ∀ c, c.toNat < 128 → enc c = [UInt8.ofNat c.toNat]
  ne_nil : ∀ c ∈ text, enc c ≠ []
  upper : ∀ c ∈ text, 128 ≤ c.toNat → ∀ b ∈ enc c, 128 ≤ b.toNat

namespace CodePage

variable (page : CodePage)

theorem encodeChar_of_lt (c : Char) (h : c.toNat < 128) :
    page.encodeChar c = [UInt8.ofNat c.toNat] := by
  rw [encodeChar, byte?, if_pos h]

theorem byte?_decodeByte (b : UInt8) : page.byte? (page.decodeByte b) = some b := by
  have hByte : b.toNat < 256 := b.toNat_lt
  by_cases h : b.toNat < 128
  · rw [decodeByte, if_pos h, byte?, toNat_ofNat_byte, if_pos h, UInt8.ofNat_toNat]
  · have hIndex : b.toNat - 128 < page.upper.length := by
      rw [page.length_upper]
      omega
    rw [decodeByte, if_neg h, List.getD_eq_getElem _ _ hIndex]
    generalize hc : page.upper[b.toNat - 128] = c
    have hUpper : 128 ≤ c.toNat := page.le_of_mem_upper c (hc ▸ List.getElem_mem hIndex)
    have hFind : page.upper.idxOf? c = some (b.toNat - 128) := by
      refine List.idxOf?_eq_some_iff.mpr ⟨hIndex, hc, ?_⟩
      intro j hj hSame
      have hEq := (List.Nodup.getElem_inj_iff page.nodup_upper).mp (hSame.trans hc.symm)
      omega
    have hSum : 128 + (b.toNat - 128) = b.toNat := by omega
    rw [byte?, if_neg (Nat.not_lt.mpr hUpper), hFind, Option.map_some, hSum, UInt8.ofNat_toNat]

theorem encodeChar_decodeByte (b : UInt8) : page.encodeChar (page.decodeByte b) = [b] := by
  rw [encodeChar, byte?_decodeByte]

theorem encode_decode (bytes : List UInt8) : page.encode (page.decode bytes) = bytes := by
  induction bytes with
  | nil => rfl
  | cons b rest ih =>
    change page.encodeChar (page.decodeByte b) ++ page.encode (page.decode rest) = b :: rest
    rw [encodeChar_decodeByte, ih, List.singleton_append]

theorem decodeByte_of_byte?_eq_some (c : Char) (b : UInt8) (h : page.byte? c = some b) :
    page.decodeByte b = c := by
  unfold byte? at h
  split at h
  · rename_i hAscii
    obtain rfl := Option.some.inj h
    have hByte : (UInt8.ofNat c.toNat).toNat = c.toNat := Utf8.toNat_ofNat_lt _ (by omega)
    rw [decodeByte, hByte, if_pos hAscii, Char.ofNat_toNat]
  · obtain ⟨i, hFind, rfl⟩ := Option.map_eq_some_iff.mp h
    obtain ⟨hIndex, hc, _⟩ := List.idxOf?_eq_some_iff.mp hFind
    have hLength := page.length_upper
    have hByte : (UInt8.ofNat (128 + i)).toNat = 128 + i := Utf8.toNat_ofNat_lt _ (by omega)
    rw [decodeByte, hByte, if_neg (by omega), Nat.add_sub_cancel_left,
      List.getD_eq_getElem _ _ hIndex, hc]

theorem decode_encode (text : List Char) (h : ∀ c ∈ text, (page.byte? c).isSome = true) :
    page.decode (page.encode text) = text := by
  induction text with
  | nil => rfl
  | cons c rest ih =>
    obtain ⟨hc, hRest⟩ := List.forall_mem_cons.mp h
    obtain ⟨b, hb⟩ := Option.isSome_iff_exists.mp hc
    have hChar : page.encodeChar c = [b] := by rw [encodeChar, hb]
    change (page.encodeChar c ++ page.encode rest).map page.decodeByte = c :: rest
    rw [hChar, List.singleton_append, List.map_cons, page.decodeByte_of_byte?_eq_some c b hb]
    exact congrArg (c :: ·) (ih hRest)

theorem transparent_decode (bytes : List UInt8) :
    Transparent page.encodeChar (page.decode bytes) where
  ascii := page.encodeChar_of_lt
  ne_nil := by
    intro c hc
    obtain ⟨b, _, rfl⟩ := List.mem_map.mp hc
    rw [encodeChar_decodeByte]
    exact List.cons_ne_nil _ _
  upper := by
    intro c hc hUpper b' hb'
    obtain ⟨b, _, rfl⟩ := List.mem_map.mp hc
    rw [encodeChar_decodeByte, List.mem_singleton] at hb'
    subst hb'
    by_contra h
    rw [decodeByte, if_pos (by omega), toNat_ofNat_byte] at hUpper
    omega

end CodePage

namespace Utf8

theorem transparent_encode (text : Text) : Transparent String.utf8EncodeChar text where
  ascii := by
    intro c h
    rcases encode_cases c with ⟨_, hc⟩ | ⟨_, _, _⟩ | ⟨_, _, _, _⟩ | ⟨_, _, _⟩
    · exact hc
    all_goals omega
  ne_nil := fun _ _ => String.utf8EncodeChar_ne_nil
  upper := by
    intro c _ h b hb
    rcases encode_cases c with ⟨_, _⟩ | ⟨_, _, hc⟩ | ⟨_, _, _, hc⟩ | ⟨_, _, hc⟩
    · omega
    all_goals
      rw [hc] at hb
      simp only [List.mem_cons, List.not_mem_nil, or_false] at hb
    · rcases hb with rfl | rfl <;> rw [toNat_ofNat_lt _ (by omega)] <;> omega
    · rcases hb with rfl | rfl | rfl <;> rw [toNat_ofNat_lt _ (by omega)] <;> omega
    · rcases hb with rfl | rfl | rfl | rfl <;> rw [toNat_ofNat_lt _ (by omega)] <;> omega

/-- What is left of a piece when invalid parts are dropped or marked. -/
def Piece.clean (policy : DecodePolicy) : Piece → List UInt8
  | char c => String.utf8EncodeChar c
  | invalid _ =>
    match policy with
    | .ignore => []
    | .replace => [0xEF, 0xBF, 0xBD]

theorem splits_write (text : Text) : Splits (write text) (text.map Piece.char) := by
  induction text with
  | nil => exact .nil
  | cons c rest ih => exact .cons (.char c) trivial ih

theorem read_write (text : Text) : read (write text) = text.map some := by
  rw [read_eq_of_splits (splits_write text), List.map_map]
  rfl

theorem decodeMarking_write (text : Text) : decodeMarking (write text) = text := by
  rw [decodeMarking, read_write, List.map_map]
  exact List.map_id' text

theorem write_decodeDropping {bytes : List UInt8} {pieces : List Piece} (h : Splits bytes pieces) :
    write (decodeDropping bytes) = pieces.flatMap (Piece.clean .ignore) := by
  rw [decodeDropping, read_eq_of_splits h, write]
  clear h
  induction pieces with
  | nil => rfl
  | cons piece rest ih =>
    rw [List.flatMap_cons, ← ih]
    cases piece <;> rfl

theorem write_decodeMarking {bytes : List UInt8} {pieces : List Piece} (h : Splits bytes pieces) :
    write (decodeMarking bytes) = pieces.flatMap (Piece.clean .replace) := by
  have hMark : String.utf8EncodeChar replacement = [0xEF, 0xBF, 0xBD] := by decide
  rw [decodeMarking, read_eq_of_splits h, write, List.map_map, List.flatMap_map]
  congr 1
  funext piece
  cases piece with
  | char c => rfl
  | invalid part => exact hMark

end Utf8

namespace Encoding

open Utf8

/-- What is left of the bytes when their invalid parts are dropped or marked. -/
def Cleans (encoding : Encoding) (policy : DecodePolicy) (bytes cleaned : List UInt8) : Prop :=
  match encoding.page? with
  | some _ => cleaned = bytes
  | none => ∃ pieces, Splits bytes pieces ∧ cleaned = pieces.flatMap (Piece.clean policy)

def encodeChar (encoding : Encoding) (c : Char) : List UInt8 :=
  match encoding.page? with
  | some page => page.encodeChar c
  | none => String.utf8EncodeChar c

theorem encode_eq_flatMap (encoding : Encoding) (text : Text) :
    encoding.encode text = text.flatMap encoding.encodeChar := by
  cases encoding <;> rfl

theorem decode_encode (encoding : Encoding) (policy : DecodePolicy) (text : Text)
    (h : ∀ page, encoding.page? = some page → ∀ c ∈ text, (page.byte? c).isSome = true) :
    encoding.decode policy (encoding.encode text) = text := by
  cases encoding with
  | utf8 =>
    cases policy with
    | ignore =>
      change (read (write text)).filterMap id = text
      rw [read_write, List.filterMap_map, Function.id_comp, List.filterMap_some]
    | replace => exact decodeMarking_write text
  | acp => exact CodePage.western.decode_encode text (h _ rfl)
  | oem => exact CodePage.cyrillic.decode_encode text (h _ rfl)

theorem transparent_decode (encoding : Encoding) (policy : DecodePolicy) (bytes : List UInt8) :
    Transparent encoding.encodeChar (encoding.decode policy bytes) := by
  cases encoding with
  | utf8 => exact transparent_encode _
  | acp => exact CodePage.western.transparent_decode bytes
  | oem => exact CodePage.cyrillic.transparent_decode bytes

theorem exists_cleans (encoding : Encoding) (policy : DecodePolicy) (bytes : List UInt8) :
    ∃ cleaned, encoding.Cleans policy bytes cleaned := by
  obtain ⟨pieces, hSplits, _⟩ := exists_splits_and_read_eq bytes
  cases encoding with
  | utf8 => exact ⟨_, pieces, hSplits, rfl⟩
  | acp => exact ⟨bytes, rfl⟩
  | oem => exact ⟨bytes, rfl⟩

namespace Cleans

variable {encoding : Encoding} {policy : DecodePolicy} {bytes cleaned : List UInt8}

theorem encode_decode (h : encoding.Cleans policy bytes cleaned) :
    encoding.encode (encoding.decode policy bytes) = cleaned := by
  cases encoding with
  | utf8 =>
    obtain ⟨pieces, hSplits, rfl⟩ := h
    cases policy with
    | ignore => exact write_decodeDropping hSplits
    | replace => exact write_decodeMarking hSplits
  | acp =>
    obtain rfl := h
    exact CodePage.western.encode_decode _
  | oem =>
    obtain rfl := h
    exact CodePage.cyrillic.encode_decode _

theorem unique {cleaned' : List UInt8} (h : encoding.Cleans policy bytes cleaned)
    (h' : encoding.Cleans policy bytes cleaned') : cleaned = cleaned' := by
  rw [← h.encode_decode, ← h'.encode_decode]

theorem eq_of_page (h : encoding.Cleans policy bytes cleaned) (hPage : encoding ≠ .utf8) :
    cleaned = bytes := by
  cases encoding with
  | utf8 => exact absurd rfl hPage
  | acp | oem => exact h

theorem eq_of_valid (h : encoding.Cleans policy bytes cleaned) (text : Text)
    (hText : bytes = write text) : cleaned = bytes := by
  cases encoding with
  | utf8 =>
    obtain ⟨pieces, hSplits, rfl⟩ := h
    subst hText
    rw [hSplits.unique (splits_write text), List.flatMap_map]
    rfl
  | acp | oem => exact h

end Cleans

end Encoding

end HeaderRename
