import HeaderRename.Proofs.Text.Clean

/-!
# There and back through a code page

Bytes come back from their characters as they were, as a page has a character of its own for every
byte. A text comes back with its characters outside the page spelled out as references. A reference
is longer than what it stands for, and so only a text of the page comes back as it was.
-/
set_option autoImplicit false

namespace HeaderRename

namespace Utf8

theorem toList_loop (bytes : ByteArray) (i : Nat) (read : List UInt8) :
    ByteArray.toList.loop bytes i read = read.reverse ++ bytes.data.toList.drop i := by
  fun_induction ByteArray.toList.loop bytes i read with
  | case1 i read hLess ih =>
    have hIndex : i < bytes.data.toList.length := by simpa using hLess
    have hByte : bytes.get! i = bytes.data.toList[i] := by
      change bytes.data[i]! = _
      rw [getElem!_pos bytes.data i hLess, Array.getElem_toList]
    rw [ih, List.drop_eq_getElem_cons hIndex, hByte, List.reverse_cons, List.append_assoc,
      List.singleton_append]
  | case2 i read hEnd =>
    have hLength : bytes.data.toList.length ≤ i := by simpa using hEnd
    rw [List.drop_eq_nil_of_le hLength, List.append_nil]

theorem toList_toUTF8 (text : String) : text.toUTF8.toList = write text.toList := by
  have hBytes : text.toUTF8 = (write text.toList).toByteArray := String.utf8Encode_toList.symm
  rw [ByteArray.toList, toList_loop, List.reverse_nil, List.nil_append, List.drop_zero, hBytes,
    List.toList_data_toByteArray]

end Utf8

namespace CodePage

/-- The reference to a character, as text. -/
def referenceText (c : Char) : Text :=
  '&' :: '#' :: (Nat.toDigits 10 c.toNat ++ [';'])

theorem reference_eq_write (c : Char) : reference c = Utf8.write (referenceText c) := by
  have hText : ("&#" ++ toString c.toNat ++ ";").toList = referenceText c := by
    simp [referenceText]
  rw [reference, Utf8.toList_toUTF8, hText]

theorem toNat_lt_of_mem_referenceText {c d : Char} (h : d ∈ referenceText c) : d.toNat < 128 := by
  rw [referenceText, List.mem_cons, List.mem_cons, List.mem_append, List.mem_singleton] at h
  rcases h with rfl | rfl | hDigit | rfl
  · decide
  · decide
  · have hDigit := Nat.isDigit_of_mem_toDigits (by omega) (by omega) hDigit
    rw [Char.isDigit, Bool.and_eq_true, decide_eq_true_eq, decide_eq_true_eq] at hDigit
    exact Nat.lt_of_le_of_lt hDigit.2 (by decide)
  · decide

theorem two_lt_length_referenceText (c : Char) : 2 < (referenceText c).length := by
  simp [referenceText]

variable (page : CodePage)

/-- The character has a byte on the page. -/
def Has (c : Char) : Prop :=
  c.toNat < 128 ∨ c ∈ page.upper

instance (c : Char) : Decidable (page.Has c) :=
  inferInstanceAs (Decidable (_ ∨ _))

theorem isSome_byte?_iff (c : Char) : (page.byte? c).isSome = true ↔ page.Has c := by
  rw [byte?, Has]
  split
  · next h => simp [h]
  · next h => simp [h, List.isSome_idxOf?]

/-- Just these characters are decoded. -/
theorem has_iff_exists_decodeByte (c : Char) : page.Has c ↔ ∃ b, page.decodeByte b = c := by
  rw [← isSome_byte?_iff]
  constructor
  · intro h
    obtain ⟨b, hb⟩ := Option.isSome_iff_exists.mp h
    exact ⟨b, page.decodeByte_of_byte?_eq_some c b hb⟩
  · rintro ⟨b, rfl⟩
    rw [byte?_decodeByte]
    rfl

/-- What a character comes back as. -/
def spelling (c : Char) : Text :=
  if page.Has c then [c] else referenceText c

theorem decode_append (front back : List UInt8) :
    page.decode (front ++ back) = page.decode front ++ page.decode back :=
  List.map_append

theorem decode_write_of_ascii (text : Text) (h : ∀ c ∈ text, c.toNat < 128) :
    page.decode (Utf8.write text) = text := by
  induction text with
  | nil => rfl
  | cons c rest ih =>
    obtain ⟨hc, hRest⟩ := List.forall_mem_cons.mp h
    have hByte : page.byte? c = some (UInt8.ofNat c.toNat) := if_pos hc
    rw [Utf8.write, List.flatMap_cons, (Utf8.transparent_encode [c]).ascii c hc, ← Utf8.write,
      decode_append, ih hRest, decode, List.map_singleton,
      page.decodeByte_of_byte?_eq_some c _ hByte, List.singleton_append]

theorem decode_encodeChar (c : Char) : page.decode (page.encodeChar c) = page.spelling c := by
  by_cases h : page.Has c
  · obtain ⟨b, hb⟩ := Option.isSome_iff_exists.mp ((page.isSome_byte?_iff c).mpr h)
    rw [spelling, if_pos h, encodeChar, hb, decode, List.map_singleton,
      page.decodeByte_of_byte?_eq_some c b hb]
  · have hNone : page.byte? c = none := by
      rw [← Option.not_isSome_iff_eq_none, isSome_byte?_iff]
      exact h
    rw [spelling, if_neg h, encodeChar, hNone, reference_eq_write]
    exact page.decode_write_of_ascii _ fun d hd => toNat_lt_of_mem_referenceText hd

theorem decode_encode_eq_flatMap (text : Text) :
    page.decode (page.encode text) = text.flatMap page.spelling := by
  induction text with
  | nil => rfl
  | cons c rest ih =>
    rw [encode, List.flatMap_cons, ← encode, decode_append, decode_encodeChar, ih,
      List.flatMap_cons]

theorem length_le_length_flatMap_spelling (text : Text) :
    text.length ≤ (text.flatMap page.spelling).length := by
  induction text with
  | nil => exact Nat.le_refl _
  | cons c rest ih =>
    have hOne : 1 ≤ (page.spelling c).length := by
      rw [spelling]
      split
      · exact Nat.le_refl 1
      · have := two_lt_length_referenceText c
        omega
    rw [List.flatMap_cons, List.length_append, List.length_cons]
    omega

theorem flatMap_spelling_eq_self_iff (text : Text) :
    text.flatMap page.spelling = text ↔ ∀ c ∈ text, page.Has c := by
  induction text with
  | nil => simp
  | cons c rest ih =>
    rw [List.flatMap_cons, List.forall_mem_cons]
    by_cases h : page.Has c
    · rw [spelling, if_pos h, List.singleton_append, List.cons.injEq, ih]
      simp [h]
    · -- a reference leaves no room for the rest of the text
      refine iff_of_false (fun hSame => ?_) fun hHas => h hHas.1
      have hLength := congrArg List.length hSame
      rw [spelling, if_neg h, List.length_append, List.length_cons] at hLength
      have hReference := two_lt_length_referenceText c
      have hRest := page.length_le_length_flatMap_spelling rest
      omega

end CodePage

namespace Encoding

/-- An encoding by a code page gives all bytes back as they were, whatever the policy, and a text
with the characters outside the page replaced by references; so it gives just the texts of the page
back as they were. -/
theorem decode_encode_eq_self_iff {encoding : Encoding} {page : CodePage}
    (hPage : encoding.page? = some page) (policy : DecodePolicy) :
    (∀ bytes, encoding.encode (encoding.decode policy bytes) = bytes) ∧
      (∀ text, encoding.decode policy (encoding.encode text) = text.flatMap page.spelling) ∧
      (∀ text, encoding.decode policy (encoding.encode text) = text ↔ ∀ c ∈ text, page.Has c) ∧
      ∀ c, page.Has c ↔ ∃ b, page.decodeByte b = c := by
  have hDecode (bytes : List UInt8) : encoding.decode policy bytes = page.decode bytes := by
    simp only [decode, hPage]
  have hEncode (text : Text) : encoding.encode text = page.encode text := by
    simp only [encode, hPage]
  refine ⟨fun bytes => ?_, fun text => ?_, fun text => ?_, page.has_iff_exists_decodeByte⟩
  · rw [hDecode, hEncode, page.encode_decode]
  · rw [hDecode, hEncode, page.decode_encode_eq_flatMap]
  · rw [hDecode, hEncode, page.decode_encode_eq_flatMap, page.flatMap_spelling_eq_self_iff]

/-- A letter of the page comes back, and the euro sign, which the page lacks, as its reference. -/
theorem decode_encode_eq_self_iff_euro :
    oem.page? = some .cyrillic ∧
      oem.decode .ignore (oem.encode ['ж']) = ['ж'] ∧
      oem.decode .ignore (oem.encode ['ж', '€']) = 'ж' :: "&#8364;".toList ∧
      oem.decode .ignore (oem.encode ['ж', '€']) ≠ ['ж', '€'] := by
  have hPage : oem.page? = some .cyrillic := rfl
  obtain ⟨_, hText, hSame, _⟩ := decode_encode_eq_self_iff hPage .ignore
  have hLetter : CodePage.cyrillic.Has 'ж' := by decide +kernel
  have hEuro : ¬CodePage.cyrillic.Has '€' := by decide +kernel
  refine ⟨hPage, (hSame ['ж']).mpr (List.forall_mem_singleton.mpr hLetter), ?_, ?_⟩
  · rw [hText]
    decide +kernel
  · intro h
    exact hEuro ((hSame ['ж', '€']).mp h '€' (by simp))

end Encoding

end HeaderRename
