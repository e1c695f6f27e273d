import HeaderRename.Proofs.Directive.Scan
import HeaderRename.Proofs.Text.Clean

/-!
# Directives in the bytes of a text

An encoding that keeps ASCII leaves the directives of a text where they stand, and makes no others:
scanning the bytes gives the bytes of the scanned text. As a directive has no ampersand, a scan
makes no character reference either.
-/
set_option autoImplicit false

namespace HeaderRename

namespace Directive

open Alphabet

section Symbols

variable {α : Type} [Alphabet α]

theorem first?_cons_eq_none (a : α) (rest : List α) (h : char a ≠ '#') :
    first? ((a :: rest).map char) = none := by
  cases hFirst : first? ((a :: rest).map char) with
  | none => rfl
  | some found =>
    obtain ⟨_, hPrefix⟩ := (first?_eq_some_iff _ found.1 found.2).mp hFirst
    rw [Bracket.directive_eq, List.map_cons, List.cons_prefix_cons] at hPrefix
    exact absurd hPrefix.1.symm h

theorem scan_append_of_notMem (f : Bracket → String → String) (front : List α)
    (h : ∀ a ∈ front, char a ≠ '#') (s : List α) : scan f (front ++ s) = front ++ scan f s := by
  induction front with
  | nil => rfl
  | cons a front ih =>
    rw [List.cons_append, scan_cons_of_first?_eq_none f a _
      (first?_cons_eq_none a _ (h a List.mem_cons_self)),
      ih fun b hb => h b (List.mem_cons_of_mem a hb), List.cons_append]

end Symbols

theorem flatMap_of_ascii {enc : Char → List UInt8}
    (hAscii : ∀ c : Char, c.toNat < 128 → enc c = [UInt8.ofNat c.toNat]) (front : Text)
    (h : ∀ c ∈ front, c.toNat < 128) : front.flatMap enc = front.map ofChar := by
  induction front with
  | nil => rfl
  | cons c front ih =>
    rw [List.flatMap_cons, hAscii c (h c List.mem_cons_self),
      ih fun d hd => h d (List.mem_cons_of_mem c hd)]
    rfl

end Directive

namespace Transparent

open Alphabet

variable {enc : Char → List UInt8} {text : Text}

theorem tail {c : Char} (h : Transparent enc (c :: text)) : Transparent enc text where
  ascii := h.ascii
  ne_nil := fun d hd => h.ne_nil d (List.mem_cons_of_mem c hd)
  upper := fun d hd => h.upper d (List.mem_cons_of_mem c hd)

theorem char_toNat_le {c : Char} (h : Transparent enc text) (hc : c ∈ text) (hUpper : 128 ≤ c.toNat)
    (b : UInt8) (hb : b ∈ enc c) : 128 ≤ (char b).toNat := by
  have hByte : (char b).toNat = b.toNat := toNat_ofNat_byte b
  rw [hByte]
  exact h.upper c hc hUpper b hb

/-- ASCII stands at the front of the bytes just where it does so in the text. -/
theorem prefix_map_char_flatMap_iff (h : Transparent enc text) (front : Text)
    (hFront : ∀ c ∈ front, c.toNat < 128) :
    front <+: (text.flatMap enc).map char ↔ front <+: text := by
  induction front generalizing text with
  | nil => simp
  | cons d front ih =>
    have hd := hFront d List.mem_cons_self
    cases text with
    | nil => rfl
    | cons c rest =>
      rw [List.flatMap_cons]
      by_cases hc : c.toNat < 128
      · have hChar : char (UInt8.ofNat c.toNat) = c := char_ofChar c hc
        rw [h.ascii c hc, List.singleton_append, List.map_cons, hChar, List.cons_prefix_cons,
          List.cons_prefix_cons, ih h.tail fun e he => hFront e (List.mem_cons_of_mem d he)]
      · obtain ⟨b, bytes, hBytes⟩ := List.exists_cons_of_ne_nil (h.ne_nil c List.mem_cons_self)
        have hb := h.char_toNat_le List.mem_cons_self (Nat.not_lt.mp hc) b
          (hBytes ▸ List.mem_cons_self)
        rw [hBytes, List.cons_append, List.map_cons, List.cons_prefix_cons, List.cons_prefix_cons]
        constructor
        · rintro ⟨rfl, _⟩
          omega
        · rintro ⟨rfl, _⟩
          omega

end Transparent

namespace Directive

open Alphabet

theorem first?_map_char_flatMap {enc : Char → List UInt8} {text : Text}
    (h : Transparent enc text) : first? ((text.flatMap enc).map char) = first? text := by
  apply Option.ext
  rintro ⟨bracket, name⟩
  rw [first?_eq_some_iff, first?_eq_some_iff]
  apply and_congr_right
  intro hName
  exact h.prefix_map_char_flatMap_iff _ (Bracket.toNat_lt_of_mem_directive bracket name hName)

theorem scan_flatMap {f : Bracket → String → String} (hf : KeepsNames f)
    {enc : Char → List UInt8} {text : Text} (h : Transparent enc text) :
    scan f (text.flatMap enc) = (scan f text).flatMap enc := by
  induction text using Directive.induction with
  | nil => rfl
  | symbol c rest hFirst ih =>
    rw [scan_cons_of_first?_eq_none f c rest hFirst, List.flatMap_cons, List.flatMap_cons,
      ← ih h.tail]
    rw [map_char_text] at hFirst
    by_cases hc : c.toNat < 128
    · have hBytes := first?_map_char_flatMap h
      rw [List.flatMap_cons, h.ascii c hc, List.singleton_append, hFirst] at hBytes
      rw [h.ascii c hc, List.singleton_append, scan_cons_of_first?_eq_none f _ _ hBytes,
        List.singleton_append]
    · -- no byte of this character can begin a directive
      refine scan_append_of_notMem f _ ?_ _
      intro b hb hSharp
      have hUpper := h.char_toNat_le List.mem_cons_self (Nat.not_lt.mp hc) b hb
      rw [hSharp] at hUpper
      exact absurd hUpper (by decide)
  | directive bracket name rest hName ih =>
    have hRest : Transparent enc rest :=
      ⟨h.ascii, fun c hc => h.ne_nil c (List.mem_append_right _ hc),
        fun c hc => h.upper c (List.mem_append_right _ hc)⟩
    have hWrite : ∀ name', HeaderName.isValid name' = true →
        ((Token.directive bracket name' : Token Char).write).flatMap enc =
          (Token.directive bracket name').write := by
      intro name' hName'
      rw [Token.write_directive_text]
      exact flatMap_of_ascii h.ascii _ (Bracket.toNat_lt_of_mem_directive bracket name' hName')
    rw [List.flatMap_append, scan_directive_append f bracket name hName, List.flatMap_append,
      hWrite name hName, hWrite _ (hf bracket name hName), scan_directive_append f bracket name hName,
      ih hRest]

end Directive

namespace Text

/-- In how many places of a text the pattern stands. -/
def occurrences (pattern text : Text) : Nat :=
  text.tails.countP (pattern.isPrefixOf ·)

/-- A decimal character reference, as in `&#8364;`. -/
def IsReference (text : Text) : Prop :=
  ∃ digits : Text, digits ≠ [] ∧ (∀ c ∈ digits, c.isDigit = true) ∧
    text = '&' :: '#' :: (digits ++ [';'])

theorem occurrences_cons (pattern : Text) (c : Char) (text : Text) :
    occurrences pattern (c :: text) =
      occurrences pattern text + if pattern.isPrefixOf (c :: text) then 1 else 0 := by
  rw [occurrences, List.tails, List.countP_cons, occurrences]

theorem occurrences_append_of_notMem (c : Char) (pattern front back : Text) (h : c ∉ front) :
    occurrences (c :: pattern) (front ++ back) = occurrences (c :: pattern) back := by
  induction front with
  | nil => rfl
  | cons d front ih =>
    rw [List.mem_cons, not_or] at h
    rw [List.cons_append, occurrences_cons, if_neg (not_isPrefixOf_cons_of_ne h.1 _ _), ih h.2,
      Nat.add_zero]

end Text

namespace Bracket

theorem ampersand_notMem_directive (bracket : Bracket) (name : String)
    (h : HeaderName.isValid name = true) : '&' ∉ bracket.directive name := by
  have hName := HeaderName.notMem_of_isLater_eq_false name h '&' (by decide)
  rw [directive_eq, List.mem_cons, List.mem_append, List.mem_append, not_or, not_or, not_or]
  exact ⟨by decide, ⟨by cases bracket <;> decide, hName⟩, by cases bracket <;> decide⟩

end Bracket

namespace Directive

open Alphabet

variable {α : Type} [Alphabet α]

/-- Behind its number sign a reference goes on with a digit, and so not as a directive does. -/
theorem numberSign_prefix_map_char_scan_iff {f : Bracket → String → String} (hf : KeepsNames f)
    (front : Text) (hFront : '#' ∉ front) (hHead : ∀ rest, front ≠ 'i' :: rest) (hNe : front ≠ [])
    (s : List α) : '#' :: front <+: (scan f s).map char ↔ '#' :: front <+: s.map char := by
  obtain ⟨c, front, rfl⟩ := List.exists_cons_of_ne_nil hNe
  have hc : c ≠ 'i' := fun hc => hHead front (hc ▸ rfl)
  induction s using Directive.induction with
  | nil => rfl
  | symbol a rest h _ =>
    rw [scan_cons_of_first?_eq_none f a rest h, List.map_cons, List.map_cons,
      List.cons_prefix_cons, List.cons_prefix_cons, prefix_map_char_scan_iff hf _ hFront]
  | directive bracket name rest h _ =>
    rw [scan_directive_append f bracket name h, List.map_append, List.map_append,
      map_char_write_directive bracket name h,
      map_char_write_directive bracket _ (hf bracket name h)]
    simp [Bracket.directive_eq, Bracket.lead, hc]

theorem occurrences_reference_scan {f : Bracket → String → String} (hf : KeepsNames f)
    (reference : Text) (h : Text.IsReference reference) (s : List α) :
    Text.occurrences reference ((scan f s).map char) =
      Text.occurrences reference (s.map char) := by
  obtain ⟨digits, hNe, hDigits, rfl⟩ := h
  have hFront : '#' ∉ digits ++ [';'] := by
    rw [List.mem_append, not_or]
    exact ⟨fun hMem => absurd (hDigits '#' hMem) (by decide), by decide⟩
  have hHead : ∀ rest, digits ++ [';'] ≠ 'i' :: rest := by
    obtain ⟨d, digits, rfl⟩ := List.exists_cons_of_ne_nil hNe
    intro rest hCons
    injection hCons with hd _
    exact absurd (hd ▸ hDigits d List.mem_cons_self) (by decide)
  induction s using Directive.induction with
  | nil => rfl
  | symbol a rest hFirst ih =>
    rw [scan_cons_of_first?_eq_none f a rest hFirst, List.map_cons, List.map_cons,
      Text.occurrences_cons, Text.occurrences_cons, ih]
    congr 1
    refine if_congr ?_ rfl rfl
    rw [List.isPrefixOf_iff_prefix, List.isPrefixOf_iff_prefix, List.cons_prefix_cons,
      List.cons_prefix_cons, numberSign_prefix_map_char_scan_iff hf _ hFront hHead (by simp)]
  | directive bracket name rest hName ih =>
    rw [scan_directive_append f bracket name hName, List.map_append, List.map_append,
      map_char_write_directive bracket name hName,
      map_char_write_directive bracket _ (hf bracket name hName),
      Text.occurrences_append_of_notMem _ _ _ _ (bracket.ampersand_notMem_directive name hName),
      Text.occurrences_append_of_notMem _ _ _ _
        (bracket.ampersand_notMem_directive _ (hf bracket name hName)), ih]

theorem mem_scan {f : Bracket → String → String} (hf : KeepsNames f) (s : List α) (a : α)
    (ha : a ∈ scan f s) : a ∈ s ∨ (char a).toNat < 128 := by
  induction s using Directive.induction with
  | nil => exact Or.inl ha
  | symbol b rest h ih =>
    rw [scan_cons_of_first?_eq_none f b rest h] at ha
    rcases List.mem_cons.mp ha with rfl | ha
    · exact Or.inl List.mem_cons_self
    · exact (ih ha).imp_left (List.mem_cons_of_mem b)
  | directive bracket name rest h ih =>
    rw [scan_directive_append f bracket name h] at ha
    rcases List.mem_append.mp ha with ha | ha
    · right
      apply Bracket.toNat_lt_of_mem_directive bracket _ (hf bracket name h)
      rw [← map_char_write_directive (α := α) bracket _ (hf bracket name h)]
      exact List.mem_map_of_mem ha
    · exact (ih ha).imp_left (List.mem_append_right _)

end Directive

end HeaderRename
