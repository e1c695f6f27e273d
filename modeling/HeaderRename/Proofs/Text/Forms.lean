import HeaderRename.Proofs.Text.Alphabet
import HeaderRename.Text.Utf8

/-!
# The bytes of a character

The encoding of a character has one of four forms, by its number. What may follow a first byte is
told by bounds for the second and by how many bytes there are: exactly the bytes that keep to this
complete the encoding of a character.
-/
set_option autoImplicit false

namespace HeaderRename.Utf8

open Alphabet (toNat_ofNat_of_isValidChar)

theorem eq_ofNat (b : UInt8) (n : Nat) (h : b.toNat = n) : b = UInt8.ofNat n := by
  rw [← h, UInt8.ofNat_toNat]

theorem toNat_ofNat_lt (n : Nat) (h : n < 256) : (UInt8.ofNat n).toNat = n := by
  rw [UInt8.toNat_ofNat', Nat.mod_eq_of_lt h]

theorem encode_cases (c : Char) :
    (c.toNat < 0x80 ∧ String.utf8EncodeChar c = [UInt8.ofNat c.toNat]) ∨
    (0x80 ≤ c.toNat ∧ c.toNat < 0x800 ∧ String.utf8EncodeChar c =
      [UInt8.ofNat (0xC0 + c.toNat / 64), UInt8.ofNat (0x80 + c.toNat % 64)]) ∨
    (0x800 ≤ c.toNat ∧ c.toNat < 0x10000 ∧ (c.toNat < 0xD800 ∨ 0xE000 ≤ c.toNat) ∧
      String.utf8EncodeChar c =
        [UInt8.ofNat (0xE0 + c.toNat / 4096), UInt8.ofNat (0x80 + c.toNat / 64 % 64),
          UInt8.ofNat (0x80 + c.toNat % 64)]) ∨
    (0x10000 ≤ c.toNat ∧ c.toNat < 0x110000 ∧ String.utf8EncodeChar c =
      [UInt8.ofNat (0xF0 + c.toNat / 262144), UInt8.ofNat (0x80 + c.toNat / 4096 % 64),
        UInt8.ofNat (0x80 + c.toNat / 64 % 64), UInt8.ofNat (0x80 + c.toNat % 64)]) := by
  have hValid : c.toNat < 0xD800 ∨ 0xDFFF < c.toNat ∧ c.toNat < 0x110000 := c.valid
  have hNat : c.val.toNat = c.toNat := rfl
  unfold String.utf8EncodeChar
  rw [hNat]
  by_cases h1 : c.toNat ≤ 0x7F
  · exact Or.inl ⟨by omega, if_pos h1⟩
  · by_cases h2 : c.toNat ≤ 0x7FF
    · refine Or.inr (Or.inl ⟨by omega, by omega, ?_⟩)
      rw [if_neg h1, if_pos h2, Nat.mod_eq_of_lt (show c.toNat / 64 < 0x20 by omega),
        Nat.add_comm _ 0xC0, Nat.add_comm _ 0x80]
    · by_cases h3 : c.toNat ≤ 0xFFFF
      · refine Or.inr (Or.inr (Or.inl ⟨by omega, by omega, by omega, ?_⟩))
        rw [if_neg h1, if_neg h2, if_pos h3,
          Nat.mod_eq_of_lt (show c.toNat / 4096 < 0x10 by omega), Nat.add_comm _ 0xE0,
          Nat.add_comm _ 0x80, Nat.add_comm _ 0x80]
      · refine Or.inr (Or.inr (Or.inr ⟨by omega, by omega, ?_⟩))
        rw [if_neg h1, if_neg h2, if_neg h3,
          Nat.mod_eq_of_lt (show c.toNat / 262144 < 0x08 by omega), Nat.add_comm _ 0xF0,
          Nat.add_comm _ 0x80, Nat.add_comm _ 0x80, Nat.add_comm _ 0x80]

theorem cons_eq_encode_cases (first : UInt8) (tail : List UInt8) (c : Char)
    (h : first :: tail = String.utf8EncodeChar c) :
    (c.toNat < 0x80 ∧ first.toNat = c.toNat ∧ tail = []) ∨
    (0x80 ≤ c.toNat ∧ c.toNat < 0x800 ∧ first.toNat = 0xC0 + c.toNat / 64 ∧
      tail = [UInt8.ofNat (0x80 + c.toNat % 64)]) ∨
    (0x800 ≤ c.toNat ∧ c.toNat < 0x10000 ∧ (c.toNat < 0xD800 ∨ 0xE000 ≤ c.toNat) ∧
      first.toNat = 0xE0 + c.toNat / 4096 ∧
        tail = [UInt8.ofNat (0x80 + c.toNat / 64 % 64), UInt8.ofNat (0x80 + c.toNat % 64)]) ∨
    (0x10000 ≤ c.toNat ∧ c.toNat < 0x110000 ∧ first.toNat = 0xF0 + c.toNat / 262144 ∧
      tail = [UInt8.ofNat (0x80 + c.toNat / 4096 % 64), UInt8.ofNat (0x80 + c.toNat / 64 % 64),
        UInt8.ofNat (0x80 + c.toNat % 64)]) := by
  rcases encode_cases c with ⟨h1, hc⟩ | ⟨h1, h2, hc⟩ | ⟨h1, h2, h3, hc⟩ | ⟨h1, h2, hc⟩
  all_goals
    rw [hc, List.cons.injEq, ← UInt8.toNat_inj, toNat_ofNat_lt _ (by omega)] at h
  · exact Or.inl ⟨h1, h⟩
  · exact Or.inr (Or.inl ⟨h1, h2, h⟩)
  · exact Or.inr (Or.inr (Or.inl ⟨h1, h2, h3, h⟩))
  · exact Or.inr (Or.inr (Or.inr ⟨h1, h2, h⟩))

/-- The bytes that a state wants: one between the bounds, then as many that continue a character. -/
def Tails : Nat → UInt8 → UInt8 → List UInt8 → Prop
  | 0, low, high, tail => ∃ b, tail = [b] ∧ low ≤ b ∧ b ≤ high
  | more + 1, low, high, tail =>
    ∃ b rest, tail = b :: rest ∧ (low ≤ b ∧ b ≤ high) ∧ Tails more 0x80 0xBF rest

def number (bits : Nat) (tail : List UInt8) : Nat :=
  tail.foldl (fun bits b => bits * 64 + (b.toNat - 0x80)) bits

/-- What follows these bytes in an encoding is just what the state wants, and the two together give
the character. -/
structure Pending (front : List UInt8) (bits more : Nat) (low high : UInt8) : Prop where
  low_le_high : low ≤ high
  append_eq_iff : ∀ (tail : List UInt8) (c : Char), front ++ tail = String.utf8EncodeChar c ↔
    Tails more low high tail ∧ c = Char.ofNat (number bits tail)

theorem between_iff (low b high : UInt8) :
    low ≤ b ∧ b ≤ high ↔ low.toNat ≤ b.toNat ∧ b.toNat ≤ high.toNat := by
  rw [UInt8.le_iff_toNat_le, UInt8.le_iff_toNat_le]

theorem tails_zero_iff (low high : UInt8) (tail : List UInt8) :
    Tails 0 low high tail ↔
      ∃ second, tail = [second] ∧ low.toNat ≤ second.toNat ∧ second.toNat ≤ high.toNat := by
  simp only [Tails, between_iff]

theorem tails_one_iff (low high : UInt8) (tail : List UInt8) :
    Tails 1 low high tail ↔ ∃ second third, tail = [second, third] ∧
      (low.toNat ≤ second.toNat ∧ second.toNat ≤ high.toNat) ∧
        0x80 ≤ third.toNat ∧ third.toNat ≤ 0xBF := by
  simp only [Tails, between_iff]
  constructor
  · rintro ⟨second, _, rfl, hSecond, third, rfl, hThird⟩
    exact ⟨second, third, rfl, hSecond, hThird⟩
  · rintro ⟨second, third, rfl, hSecond, hThird⟩
    exact ⟨second, [third], rfl, hSecond, third, rfl, hThird⟩

theorem tails_two_iff (low high : UInt8) (tail : List UInt8) :
    Tails 2 low high tail ↔ ∃ second third fourth, tail = [second, third, fourth] ∧
      (low.toNat ≤ second.toNat ∧ second.toNat ≤ high.toNat) ∧
        (0x80 ≤ third.toNat ∧ third.toNat ≤ 0xBF) ∧
          0x80 ≤ fourth.toNat ∧ fourth.toNat ≤ 0xBF := by
  simp only [Tails, between_iff]
  constructor
  · rintro ⟨second, _, rfl, hSecond, third, _, rfl, hThird, fourth, rfl, hFourth⟩
    exact ⟨second, third, fourth, rfl, hSecond, hThird, hFourth⟩
  · rintro ⟨second, third, fourth, rfl, hSecond, hThird, hFourth⟩
    exact ⟨second, [third, fourth], rfl, hSecond, third, [fourth], rfl, hThird, fourth, rfl, hFourth⟩

theorem eq_ofNat_of_toNat_eq (c : Char) (n : Nat) (h : n = c.toNat) : c = Char.ofNat n := by
  rw [h, Char.ofNat_toNat]

theorem pending_two (first : UInt8) (h : 0xC2 ≤ first.toNat) (h' : first.toNat < 0xE0) :
    Pending [first] (first.toNat - 0xC0) 0 0x80 0xBF where
  low_le_high := by decide
  append_eq_iff tail c := by
    simp only [List.singleton_append, tails_zero_iff, UInt8.reduceToNat]
    constructor
    · intro hTail
      rcases cons_eq_encode_cases first tail c hTail with ⟨_, hFirst, rfl⟩ | ⟨_, _, hFirst, rfl⟩ |
        ⟨_, _, _, hFirst, rfl⟩ | ⟨_, _, hFirst, rfl⟩
      · omega
      · have hSecond := toNat_ofNat_lt (0x80 + c.toNat % 64) (by omega)
        refine ⟨⟨_, rfl, by omega⟩, eq_ofNat_of_toNat_eq c _ ?_⟩
        simp only [number, List.foldl_cons, List.foldl_nil]
        omega
      · omega
      · omega
    · rintro ⟨⟨second, rfl, hLow, hHigh⟩, hChar⟩
      rw [hChar]
      simp only [number, List.foldl_cons, List.foldl_nil]
      generalize hn : (first.toNat - 0xC0) * 64 + (second.toNat - 0x80) = n
      have hNat : (Char.ofNat n).toNat = n := toNat_ofNat_of_isValidChar n (Or.inl (by omega))
      rcases encode_cases (Char.ofNat n) with ⟨_, _⟩ | ⟨_, _, hc⟩ | ⟨_, _, _, _⟩ | ⟨_, _, _⟩
      · omega
      · rw [hc, hNat, eq_ofNat first (0xC0 + n / 64) (by omega),
          eq_ofNat second (0x80 + n % 64) (by omega)]
      · omega
      · omega

/-- Two of the first bytes bound what follows: one against forms longer than need be, one against
surrogates. -/
theorem pending_three (first low high : UInt8) (h : 0xE0 ≤ first.toNat) (h' : first.toNat < 0xF0)
    (hLow : low.toNat = if first.toNat = 0xE0 then 0xA0 else 0x80)
    (hHigh : high.toNat = if first.toNat = 0xED then 0x9F else 0xBF) :
    Pending [first] (first.toNat - 0xE0) 1 low high where
  low_le_high := by
    rw [UInt8.le_iff_toNat_le]
    split at hLow <;> split at hHigh <;> omega
  append_eq_iff tail c := by
    rw [List.singleton_append, tails_one_iff]
    constructor
    · intro hTail
      rcases cons_eq_encode_cases first tail c hTail with ⟨_, hFirst, rfl⟩ | ⟨_, _, hFirst, rfl⟩ |
        ⟨_, _, _, hFirst, rfl⟩ | ⟨_, _, hFirst, rfl⟩
      · omega
      · omega
      · have hSecond := toNat_ofNat_lt (0x80 + c.toNat / 64 % 64) (by omega)
        have hThird := toNat_ofNat_lt (0x80 + c.toNat % 64) (by omega)
        refine ⟨⟨_, _, rfl, ?_, by omega⟩, eq_ofNat_of_toNat_eq c _ ?_⟩
        · split at hLow <;> split at hHigh <;> omega
        · simp only [number, List.foldl_cons, List.foldl_nil]
          omega
      · omega
    · rintro ⟨⟨second, third, rfl, ⟨hSecond, hSecond'⟩, hThird, hThird'⟩, hChar⟩
      rw [hChar]
      simp only [number, List.foldl_cons, List.foldl_nil]
      generalize hn : ((first.toNat - 0xE0) * 64 + (second.toNat - 0x80)) * 64 +
        (third.toNat - 0x80) = n
      have hRange : (0x800 ≤ n ∧ n < 0x10000 ∧ (n < 0xD800 ∨ 0xDFFF < n)) ∧
          0x80 ≤ second.toNat ∧ second.toNat ≤ 0xBF := by
        split at hLow <;> split at hHigh <;> omega
      have hNat : (Char.ofNat n).toNat = n :=
        toNat_ofNat_of_isValidChar n (hRange.1.2.2.imp id fun h => ⟨h, by omega⟩)
      rcases encode_cases (Char.ofNat n) with ⟨_, _⟩ | ⟨_, _, _⟩ | ⟨_, _, _, hc⟩ | ⟨_, _, _⟩
      · omega
      · omega
      · rw [hc, hNat, eq_ofNat first (0xE0 + n / 4096) (by omega),
          eq_ofNat second (0x80 + n / 64 % 64) (by omega),
          eq_ofNat third (0x80 + n % 64) (by omega)]
      · omega

/-- Here one bound is against forms longer than need be, the other against numbers too large. -/
theorem pending_four (first low high : UInt8) (h : 0xF0 ≤ first.toNat) (h' : first.toNat < 0xF5)
    (hLow : low.toNat = if first.toNat = 0xF0 then 0x90 else 0x80)
    (hHigh : high.toNat = if first.toNat = 0xF4 then 0x8F else 0xBF) :
    Pending [first] (first.toNat - 0xF0) 2 low high where
  low_le_high := by
    rw [UInt8.le_iff_toNat_le]
    split at hLow <;> split at hHigh <;> omega
  append_eq_iff tail c := by
    rw [List.singleton_append, tails_two_iff]
    constructor
    · intro hTail
      rcases cons_eq_encode_cases first tail c hTail with ⟨_, hFirst, rfl⟩ | ⟨_, _, hFirst, rfl⟩ |
        ⟨_, _, _, hFirst, rfl⟩ | ⟨_, _, hFirst, rfl⟩
      · omega
      · omega
      · omega
      · have hSecond := toNat_ofNat_lt (0x80 + c.toNat / 4096 % 64) (by omega)
        have hThird := toNat_ofNat_lt (0x80 + c.toNat / 64 % 64) (by omega)
        have hFourth := toNat_ofNat_lt (0x80 + c.toNat % 64) (by omega)
        refine ⟨⟨_, _, _, rfl, ?_, by omega, by omega⟩, eq_ofNat_of_toNat_eq c _ ?_⟩
        · split at hLow <;> split at hHigh <;> omega
        · simp only [number, List.foldl_cons, List.foldl_nil]
          omega
    · rintro ⟨⟨second, third, fourth, rfl, ⟨hSecond, hSecond'⟩, ⟨hThird, hThird'⟩,
        hFourth, hFourth'⟩, hChar⟩
      rw [hChar]
      simp only [number, List.foldl_cons, List.foldl_nil]
      generalize hn : (((first.toNat - 0xF0) * 64 + (second.toNat - 0x80)) * 64 +
        (third.toNat - 0x80)) * 64 + (fourth.toNat - 0x80) = n
      have hRange : (0x10000 ≤ n ∧ n < 0x110000) ∧
          0x80 ≤ second.toNat ∧ second.toNat ≤ 0xBF := by
        split at hLow <;> split at hHigh <;> omega
      have hNat : (Char.ofNat n).toNat = n :=
        toNat_ofNat_of_isValidChar n (Or.inr ⟨by omega, hRange.1.2⟩)
      rcases encode_cases (Char.ofNat n) with ⟨_, _⟩ | ⟨_, _, _⟩ | ⟨_, _, _, _⟩ | ⟨_, _, hc⟩
      · omega
      · omega
      · omega
      · rw [hc, hNat, eq_ofNat first (0xF0 + n / 262144) (by omega),
          eq_ofNat second (0x80 + n / 4096 % 64) (by omega),
          eq_ofNat third (0x80 + n / 64 % 64) (by omega),
          eq_ofNat fourth (0x80 + n % 64) (by omega)]

end HeaderRename.Utf8
