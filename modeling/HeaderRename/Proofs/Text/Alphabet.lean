import HeaderRename.Text.Replace
import Mathlib.Data.List.Basic

/-!
# Characters and bytes as symbols

What reads a text by its ASCII characters reads bytes as well, a byte standing for the character of
its number.
-/
set_option autoImplicit false

namespace HeaderRename

/-- Symbols read as characters, no two of them alike, with the ASCII characters among them. -/
class Alphabet (α : Type) where
  char : α → Char
  ofChar : Char → α
  char_injective : ∀ a b : α, char a = char b → a = b
  char_ofChar : ∀ c : Char, c.toNat < 128 → char (ofChar c) = c

namespace Alphabet

theorem toNat_ofNat_of_isValidChar (n : Nat) (h : n.isValidChar) : (Char.ofNat n).toNat = n := by
  rw [Char.ofNat, dif_pos h]
  rfl

theorem toNat_ofNat_byte (b : UInt8) : (Char.ofNat b.toNat).toNat = b.toNat := by
  have hByte : b.toNat < 256 := b.toNat_lt
  exact toNat_ofNat_of_isValidChar b.toNat (Or.inl (by omega))

instance : Alphabet Char where
  char c := c
  ofChar c := c
  char_injective _ _ h := h
  char_ofChar _ _ := rfl

instance : Alphabet UInt8 where
  char b := Char.ofNat b.toNat
  ofChar c := UInt8.ofNat c.toNat
  char_injective a b h := by
    apply UInt8.toNat_inj.mp
    rw [← toNat_ofNat_byte a, ← toNat_ofNat_byte b, h]
  char_ofChar c h := by
    rw [UInt8.toNat_ofNat', Nat.mod_eq_of_lt (by omega), Char.ofNat_toNat]

variable {α : Type} [Alphabet α]

theorem map_char_map_ofChar (text : Text) (h : ∀ c ∈ text, c.toNat < 128) :
    (text.map (ofChar : Char → α)).map char = text := by
  induction text with
  | nil => rfl
  | cons c rest ih =>
    rw [List.map_cons, List.map_cons, char_ofChar c (h c List.mem_cons_self),
      ih fun d hd => h d (List.mem_cons_of_mem c hd)]

theorem eq_of_map_char_eq (s t : List α) (h : s.map char = t.map char) : s = t :=
  List.map_injective_iff.mpr (fun a b => char_injective a b) h

@[simp] theorem map_char_text (text : Text) : text.map char = text :=
  List.map_id' text

end Alphabet

end HeaderRename
