import HeaderRename.Proofs.Text.Forms
import Mathlib.Data.String.Basic

/-!
# The order of names

Texts are compared character by character. Their bytes compare in the same way, as the first byte in
which two encodings differ is smaller in that of the smaller character.
-/
set_option autoImplicit false

namespace HeaderRename.Utf8

/-- Whatever follows, two different characters are told apart within their bytes. -/
theorem encode_append_lt {c d : Char} (h : c < d) (front back : List UInt8) :
    String.utf8EncodeChar c ++ front < String.utf8EncodeChar d ++ back := by
  have hLt : c.toNat < d.toNat := h
  -- bytes of equal forms are compared digit by digit
  have hDigits (n : Nat) : n / 64 / 64 = n / 4096 ∧ n / 4096 / 64 = n / 262144 := by omega
  have hc := hDigits c.toNat
  have hd := hDigits d.toNat
  rcases encode_cases c with ⟨_, hEncode⟩ | ⟨_, _, hEncode⟩ | ⟨_, _, _, hEncode⟩ |
      ⟨_, _, hEncode⟩ <;>
    rcases encode_cases d with ⟨_, hEncode'⟩ | ⟨_, _, hEncode'⟩ | ⟨_, _, _, hEncode'⟩ |
      ⟨_, _, hEncode'⟩ <;>
    rw [hEncode, hEncode'] <;>
    simp (disch := omega) only [List.cons_append, List.nil_append, List.cons_lt_cons_iff,
      UInt8.lt_iff_toNat_lt, ← UInt8.toNat_inj, toNat_ofNat_lt] <;>
    omega

theorem write_lt_write {text text' : List Char} (h : text < text') : write text < write text' := by
  induction h with
  | nil =>
    rename_i c rest
    rw [write, write, List.flatMap_nil, List.flatMap_cons]
    rcases encode_cases c with ⟨_, hc⟩ | ⟨_, _, hc⟩ | ⟨_, _, _, hc⟩ | ⟨_, _, hc⟩ <;>
      · rw [hc]
        exact List.Lex.nil
  | rel hLt =>
    rw [write, write, List.flatMap_cons, List.flatMap_cons]
    exact encode_append_lt hLt _ _
  | cons hRest ih =>
    rw [write, write, List.flatMap_cons, List.flatMap_cons]
    exact List.append_left_lt ih

end HeaderRename.Utf8
