/-!
# Substitution inside a text

A text is its list of characters. `Text.replace` writes one text for every occurrence of another,
read from the left without overlap; an empty pattern occurs before every character and at the end.
-/
set_option autoImplicit false

namespace HeaderRename

abbrev Text := List Char

namespace Text

def occurs (old : Text) : Text → Bool
  | [] => old.isEmpty
  | c :: rest => old.isPrefixOf (c :: rest) || occurs old rest

/-- The number counts the characters of the last occurrence that are still to be passed over. -/
def replaceFrom (old new : Text) : Nat → Text → Text
  | _, [] => []
  | skip + 1, _ :: rest => replaceFrom old new skip rest
  | 0, c :: rest =>
    if old.isPrefixOf (c :: rest) then new ++ replaceFrom old new (old.length - 1) rest
    else c :: replaceFrom old new 0 rest

def replace (old new text : Text) : Text :=
  if old.isEmpty then text.foldr (fun c rest => new ++ c :: rest) new
  else replaceFrom old new 0 text

theorem replaceFrom_eq_drop (old new : Text) (skip : Nat) (text : Text) :
    replaceFrom old new skip text = replaceFrom old new 0 (text.drop skip) := by
  induction text generalizing skip with
  | nil => cases skip <;> simp [replaceFrom]
  | cons c rest ih =>
    cases skip with
    | zero => rfl
    | succ skip => simpa [replaceFrom] using ih skip

theorem occurs_iff (old text : Text) : occurs old text = true ↔ old <:+: text := by
  induction text with
  | nil => simp [occurs, List.isEmpty_iff]
  | cons c rest ih => simp [occurs, ih, List.infix_cons_iff]

end Text

end HeaderRename
