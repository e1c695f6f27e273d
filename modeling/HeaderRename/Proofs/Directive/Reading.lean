import HeaderRename.Proofs.Text.Alphabet
import HeaderRename.Rename.Header

/-!
# Reading the directives of a text

A text is read once from the left. Where a directive with a header name begins, it is one token;
any other symbol is a token of its own. The same reading serves characters and bytes, a byte being
read as the character of its number. Writing the tokens gives the text back.
-/
set_option autoImplicit false

namespace HeaderRename

namespace HeaderName

theorem toNat_lt_of_isLater (c : Char) (h : isLater c = true) : c.toNat < 128 := by
  simp only [isLater, isFirst, isAsciiAlphanum, Bool.or_eq_true, Bool.and_eq_true, beq_iff_eq,
    decide_eq_true_eq] at h
  rcases h with ((((((⟨_, h⟩ | ⟨_, h⟩) | ⟨_, h⟩) | rfl) | rfl) | rfl) | rfl) | rfl
  all_goals first | decide | exact Nat.lt_of_le_of_lt (Char.le_def.mp h) (by decide)

theorem isLater_of_mem (name : String) (h : isValid name = true) (c : Char)
    (hc : c ∈ name.toList) : isLater c = true := by
  unfold isValid accepts at h
  split at h
  · cases h
  · rename_i first rest hName
    rw [Bool.and_eq_true] at h
    rw [hName] at hc
    rcases List.mem_cons.mp hc with rfl | hc
    · simp [isLater, h.1]
    · exact List.all_eq_true.mp h.2 c hc

theorem notMem_of_isLater_eq_false (name : String) (h : isValid name = true) (c : Char)
    (hc : isLater c = false) : c ∉ name.toList := by
  intro hMem
  rw [isLater_of_mem name h c hMem] at hc
  cases hc

end HeaderName

namespace Bracket

theorem isLater_closing (bracket : Bracket) : HeaderName.isLater bracket.closing = false := by
  cases bracket <;> decide

theorem takeWhile_isLater (bracket : Bracket) (name : String) (h : HeaderName.isValid name = true)
    (rest : Text) :
    (name.toList ++ bracket.closing :: rest).takeWhile HeaderName.isLater = name.toList := by
  rw [List.takeWhile_append_of_pos (HeaderName.isLater_of_mem name h),
    List.takeWhile_cons_of_neg (by rw [isLater_closing]; decide), List.append_nil]

/-- What stands between the number sign and the name. -/
def lead (bracket : Bracket) : Text :=
  ['i', 'n', 'c', 'l', 'u', 'd', 'e', ' ', bracket.opening]

theorem directive_eq (bracket : Bracket) (name : String) :
    bracket.directive name = '#' :: (bracket.lead ++ name.toList ++ [bracket.closing]) := rfl

theorem toNat_lt_of_mem_directive (bracket : Bracket) (name : String)
    (h : HeaderName.isValid name = true) (c : Char) (hc : c ∈ bracket.directive name) :
    c.toNat < 128 := by
  rw [directive_eq, List.mem_cons, List.mem_append, List.mem_append, List.mem_singleton] at hc
  rcases hc with rfl | (hc | hc) | rfl
  · decide
  · have hLead : (bracket.lead.all fun c => decide (c.toNat < 128)) = true := by
      cases bracket <;> decide
    exact of_decide_eq_true (List.all_eq_true.mp hLead c hc)
  · exact HeaderName.toNat_lt_of_isLater c (HeaderName.isLater_of_mem name h c hc)
  · cases bracket <;> decide

/-- Only the first character of a directive is the number sign. -/
theorem numberSign_notMem (bracket : Bracket) (name : String)
    (h : HeaderName.isValid name = true) :
    '#' ∉ bracket.lead ++ name.toList ++ [bracket.closing] := by
  rw [List.mem_append, List.mem_append, not_or, not_or]
  have hName := HeaderName.notMem_of_isLater_eq_false name h '#' (by decide)
  exact ⟨⟨by cases bracket <;> decide, hName⟩, by cases bracket <;> decide⟩

/-- Two directives begin the same text only if they are one: the opening character gives the style
and the closing one ends the name. -/
theorem eq_of_directive_prefix (bracket bracket' : Bracket) (name name' : String)
    (h : HeaderName.isValid name = true) (h' : HeaderName.isValid name' = true) (text : Text)
    (hText : bracket.directive name <+: text) (hText' : bracket'.directive name' <+: text) :
    bracket = bracket' ∧ name = name' := by
  obtain ⟨rest, rfl⟩ := hText
  obtain ⟨rest', hRest⟩ := hText'
  simp only [directive_eq, lead, List.append_assoc, List.cons_append, List.cons.injEq, true_and,
    List.nil_append] at hRest
  obtain ⟨hOpening, hRest⟩ := hRest
  have hBracket : bracket = bracket' := by
    cases bracket <;> cases bracket' <;> first | rfl | exact absurd hOpening (by decide)
  subst hBracket
  have hNames := congrArg (List.takeWhile HeaderName.isLater) hRest
  rw [takeWhile_isLater bracket name' h', takeWhile_isLater bracket name h] at hNames
  exact ⟨rfl, String.toList_inj.mp hNames.symm⟩

end Bracket

/-- A directive with a header name, or a symbol that begins none. -/
inductive Token (α : Type) where
  | symbol (a : α)
  | directive (bracket : Bracket) (name : String)
deriving DecidableEq, Repr

namespace Directive

open Alphabet

/-- The header name of the directive in this style with which a text begins. -/
def name? (text : Text) (bracket : Bracket) : Option String :=
  let name := String.ofList ((text.drop (bracket.lead.length + 1)).takeWhile HeaderName.isLater)
  if HeaderName.isValid name && (bracket.directive name).isPrefixOf text then some name else none

def first? (text : Text) : Option (Bracket × String) :=
  [Bracket.quoted, Bracket.angle].findSome? fun bracket =>
    (name? text bracket).map (Prod.mk bracket)

variable {α : Type} [Alphabet α]

/-- The number counts the symbols of the last directive that are still to be passed over. -/
def tokensFrom : Nat → List α → List (Token α)
  | _, [] => []
  | skip + 1, _ :: rest => tokensFrom skip rest
  | 0, a :: rest =>
    match first? ((a :: rest).map char) with
    | some (bracket, name) =>
      .directive bracket name :: tokensFrom ((bracket.directive name).length - 1) rest
    | none => .symbol a :: tokensFrom 0 rest

def tokens (s : List α) : List (Token α) :=
  tokensFrom 0 s

end Directive

namespace Token

variable {α : Type} [Alphabet α]

def write : Token α → List α
  | symbol a => [a]
  | directive bracket name => (bracket.directive name).map Alphabet.ofChar

@[simp] theorem write_directive_text (bracket : Bracket) (name : String) :
    (directive bracket name : Token Char).write = bracket.directive name :=
  List.map_id' (bracket.directive name)

end Token

namespace Directive

open Alphabet

theorem name?_eq_some_iff (text : Text) (bracket : Bracket) (name : String) :
    name? text bracket = some name ↔
      HeaderName.isValid name = true ∧ bracket.directive name <+: text := by
  constructor
  · intro h
    simp only [name?, Bool.and_eq_true, List.isPrefixOf_iff_prefix, Option.ite_none_right_eq_some,
      Option.some.injEq] at h
    obtain ⟨hFirst, rfl⟩ := h
    exact hFirst
  · rintro ⟨hName, rest, rfl⟩
    have hDrop : (bracket.directive name ++ rest).drop (bracket.lead.length + 1) =
        name.toList ++ bracket.closing :: rest := by
      simp [Bracket.directive_eq]
    have hPrefix : (bracket.directive name).isPrefixOf (bracket.directive name ++ rest) = true :=
      List.isPrefixOf_iff_prefix.mpr (List.prefix_append _ _)
    rw [name?, hDrop, Bracket.takeWhile_isLater bracket name hName, String.ofList_toList]
    simp only [hName, hPrefix, Bool.and_self, if_true]

theorem first?_eq_some_iff (text : Text) (bracket : Bracket) (name : String) :
    first? text = some (bracket, name) ↔
      HeaderName.isValid name = true ∧ bracket.directive name <+: text := by
  constructor
  · intro h
    obtain ⟨bracket', _, h⟩ := List.exists_of_findSome?_eq_some h
    obtain ⟨name', hName, h⟩ := Option.map_eq_some_iff.mp h
    cases h
    exact (name?_eq_some_iff text bracket name).mp hName
  · rintro ⟨hName, hText⟩
    cases hFirst : first? text with
    | none =>
      have hNone := List.findSome?_eq_none_iff.mp hFirst bracket (by cases bracket <;> decide)
      rw [(name?_eq_some_iff text bracket name).mpr ⟨hName, hText⟩] at hNone
      cases hNone
    | some found =>
      obtain ⟨bracket', _, h⟩ := List.exists_of_findSome?_eq_some hFirst
      obtain ⟨name', hName', h⟩ := Option.map_eq_some_iff.mp h
      cases h
      obtain ⟨hName', hText'⟩ := (name?_eq_some_iff text bracket' name').mp hName'
      obtain ⟨rfl, rfl⟩ := Bracket.eq_of_directive_prefix bracket bracket' name name' hName hName'
        text hText hText'
      rfl

variable {α : Type} [Alphabet α]

theorem tokensFrom_eq_drop (skip : Nat) (s : List α) : tokensFrom skip s = tokens (s.drop skip) := by
  induction s generalizing skip with
  | nil => cases skip <;> rfl
  | cons a rest ih =>
    cases skip with
    | zero => rfl
    | succ skip => exact ih skip

theorem tokens_cons_of_first?_eq_none (a : α) (rest : List α)
    (h : first? ((a :: rest).map char) = none) :
    tokens (a :: rest) = .symbol a :: tokens rest := by
  rw [tokens, tokensFrom, h]
  rfl

@[simp] theorem tokens_directive_append (bracket : Bracket) (name : String)
    (h : HeaderName.isValid name = true) (rest : List α) :
    tokens ((Token.directive bracket name).write ++ rest) =
      .directive bracket name :: tokens rest := by
  have hFirst : first? (((Token.directive bracket name : Token α).write ++ rest).map char) =
      some (bracket, name) := by
    rw [first?_eq_some_iff, List.map_append, Token.write,
      map_char_map_ofChar _ (Bracket.toNat_lt_of_mem_directive bracket name h)]
    exact ⟨h, List.prefix_append _ _⟩
  have hWrite : (Token.directive bracket name : Token α).write =
      ofChar '#' :: (bracket.lead ++ name.toList ++ [bracket.closing]).map ofChar := by
    rw [Token.write, Bracket.directive_eq, List.map_cons]
  rw [hWrite, List.cons_append] at hFirst ⊢
  rw [tokens, tokensFrom, hFirst]
  simp only [tokensFrom_eq_drop, Bracket.directive_eq, List.length_cons, Nat.add_sub_cancel]
  rw [List.drop_append_of_le_length (by simp), List.drop_of_length_le (by simp), List.nil_append]

theorem tokens_directive (bracket : Bracket) (name : String) (h : HeaderName.isValid name = true) :
    tokens (bracket.directive name) = [.directive bracket name] := by
  have hAppend := tokens_directive_append (α := Char) bracket name h []
  rwa [Token.write_directive_text, List.append_nil] at hAppend

/-- A text is empty, or begins with a symbol that begins no directive, or with a directive. -/
@[elab_as_elim]
theorem induction {motive : List α → Prop} (nil : motive [])
    (symbol : ∀ a rest, first? ((a :: rest).map char) = none → motive rest → motive (a :: rest))
    (directive : ∀ bracket name rest, HeaderName.isValid name = true → motive rest →
      motive ((Token.directive bracket name).write ++ rest))
    (s : List α) : motive s := by
  induction s using (measure List.length).wf.induction with
  | h s ih =>
    cases s with
    | nil => exact nil
    | cons a rest =>
      cases hFirst : first? ((a :: rest).map char) with
      | none => exact symbol a rest hFirst (ih rest (Nat.lt_succ_self _))
      | some found =>
        obtain ⟨bracket, name⟩ := found
        obtain ⟨hName, tail, hTail⟩ := (first?_eq_some_iff _ bracket name).mp hFirst
        obtain ⟨front, back, hSplit, hFront, hBack⟩ := List.append_eq_map_iff.mp hTail
        have hWrite : front = (Token.directive bracket name : Token α).write := by
          apply eq_of_map_char_eq
          rw [hFront, Token.write,
            map_char_map_ofChar _ (Bracket.toNat_lt_of_mem_directive bracket name hName)]
        rw [hSplit, hWrite]
        apply directive bracket name back hName
        apply ih
        change back.length < (a :: rest).length
        have hLength := congrArg List.length hFront
        rw [Bracket.directive_eq, List.length_map, List.length_cons] at hLength
        rw [hSplit, List.length_append]
        omega

theorem write_tokens (s : List α) : (tokens s).flatMap Token.write = s := by
  induction s using Directive.induction with
  | nil => rfl
  | symbol a rest h ih =>
    rw [tokens_cons_of_first?_eq_none a rest h, List.flatMap_cons, ih]
    rfl
  | directive bracket name rest h ih =>
    rw [tokens_directive_append bracket name h, List.flatMap_cons, ih]

end Directive

end HeaderRename
