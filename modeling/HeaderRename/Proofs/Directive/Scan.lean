import HeaderRename.Proofs.Directive.Reading

/-!
# Scanning a text for directives

A scan reads a text once and writes it back with the names in its directives changed. As names hold
no number sign, it neither makes a directive nor unmakes one: the tokens of the result are those of
the text with their names changed. So scans compose, and one that changes nothing has nothing to
change.
-/
set_option autoImplicit false

namespace HeaderRename

theorem Text.not_isPrefixOf_cons_of_ne {c d : Char} (h : c ≠ d) (pattern text : Text) :
    ¬ (c :: pattern).isPrefixOf (d :: text) = true := by
  rw [List.isPrefixOf_iff_prefix, List.cons_prefix_cons]
  exact fun hPrefix => h hPrefix.1

namespace Token

variable {α : Type}

def rename (f : Bracket → String → String) : Token α → Token α
  | symbol a => symbol a
  | directive bracket name => directive bracket (f bracket name)

/-- What a token is, whatever the name in it. -/
def kind : Token α → α ⊕ Bracket
  | symbol a => .inl a
  | directive bracket _ => .inr bracket

@[simp] theorem kind_rename (f : Bracket → String → String) (token : Token α) :
    (token.rename f).kind = token.kind := by
  cases token <;> rfl

@[simp] theorem rename_rename (f g : Bracket → String → String) (token : Token α) :
    (token.rename f).rename g = token.rename fun bracket name => g bracket (f bracket name) := by
  cases token <;> rfl

end Token

namespace Directive

open Alphabet

variable {α : Type} [Alphabet α]

def scan (f : Bracket → String → String) (s : List α) : List α :=
  ((tokens s).map (Token.rename f)).flatMap Token.write

/-- The change of names gives a header name for each header name. -/
def KeepsNames (f : Bracket → String → String) : Prop :=
  ∀ bracket name, HeaderName.isValid name = true → HeaderName.isValid (f bracket name) = true

section Equations

variable (f : Bracket → String → String)

theorem scan_cons_of_first?_eq_none (a : α) (rest : List α)
    (h : first? ((a :: rest).map char) = none) : scan f (a :: rest) = a :: scan f rest := by
  rw [scan, tokens_cons_of_first?_eq_none a rest h]
  rfl

@[simp] theorem scan_directive_append (bracket : Bracket) (name : String)
    (h : HeaderName.isValid name = true) (rest : List α) :
    scan f ((Token.directive bracket name).write ++ rest) =
      (Token.directive bracket (f bracket name)).write ++ scan f rest := by
  rw [scan, tokens_directive_append bracket name h]
  rfl

theorem scan_id (s : List α) : scan (fun _ name => name) s = s := by
  have hRename : Token.rename (fun _ name => name) = (id : Token α → Token α) := by
    funext token
    cases token <;> rfl
  rw [scan, hRename, List.map_id, write_tokens]

end Equations

theorem map_char_write_directive (bracket : Bracket) (name : String)
    (h : HeaderName.isValid name = true) :
    ((Token.directive bracket name : Token α).write).map char = bracket.directive name :=
  map_char_map_ofChar _ (Bracket.toNat_lt_of_mem_directive bracket name h)

section Laws

variable {f : Bracket → String → String} (hf : KeepsNames f)

include hf

/-- Up to the next number sign a scan leaves all as it was. -/
theorem prefix_map_char_scan_iff (front : Text) (hFront : '#' ∉ front) (s : List α) :
    front <+: (scan f s).map char ↔ front <+: s.map char := by
  induction s using Directive.induction generalizing front with
  | nil => rfl
  | symbol a rest h ih =>
    rw [scan_cons_of_first?_eq_none f a rest h]
    cases front with
    | nil => simp
    | cons c front =>
      rw [List.map_cons, List.map_cons, List.cons_prefix_cons, List.cons_prefix_cons,
        ih front fun hc => hFront (List.mem_cons_of_mem c hc)]
  | directive bracket name rest h ih =>
    rw [scan_directive_append f bracket name h, List.map_append, List.map_append,
      map_char_write_directive bracket name h,
      map_char_write_directive bracket _ (hf bracket name h)]
    cases front with
    | nil => simp
    | cons c front =>
      have hc : c ≠ '#' := fun hc => hFront (hc ▸ List.mem_cons_self)
      simp [Bracket.directive_eq, hc]

theorem first?_cons_map_char_scan (a : α) (s : List α) :
    first? ((a :: scan f s).map char) = first? ((a :: s).map char) := by
  apply Option.ext
  rintro ⟨bracket, name⟩
  rw [first?_eq_some_iff, first?_eq_some_iff]
  apply and_congr_right
  intro hName
  rw [Bracket.directive_eq, List.map_cons, List.map_cons, List.cons_prefix_cons,
    List.cons_prefix_cons,
    prefix_map_char_scan_iff hf _ (Bracket.numberSign_notMem bracket name hName)]

theorem tokens_scan (s : List α) : tokens (scan f s) = (tokens s).map (Token.rename f) := by
  induction s using Directive.induction with
  | nil => rfl
  | symbol a rest h ih =>
    rw [scan_cons_of_first?_eq_none f a rest h, tokens_cons_of_first?_eq_none a rest h,
      tokens_cons_of_first?_eq_none a _ (by rw [first?_cons_map_char_scan hf, h]), ih]
    rfl
  | directive bracket name rest h ih =>
    rw [scan_directive_append f bracket name h, tokens_directive_append bracket name h,
      tokens_directive_append bracket _ (hf bracket name h), ih]
    rfl

theorem scan_scan (g : Bracket → String → String) (s : List α) :
    scan g (scan f s) = scan (fun bracket name => g bracket (f bracket name)) s := by
  have hRename : Token.rename g ∘ Token.rename f =
      (Token.rename fun bracket name => g bracket (f bracket name) : Token α → Token α) := by
    funext token
    exact Token.rename_rename f g token
  rw [scan, tokens_scan hf, List.map_map, hRename, scan]

end Laws

theorem isValid_of_mem_tokens (s : List α) (bracket : Bracket) (name : String)
    (h : Token.directive bracket name ∈ tokens s) : HeaderName.isValid name = true := by
  induction s using Directive.induction with
  | nil => cases h
  | symbol a rest hFirst ih =>
    rw [tokens_cons_of_first?_eq_none a rest hFirst] at h
    rcases List.mem_cons.mp h with h | h
    · cases h
    · exact ih h
  | directive bracket' name' rest hName ih =>
    rw [tokens_directive_append bracket' name' hName] at h
    rcases List.mem_cons.mp h with h | h
    · cases h
      exact hName
    · exact ih h

theorem scan_congr {f g : Bracket → String → String} (s : List α)
    (h : ∀ bracket name, Token.directive bracket name ∈ tokens s →
      f bracket name = g bracket name) : scan f s = scan g s := by
  rw [scan, scan]
  congr 1
  apply List.map_congr_left
  intro token hToken
  cases token with
  | symbol a => rfl
  | directive bracket name => rw [Token.rename, Token.rename, h bracket name hToken]

theorem scan_eq_scan_iff {f g : Bracket → String → String} (hf : KeepsNames f) (hg : KeepsNames g)
    (s : List α) :
    scan f s = scan g s ↔
      ∀ bracket name, Token.directive bracket name ∈ tokens s →
        f bracket name = g bracket name := by
  constructor
  · intro h bracket name hToken
    have hTokens : (tokens s).map (Token.rename f) = (tokens s).map (Token.rename g) := by
      rw [← tokens_scan hf, h, tokens_scan hg]
    have hRename := List.map_inj_left.mp hTokens _ hToken
    injection hRename
  · exact scan_congr s

theorem scan_eq_self_iff {f : Bracket → String → String} (hf : KeepsNames f) (s : List α) :
    scan f s = s ↔
      ∀ bracket name, Token.directive bracket name ∈ tokens s → f bracket name = name := by
  rw [← scan_eq_scan_iff hf (fun _ _ h => h), scan_id]

theorem cons_infix_append_of_notMem {c : Char} {pattern front back : Text} (hFront : c ∉ front)
    (h : c :: pattern <:+: front ++ back) : c :: pattern <:+: back := by
  induction front with
  | nil => exact h
  | cons d front ih =>
    rw [List.mem_cons, not_or] at hFront
    rcases List.infix_cons_iff.mp h with h | h
    · exact absurd (List.cons_prefix_cons.mp h).1 hFront.1
    · exact ih hFront.2 h

/-- A directive with a header name occurs in a text only as one of its tokens. -/
theorem directive_infix_iff (bracket : Bracket) (name : String)
    (h : HeaderName.isValid name = true) (text : Text) :
    bracket.directive name <:+: text ↔ Token.directive bracket name ∈ tokens text := by
  constructor
  · intro hInfix
    induction text using Directive.induction with
    | nil => rw [List.infix_nil, Bracket.directive_eq] at hInfix; cases hInfix
    | symbol c rest hFirst ih =>
      rw [tokens_cons_of_first?_eq_none c rest hFirst]
      rcases List.infix_cons_iff.mp hInfix with hPrefix | hInfix
      · have hSome := (first?_eq_some_iff (c :: rest) bracket name).mpr ⟨h, hPrefix⟩
        rw [map_char_text, hSome] at hFirst
        cases hFirst
      · exact List.mem_cons_of_mem _ (ih hInfix)
    | directive bracket' name' rest hName ih =>
      rw [tokens_directive_append bracket' name' hName]
      rw [Token.write_directive_text, Bracket.directive_eq bracket' name', List.cons_append] at hInfix
      rcases List.infix_cons_iff.mp hInfix with hPrefix | hInfix
      · obtain ⟨rfl, rfl⟩ := Bracket.eq_of_directive_prefix bracket bracket' name name' h hName _
          hPrefix ⟨rest, rfl⟩
        exact List.mem_cons_self
      · exact List.mem_cons_of_mem _ (ih (cons_infix_append_of_notMem
          (Bracket.numberSign_notMem bracket' name' hName) hInfix))
  · intro hToken
    obtain ⟨before, after, hSplit⟩ := List.append_of_mem hToken
    rw [← write_tokens text, hSplit, List.flatMap_append, List.flatMap_cons,
      Token.write_directive_text]
    exact List.infix_append' _ _ _

end Directive

end HeaderRename
