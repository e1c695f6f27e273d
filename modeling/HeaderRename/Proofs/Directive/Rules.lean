import HeaderRename.Proofs.Directive.Scan
import HeaderRename.Proofs.Rename.NameAfter

/-!
# The rules of a table as one scan

A rule writes one text for another wherever it stands, and a table's rules are applied to the whole
text in turn. As no two directives overlap, a rule of a table does no more than a scan that changes
one name in one style, and all the rules together are the scan that passes each name through the
renames of its style.
-/
set_option autoImplicit false

namespace HeaderRename

namespace Text

theorem replaceFrom_of_occurs_eq_false (old new text : Text) (h : occurs old text = false) :
    replaceFrom old new 0 text = text := by
  induction text with
  | nil => rfl
  | cons c rest ih =>
    rw [occurs, Bool.or_eq_false_iff] at h
    rw [replaceFrom, h.1, if_neg Bool.false_ne_true, ih h.2]

theorem replaceFrom_append_of_notMem (c : Char) (old new front back : Text) (h : c ∉ front) :
    replaceFrom (c :: old) new 0 (front ++ back) =
      front ++ replaceFrom (c :: old) new 0 back := by
  induction front with
  | nil => rfl
  | cons d front ih =>
    rw [List.mem_cons, not_or] at h
    rw [List.cons_append, replaceFrom, if_neg (not_isPrefixOf_cons_of_ne h.1 _ _), ih h.2,
      List.cons_append]

end Text

theorem Rule.apply_eq_replaceFrom (rule : Rule) (h : rule.pattern ≠ []) (text : Text) :
    rule.apply text = Text.replaceFrom rule.pattern rule.replacement 0 text := by
  have hEmpty : ¬ rule.pattern.isEmpty = true := by rwa [List.isEmpty_iff]
  cases hOccurs : Text.occurs rule.pattern text with
  | true => rw [Rule.apply, hOccurs, if_pos rfl, Text.replace, if_neg hEmpty]
  | false =>
    rw [Rule.apply, hOccurs, if_neg Bool.false_ne_true,
      Text.replaceFrom_of_occurs_eq_false _ _ text hOccurs]

namespace Bracket

def rule (bracket : Bracket) (old new : String) : Rule where
  pattern := bracket.directive old
  replacement := bracket.directive new

def change (bracket : Bracket) (old new : String) (bracket' : Bracket) (name : String) : String :=
  if bracket' = bracket ∧ name = old then new else name

end Bracket

namespace Directive

theorem keepsNames_change (bracket : Bracket) (old new : String)
    (hNew : HeaderName.isValid new = true) : KeepsNames (bracket.change old new) := by
  intro bracket' name hName
  unfold Bracket.change
  split
  · exact hNew
  · exact hName

/-- Where a directive stands, a rule finds that directive or nothing up to the end of it. -/
theorem replaceFrom_directive_append (bracket bracket' : Bracket) (old new name : String)
    (hOld : HeaderName.isValid old = true) (hName : HeaderName.isValid name = true) (rest : Text) :
    Text.replaceFrom (bracket.directive old) (bracket.directive new) 0
        (bracket'.directive name ++ rest) =
      bracket'.directive (bracket.change old new bracket' name) ++
        Text.replaceFrom (bracket.directive old) (bracket.directive new) 0 rest := by
  by_cases hSame : bracket' = bracket ∧ name = old
  · obtain ⟨rfl, rfl⟩ := hSame
    have hPrefix : (bracket'.directive name).isPrefixOf (bracket'.directive name ++ rest) = true :=
      List.isPrefixOf_iff_prefix.mpr (List.prefix_append _ _)
    rw [Bracket.change, if_pos ⟨rfl, rfl⟩]
    rw [Bracket.directive_eq bracket' name, List.cons_append] at hPrefix ⊢
    rw [Text.replaceFrom, if_pos hPrefix, Text.replaceFrom_eq_drop, List.length_cons,
      Nat.add_sub_cancel, List.drop_left]
  · have hPrefix : ¬ (bracket.directive old).isPrefixOf (bracket'.directive name ++ rest) = true := by
      intro h
      obtain ⟨rfl, rfl⟩ := Bracket.eq_of_directive_prefix bracket' bracket name old hName hOld _
        (List.prefix_append _ _) (List.isPrefixOf_iff_prefix.mp h)
      exact hSame ⟨rfl, rfl⟩
    rw [Bracket.change, if_neg hSame]
    rw [Bracket.directive_eq bracket' name, List.cons_append] at hPrefix ⊢
    rw [Text.replaceFrom, if_neg hPrefix, List.cons_append, Bracket.directive_eq bracket old,
      Text.replaceFrom_append_of_notMem '#' _ _ _ rest (Bracket.numberSign_notMem bracket' name hName)]

theorem replaceFrom_eq_scan (bracket : Bracket) (old new : String)
    (hOld : HeaderName.isValid old = true) (text : Text) :
    Text.replaceFrom (bracket.directive old) (bracket.directive new) 0 text =
      scan (bracket.change old new) text := by
  induction text using Directive.induction with
  | nil => rfl
  | symbol c rest hFirst ih =>
    have hPrefix : ¬ (bracket.directive old).isPrefixOf (c :: rest) = true := by
      intro h
      have hSome := (first?_eq_some_iff (c :: rest) bracket old).mpr
        ⟨hOld, List.isPrefixOf_iff_prefix.mp h⟩
      rw [Alphabet.map_char_text, hSome] at hFirst
      cases hFirst
    rw [Text.replaceFrom, if_neg hPrefix, ih, scan_cons_of_first?_eq_none _ c rest hFirst]
  | directive bracket' name rest hName ih =>
    rw [scan_directive_append _ bracket' name hName, Token.write_directive_text,
      Token.write_directive_text, replaceFrom_directive_append _ _ _ _ _ hOld hName, ih]

theorem apply_rule_eq_scan (bracket : Bracket) (old new : String)
    (hOld : HeaderName.isValid old = true) (text : Text) :
    (bracket.rule old new).apply text = scan (bracket.change old new) text := by
  rw [Rule.apply_eq_replaceFrom _ (List.cons_ne_nil _ _)]
  exact replaceFrom_eq_scan bracket old new hOld text

end Directive

namespace Directive

theorem keepsNames_rename (rename : Rename) (hNew : HeaderName.isValid rename.new = true) :
    KeepsNames rename.nameAfter :=
  fun bracket name hName => rename.isValid_nameAfter bracket name hNew hName

theorem keepsNames_table (table : Table) : KeepsNames table.nameAfter :=
  table.isValid_nameAfter

theorem foldl_rules_eq_scan (rename : Rename) (hOld : HeaderName.isValid rename.old = true)
    (hNew : HeaderName.isValid rename.new = true) (text : Text) :
    rename.rules.foldl (fun t rule => rule.apply t) text = scan rename.nameAfter text := by
  -- a rule of one style finds nothing in what a rule of another has written
  have hStyles : ∀ (brackets : List Bracket) (text : Text),
      (brackets.map fun bracket => bracket.rule rename.old rename.new).foldl
          (fun t rule => rule.apply t) text =
        scan (fun bracket name =>
          if bracket ∈ brackets ∧ name = rename.old then rename.new else name) text := by
    intro brackets
    induction brackets with
    | nil => intro text; simp [scan_id]
    | cons bracket rest ih =>
      intro text
      rw [List.map_cons, List.foldl_cons, apply_rule_eq_scan bracket _ _ hOld, ih,
        scan_scan (keepsNames_change bracket _ _ hNew)]
      congr 1
      funext bracket' name
      unfold Bracket.change
      grind
  have hNames : (fun bracket name =>
      if bracket ∈ rename.styles.brackets ∧ name = rename.old then rename.new else name) =
        rename.nameAfter := by
    funext bracket name
    simp only [Rename.nameAfter, Styles.mem_brackets_iff]
  rw [← hNames]
  exact hStyles rename.styles.brackets text

theorem foldl_table_rules_eq_scan (table : Table) (text : Text) :
    table.rules.foldl (fun t rule => rule.apply t) text = scan table.nameAfter text := by
  have hValid := table.valid
  unfold Table.rules Table.nameAfter
  generalize table.renames = renames at hValid
  induction renames generalizing text with
  | nil => exact (scan_id text).symm
  | cons rename rest ih =>
    obtain ⟨hOld, hNew⟩ := hValid rename List.mem_cons_self
    rw [List.flatMap_cons, List.foldl_append, foldl_rules_eq_scan rename hOld hNew,
      ih _ fun r hr => hValid r (List.mem_cons_of_mem rename hr),
      scan_scan (keepsNames_rename rename hNew)]
    rfl

/-- Passes of such rules over the whole text leave each token what it is. -/
theorem map_kind_tokens_foldl (rules : List Rule)
    (h : ∀ rule ∈ rules, ∃ bracket old new, HeaderName.isValid old = true ∧
      HeaderName.isValid new = true ∧ rule = Bracket.rule bracket old new) (text : Text) :
    (tokens (rules.foldl (fun t rule => rule.apply t) text)).map Token.kind =
      (tokens text).map Token.kind := by
  induction rules generalizing text with
  | nil => rfl
  | cons rule rest ih =>
    obtain ⟨bracket, old, new, hOld, hNew, rfl⟩ := h rule List.mem_cons_self
    rw [List.foldl_cons, ih fun r hr => h r (List.mem_cons_of_mem _ hr),
      apply_rule_eq_scan bracket old new hOld, tokens_scan (keepsNames_change bracket old new hNew),
      List.map_map]
    exact List.map_congr_left fun token _ => Token.kind_rename _ token

theorem exists_eq_rule_of_mem_rules (table : Table) (rule : Rule) (h : rule ∈ table.rules) :
    ∃ bracket old new, HeaderName.isValid old = true ∧ HeaderName.isValid new = true ∧
      rule = Bracket.rule bracket old new := by
  obtain ⟨rename, hRename, h⟩ := List.mem_flatMap.mp h
  obtain ⟨bracket, _, rfl⟩ := List.mem_map.mp h
  obtain ⟨hOld, hNew⟩ := table.valid rename hRename
  exact ⟨bracket, rename.old, rename.new, hOld, hNew, rfl⟩

theorem text_applyRules (table : Table) (text : Text) :
    (applyRules table.rules text).text = scan table.nameAfter text := by
  rw [applyRules_text, foldl_table_rules_eq_scan]

theorem tokens_text_applyRules (table : Table) (text : Text) :
    tokens (applyRules table.rules text).text =
      (tokens text).map (Token.rename table.nameAfter) := by
  rw [text_applyRules, tokens_scan (keepsNames_table table)]

/-- Applying the rules of a table, pass after pass over the whole text, is one scan that changes the
names in the directives and nothing else; and after any number of passes the text has the same
symbols and directives of the same styles, in the same places. -/
theorem applyRules_eq_scan (table : Table) (text : Text) :
    (applyRules table.rules text).text = scan table.nameAfter text ∧
    tokens (applyRules table.rules text).text = (tokens text).map (Token.rename table.nameAfter) ∧
    ∀ passes : Nat,
      (tokens (applyRules (table.rules.take passes) text).text).map Token.kind =
        (tokens text).map Token.kind := by
  refine ⟨text_applyRules table text, tokens_text_applyRules table text, ?_⟩
  intro passes
  rw [applyRules_text]
  apply map_kind_tokens_foldl
  intro rule hRule
  exact exists_eq_rule_of_mem_rules table rule (List.mem_of_mem_take hRule)

end Directive

end HeaderRename
