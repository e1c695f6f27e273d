import HeaderRename.Proofs.Directive.Apart
import HeaderRename.Proofs.Rename.Hazards
import Mathlib.Data.List.FinRange

/-!
# Hazards as seen by the rules

Two renames are compared by their names and styles. This tells what it is meant to tell: whether a
rule of the one finds its pattern in what a rule of the other writes. The hazards of a table are the
pairs of renames that do so, the earlier one first, in the order of their places in the table.
-/
set_option autoImplicit false

namespace HeaderRename

/-- A rule of the second finds its pattern in what a rule of the first writes. -/
def Rename.WritesFor (earlier later : Rename) : Prop :=
  ∃ rule ∈ earlier.rules, ∃ rule' ∈ later.rules, rule'.pattern <:+: rule.replacement

namespace Directive

/-- As a directive is one token, there is no other directive in it. -/
theorem directive_infix_directive_iff (bracket bracket' : Bracket) {name name' : String}
    (h : HeaderName.isValid name = true) (h' : HeaderName.isValid name' = true) :
    bracket.directive name <:+: bracket'.directive name' ↔ bracket = bracket' ∧ name = name' := by
  rw [directive_infix_iff bracket name h, tokens_directive bracket' name' h', List.mem_singleton,
    Token.directive.injEq]

theorem writesFor_iff_feeds {earlier later : Rename}
    (hNew : HeaderName.isValid earlier.new = true) (hOld : HeaderName.isValid later.old = true) :
    earlier.WritesFor later ↔ earlier.feeds later = true := by
  rw [Rename.feeds_iff]
  constructor
  · rintro ⟨rule, hRule, rule', hRule', hInfix⟩
    obtain ⟨bracket, hStyle, rfl⟩ := List.mem_map.mp hRule
    obtain ⟨bracket', hStyle', rfl⟩ := List.mem_map.mp hRule'
    obtain ⟨rfl, hName⟩ := (directive_infix_directive_iff bracket' bracket hOld hNew).mp hInfix
    exact ⟨bracket', (Styles.mem_brackets_iff _ _).mp hStyle,
      (Styles.mem_brackets_iff _ _).mp hStyle', hName.symm⟩
  · rintro ⟨bracket, hStyle, hStyle', hName⟩
    refine ⟨_, List.mem_map_of_mem ((Styles.mem_brackets_iff _ bracket).mpr hStyle),
      _, List.mem_map_of_mem ((Styles.mem_brackets_iff _ bracket).mpr hStyle'), ?_⟩
    exact (directive_infix_directive_iff bracket bracket hOld hNew).mpr ⟨rfl, hName.symm⟩

end Directive

namespace Table

def feedingPlaces (renames : List Rename) : List (Fin renames.length × Fin renames.length) :=
  (List.finRange renames.length).flatMap fun i =>
    ((List.finRange renames.length).filter fun j =>
      decide (i < j) && renames[i].feeds renames[j]).map (Prod.mk i)

theorem mem_feedingPlaces_iff {renames : List Rename} (i j : Fin renames.length) :
    (i, j) ∈ feedingPlaces renames ↔ i < j ∧ renames[i].feeds renames[j] = true := by
  simp [feedingPlaces]

theorem pairwise_feedingPlaces (renames : List Rename) :
    (feedingPlaces renames).Pairwise (Prod.Lex (· < ·) (· < ·)) := by
  rw [feedingPlaces, List.pairwise_flatMap]
  constructor
  · intro i _
    rw [List.pairwise_map]
    exact ((List.pairwise_lt_finRange _).filter _).imp fun h => Prod.Lex.right i h
  · apply (List.pairwise_lt_finRange _).imp
    intro i i' hLt place hPlace place' hPlace'
    obtain ⟨j, _, rfl⟩ := List.mem_map.mp hPlace
    obtain ⟨j', _, rfl⟩ := List.mem_map.mp hPlace'
    exact Prod.Lex.left j j' hLt

theorem feedingPlaces_cons (earlier : Rename) (rest : List Rename) :
    feedingPlaces (earlier :: rest) =
      (((List.finRange rest.length).filter fun j => earlier.feeds rest[j]).map fun j =>
        (0, j.succ)) ++ (feedingPlaces rest).map fun place => (place.1.succ, place.2.succ) := by
  have hPlaces : List.finRange (earlier :: rest).length =
      0 :: (List.finRange rest.length).map Fin.succ := List.finRange_succ
  rw [feedingPlaces, feedingPlaces, hPlaces, List.flatMap_cons, List.flatMap_map, List.map_flatMap]
  congr 1
  · simp [List.filter_map, Function.comp_def]
  · simp [List.filter_map, Function.comp_def]

theorem hazardsOf_eq_map (renames : List Rename) :
    hazardsOf renames = (feedingPlaces renames).map fun place =>
      Hazard.mk renames[place.1] renames[place.2] := by
  induction renames with
  | nil => rfl
  | cons earlier rest ih =>
    have hFed : rest.filter earlier.feeds =
        ((List.finRange rest.length).filter fun j => earlier.feeds rest[j]).map (rest[·]) := by
      conv_lhs => rw [← List.map_getElem_finRange rest, List.filter_map]
      rfl
    rw [hazardsOf, ih, hFed, feedingPlaces_cons, List.map_append, List.map_map, List.map_map,
      List.map_map]
    rfl

theorem nodup_renames (table : Table) : table.renames.Nodup :=
  List.Nodup.of_map _ table.nodup

theorem nodup_hazards (table : Table) : table.hazards.Nodup := by
  rw [hazards, hazardsOf_eq_map]
  apply List.Nodup.map
  · rintro ⟨i, j⟩ ⟨i', j'⟩ hSame
    obtain ⟨hEarlier, hLater⟩ := Hazard.mk.inj hSame
    exact Prod.ext (table.nodup_renames.injective_get hEarlier)
      (table.nodup_renames.injective_get hLater)
  · exact (pairwise_feedingPlaces table.renames).nodup

/-- Comparing the names and styles of two renames tells whether a rule of the one finds its pattern
in what a rule of the other writes. The hazards are just the pairs of renames, the earlier before the
later, of which this is so, and each is listed once, in the order of the two places in the table. -/
theorem hazards_eq_map_places (table : Table) :
    (∀ i j : Fin table.renames.length,
      table.renames[i].feeds table.renames[j] = true ↔
        table.renames[i].WritesFor table.renames[j]) ∧
    ∃ places : List (Fin table.renames.length × Fin table.renames.length),
      table.hazards = places.map (fun place =>
        Hazard.mk table.renames[place.1] table.renames[place.2]) ∧
      places.Pairwise (Prod.Lex (· < ·) (· < ·)) ∧
      (∀ i j, (i, j) ∈ places ↔ i < j ∧ table.renames[i].WritesFor table.renames[j]) ∧
      table.hazards.Nodup := by
  have hFeeds : ∀ i j : Fin table.renames.length,
      table.renames[i].feeds table.renames[j] = true ↔
        table.renames[i].WritesFor table.renames[j] := fun i j =>
    (Directive.writesFor_iff_feeds (table.valid _ (List.getElem_mem i.isLt)).2
      (table.valid _ (List.getElem_mem j.isLt)).1).symm
  refine ⟨hFeeds, feedingPlaces table.renames, hazardsOf_eq_map table.renames,
    pairwise_feedingPlaces table.renames, ?_, table.nodup_hazards⟩
  intro i j
  rw [mem_feedingPlaces_iff, hFeeds]

end Table

end HeaderRename
