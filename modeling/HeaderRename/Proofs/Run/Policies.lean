import Mathlib.Data.List.ReduceOption
import HeaderRename.Proofs.Directive.Idempotence
import HeaderRename.Proofs.Run.Rewrite
import HeaderRename.Proofs.Text.Local

/-!
# The two policies for invalid bytes

Invalid parts are either marked or dropped. The texts differ in nothing but marks, so a directive
that stands in the marked text stands in the other as well, where more of them may have come about.
A rewrite that finds a change with marks therefore finds one without them.
-/
set_option autoImplicit false

namespace HeaderRename

namespace Utf8

section Marks

variable (mark : Char)

theorem filter_map_getD (items : List (Option Char)) :
    (items.map (·.getD mark)).filter (· ≠ mark) = (items.filterMap id).filter (· ≠ mark) := by
  induction items with
  | nil => rfl
  | cons item items ih =>
    cases item with
    | none => simpa using ih
    | some c =>
      rw [List.map_cons, List.filterMap_cons, id, Option.getD_some, List.filter_cons,
        List.filter_cons, ih]

theorem map_some_map_getD {items : List (Option Char)} (h : ∀ item ∈ items, item.isSome = true) :
    (items.map (·.getD mark)).map some = items := by
  rw [List.map_map]
  apply (List.map_congr_left ?_).trans (List.map_id items)
  intro item hItem
  obtain ⟨c, rfl⟩ := Option.isSome_iff_exists.mp (h item hItem)
  rfl

/-- Each invalid part makes the marked text longer than the other. -/
theorem map_getD_eq_filterMap_iff (items : List (Option Char)) :
    items.map (·.getD mark) = items.filterMap id ↔ ∃ text : Text, items = text.map some := by
  constructor
  · intro h
    have hSome : ∀ item ∈ items, item.isSome = true := by
      rw [← List.reduceOption_length_eq_iff, List.reduceOption, ← h, List.length_map]
    exact ⟨items.map (·.getD mark), (map_some_map_getD mark hSome).symm⟩
  · rintro ⟨text, rfl⟩
    rw [List.map_map, List.filterMap_map, Function.id_comp, List.filterMap_some]
    exact List.map_id' text

variable {mark} in
/-- What holds no mark stands between two marks, or before or behind all of them. -/
theorem infix_filterMap_of_infix_map_getD {items : List (Option Char)} {pattern : Text}
    (hMark : mark ∉ pattern) (h : pattern <:+: items.map (·.getD mark)) :
    pattern <:+: items.filterMap id := by
  obtain ⟨part, ⟨front, back, rfl⟩, rfl⟩ := List.infix_map_iff.mp h
  have hSome : ∀ item ∈ part, item.isSome = true := by
    intro item hItem
    cases item with
    | none => exact absurd (List.mem_map.mpr ⟨none, hItem, rfl⟩) hMark
    | some c => rfl
  refine ⟨front.filterMap id, back.filterMap id, ?_⟩
  have hPart : part.filterMap id = part.map (·.getD mark) :=
    ((map_getD_eq_filterMap_iff mark part).mpr ⟨_, (map_some_map_getD mark hSome).symm⟩).symm
  rw [List.filterMap_append, List.filterMap_append, hPart]

end Marks

theorem exists_read_eq_map_some_iff (bytes : List UInt8) :
    (∃ text : Text, read bytes = text.map some) ↔ ∃ text, bytes = write text := by
  simp only [← decode?_eq_some_iff, decode?, mapM_id_eq_some_iff]

end Utf8

namespace Directive

theorem mem_tokens_ignore {bytes : List UInt8} {bracket : Bracket} {name : String}
    (h : .directive bracket name ∈ tokens (Encoding.utf8.decode .replace bytes)) :
    .directive bracket name ∈ tokens (Encoding.utf8.decode .ignore bytes) := by
  have hName := isValid_of_mem_tokens _ bracket name h
  have hMark : Utf8.replacement ∉ bracket.directive name := by
    intro hMem
    have hAscii := bracket.toNat_lt_of_mem_directive name hName _ hMem
    exact absurd hAscii (by decide)
  rw [← directive_infix_iff bracket name hName] at h ⊢
  exact Utf8.infix_filterMap_of_infix_map_getD hMark h

end Directive

namespace RewriteOptions

open Directive

theorem changed_ignore_of_changed_replace (encoding : Encoding) (dry : Bool) (table : Table)
    {bytes : List UInt8}
    (h : (apply ⟨encoding, .replace, dry⟩ table.rules bytes).changed = true) :
    (apply ⟨encoding, .ignore, dry⟩ table.rules bytes).changed = true := by
  cases encoding with
  | acp | oem => exact h
  | utf8 =>
    by_contra hSame
    rw [Bool.not_eq_true, apply, changed_applyRules_eq_false_iff] at hSame
    have hReplace : (apply ⟨.utf8, .replace, dry⟩ table.rules bytes).changed = false := by
      rw [apply, changed_applyRules_eq_false_iff]
      intro bracket name hToken
      exact hSame bracket name (mem_tokens_ignore hToken)
    rw [hReplace] at h
    cases h

end RewriteOptions

namespace Disk

open Directive

/-- Without its marks the text of either policy is the same, and the two texts are equal just where
no byte is invalid. Each directive of the marked text is one of the other text too. So a file that a
rewrite changes where invalid parts are marked is changed where they are dropped. -/
theorem rewriteFile_ignore_of_replace :
    (∀ bytes,
      (Encoding.utf8.decode .replace bytes).filter (· ≠ Utf8.replacement) =
          (Encoding.utf8.decode .ignore bytes).filter (· ≠ Utf8.replacement) ∧
        (Encoding.utf8.decode .replace bytes = Encoding.utf8.decode .ignore bytes ↔
          ∃ text, bytes = Encoding.utf8.encode text) ∧
        ∀ bracket name,
          Token.directive bracket name ∈ tokens (Encoding.utf8.decode .replace bytes) →
            Token.directive bracket name ∈ tokens (Encoding.utf8.decode .ignore bytes)) ∧
      ∀ (disk : Disk) (table : Table) (encoding : Encoding) (dry : Bool) (path : String)
        (outcome : FileOutcome),
        disk.rewriteFile table.rules ⟨encoding, .replace, dry⟩ path = .ok outcome →
        outcome.updated = true →
          ∃ outcome', disk.rewriteFile table.rules ⟨encoding, .ignore, dry⟩ path = .ok outcome' ∧
            outcome'.updated = true := by
  constructor
  · intro bytes
    refine ⟨Utf8.filter_map_getD Utf8.replacement (Utf8.read bytes), ?_,
      fun bracket name => mem_tokens_ignore⟩
    exact (Utf8.map_getD_eq_filterMap_iff Utf8.replacement (Utf8.read bytes)).trans
      (Utf8.exists_read_eq_map_some_iff bytes)
  · intro disk table encoding dry path outcome hOutcome hUpdated
    obtain ⟨place, bytes', hStat⟩ := exists_of_rewriteFile_eq_ok disk _ _ path outcome hOutcome
    rw [rewriteFile_of_stat_eq_file disk _ _ path place bytes' hStat] at hOutcome
    cases hOutcome
    refine ⟨_, rewriteFile_of_stat_eq_file disk _ _ path place bytes' hStat, ?_⟩
    exact RewriteOptions.changed_ignore_of_changed_replace encoding dry table hUpdated

/-- A mark that the file holds itself, then an invalid byte in front of a directive. -/
def markedFile : Disk where
  entries := [(["a.c"], .file ([0xEF, 0xBF, 0xBD, 0xFF] ++ "#include \"limits.h\"".toUTF8.toList))]
  nodup := by decide
  valid := by decide

theorem rewriteFile_ignore_of_replace_markedFile :
    ∃ bytes outcome outcome', markedFile.read "a.c" = .ok bytes ∧
      markedFile.rewriteFile Table.limits.rules ⟨.utf8, .replace, false⟩ "a.c" = .ok outcome ∧
      outcome.updated = true ∧
      markedFile.rewriteFile Table.limits.rules ⟨.utf8, .ignore, false⟩ "a.c" = .ok outcome' ∧
      outcome'.updated = true ∧
      Encoding.utf8.decode .ignore bytes = '\uFFFD' :: "#include \"limits.h\"".toList ∧
      Encoding.utf8.decode .replace bytes = '\uFFFD' :: '\uFFFD' :: "#include \"limits.h\"".toList := by
  let bytes : List UInt8 := [0xEF, 0xBF, 0xBD, 0xFF] ++ "#include \"limits.h\"".toUTF8.toList
  have hStat : markedFile.stat "a.c" = .ok (.file ["a.c"] bytes) := by decide +kernel
  have hRead : markedFile.read "a.c" = .ok bytes := by rw [read, hStat]
  have hReplace := rewriteFile_of_stat_eq_file markedFile Table.limits.rules
    ⟨.utf8, .replace, false⟩ "a.c" ["a.c"] bytes hStat
  obtain ⟨outcome', hIgnore, hUpdated⟩ := rewriteFile_ignore_of_replace.2 markedFile Table.limits
    .utf8 false "a.c" _ hReplace (by decide +kernel)
  exact ⟨bytes, _, outcome', hRead, hReplace, by decide +kernel, hIgnore, hUpdated,
    by decide +kernel, by decide +kernel⟩

end Disk

end HeaderRename
