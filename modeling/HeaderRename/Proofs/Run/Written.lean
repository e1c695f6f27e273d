import HeaderRename.Proofs.Directive.Bytes
import HeaderRename.Proofs.Directive.Rules
import HeaderRename.Proofs.Run.Rewrite
import HeaderRename.Rename.Builtin

/-!
# The bytes that are written

The bytes that a rewrite writes are the scan, byte for byte, of what is left of the old ones when
invalid parts are dropped or marked. The text that is encoded stays within its code page, so that no
character is written as a reference.
-/
set_option autoImplicit false

namespace HeaderRename

open Directive

namespace RewriteOptions

variable (options : RewriteOptions) (table : Table)

theorem encode_apply_eq_scan (bytes cleaned : List UInt8)
    (h : options.encoding.Cleans options.policy bytes cleaned) :
    options.encoding.encode (options.apply table.rules bytes).text =
      scan table.nameAfter cleaned := by
  have hDecoded := options.encoding.transparent_decode options.policy bytes
  have hScan := scan_flatMap (keepsNames_table table) hDecoded
  rw [apply, text_applyRules, Encoding.encode_eq_flatMap, ← hScan, ← Encoding.encode_eq_flatMap,
    h.encode_decode]

/-- The rewritten text has no character that its code page lacks. -/
theorem isSome_byte?_of_mem_apply (bytes : List UInt8) (page : CodePage)
    (hPage : options.encoding.page? = some page) (c : Char)
    (hc : c ∈ (options.apply table.rules bytes).text) : (page.byte? c).isSome = true := by
  rw [apply, text_applyRules] at hc
  have hDecode : options.encoding.decode options.policy bytes = page.decode bytes := by
    simp only [Encoding.decode, hPage]
  rw [hDecode] at hc
  rcases mem_scan (keepsNames_table table) _ c hc with hMem | hAscii
  · obtain ⟨b, _, rfl⟩ := List.mem_map.mp hMem
    rw [page.byte?_decodeByte]
    rfl
  · have hByte : page.byte? c = some (UInt8.ofNat c.toNat) := if_pos hAscii
    rw [hByte]
    rfl

end RewriteOptions

namespace Disk

/-- Where a rewrite writes, the file gets the scan of its cleaned bytes: only the names in their
directives differ, and no character reference is new. Bytes of a code page and valid UTF-8 are clean
as they are. -/
theorem rewriteFile_writes_scan (disk : Disk) (table : Table) (options : RewriteOptions)
    (path : String) (outcome : FileOutcome) (place : Place)
    (hOutcome : disk.rewriteFile table.rules options path = .ok outcome)
    (hWritten : place ∈ outcome.written) :
    ∃ bytes cleaned, disk.stat path = .ok (.file place bytes) ∧
      (∀ cleaned', options.encoding.Cleans options.policy bytes cleaned' ↔ cleaned' = cleaned) ∧
      ((options.encoding ≠ .utf8 ∨ ∃ text, bytes = Utf8.write text) → cleaned = bytes) ∧
      outcome.disk.get? place = some (.file (scan table.nameAfter cleaned)) ∧
      (∀ reference, Text.IsReference reference →
        Text.occurrences reference ((scan table.nameAfter cleaned).map Alphabet.char) =
          Text.occurrences reference (cleaned.map Alphabet.char)) ∧
      ∀ page, options.encoding.page? = some page →
        ∀ c ∈ (options.apply table.rules bytes).text, (page.byte? c).isSome = true := by
  obtain ⟨place', bytes, hStat⟩ := exists_of_rewriteFile_eq_ok disk _ options path outcome hOutcome
  rw [rewriteFile_of_stat_eq_file disk _ options path place' bytes hStat] at hOutcome
  cases hOutcome
  obtain ⟨cleaned, hCleans⟩ := options.encoding.exists_cleans options.policy bytes
  by_cases hWrites : (options.apply table.rules bytes).changed = true ∧ options.dry = false
  · simp only [if_pos hWrites, List.mem_singleton] at hWritten
    subst hWritten
    obtain ⟨hChanged, hDry⟩ := hWrites
    have hFile := get?_of_stat_eq_file disk path place bytes hStat
    have hEffect : options.effect table.rules bytes = scan table.nameAfter cleaned := by
      rw [options.effect_of_not_dry table.rules hDry,
        options.step_of_changed table.rules bytes hChanged,
        options.encode_apply_eq_scan table bytes cleaned hCleans]
    refine ⟨bytes, cleaned, hStat, ?_, ?_, ?_, ?_, ?_⟩
    · intro cleaned'
      constructor
      · exact fun h => h.unique hCleans
      · rintro rfl
        exact hCleans
    · rintro (hPage | ⟨text, hText⟩)
      · exact hCleans.eq_of_page hPage
      · exact hCleans.eq_of_valid text hText
    · change (disk.mapFiles _).get? place = _
      rw [get?_mapFiles, hFile, Option.map_some, Entry.mapBytes, RewriteOptions.effectAt,
        if_pos rfl, hEffect]
    · exact fun reference h => occurrences_reference_scan (keepsNames_table table) reference h cleaned
    · exact options.isSome_byte?_of_mem_apply table bytes
  · simp only [if_neg hWrites, List.not_mem_nil] at hWritten

def invalidFile : Disk where
  entries := [(["a.c"], .file (0xFF :: "#include \"limits.h\"".toUTF8.toList))]
  nodup := by decide
  valid := by decide

theorem rewriteFile_writes_scan_invalidFile :
    ∃ outcome, invalidFile.rewriteFile Table.limits.rules ⟨.utf8, .replace, false⟩ "a.c" =
        .ok outcome ∧ ["a.c"] ∈ outcome.written ∧
      ∃ cleaned, Encoding.utf8.Cleans .replace
          (0xFF :: "#include \"limits.h\"".toUTF8.toList) cleaned ∧
        outcome.disk.get? ["a.c"] = some (.file (scan Table.limits.nameAfter cleaned)) := by
  have hStat : invalidFile.stat "a.c" =
      .ok (.file ["a.c"] (0xFF :: "#include \"limits.h\"".toUTF8.toList)) := by decide +kernel
  have hOutcome := rewriteFile_of_stat_eq_file invalidFile Table.limits.rules
    ⟨.utf8, .replace, false⟩ "a.c" ["a.c"] _ hStat
  refine ⟨_, hOutcome, by decide +kernel, ?_⟩
  obtain ⟨bytes, cleaned, hBytes, hCleans, _, hDisk, _⟩ := rewriteFile_writes_scan invalidFile
    Table.limits ⟨.utf8, .replace, false⟩ "a.c" _ ["a.c"] hOutcome (by decide +kernel)
  obtain rfl : bytes = 0xFF :: "#include \"limits.h\"".toUTF8.toList := by
    rw [hStat] at hBytes
    cases hBytes
    rfl
  exact ⟨cleaned, (hCleans cleaned).mpr rfl, hDisk⟩

end Disk

end HeaderRename
