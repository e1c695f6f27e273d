import HeaderRename.Proofs.Run.Again

/-!
# When the bytes of a file change

Whether a rewrite finds a change is decided by the decoded text. The text that it writes is decoded
to itself, and so differs from the old one just where the bytes do. A file in which no name changes
keeps its bytes, those invalid in its encoding among them, which would be lost in a text that is
written back.
-/
set_option autoImplicit false

namespace HeaderRename

namespace Encoding

theorem encode_decode_eq_self_iff (encoding : Encoding) (policy : DecodePolicy)
    (bytes : List UInt8) :
    encoding.encode (encoding.decode policy bytes) = bytes ↔
      encoding ≠ .utf8 ∨ ∃ text, bytes = Utf8.write text := by
  constructor
  · intro h
    cases encoding with
    | utf8 => exact Or.inr ⟨_, h.symm⟩
    | acp | oem => exact Or.inl (by decide)
  · intro h
    obtain ⟨cleaned, hCleans⟩ := encoding.exists_cleans policy bytes
    rw [hCleans.encode_decode]
    rcases h with hPage | ⟨text, hText⟩
    · exact hCleans.eq_of_page hPage
    · exact hCleans.eq_of_valid text hText

end Encoding

namespace RewriteOptions

/-- Were the bytes the same, the text decoded from them would be the old and the new one at once. -/
theorem step_eq_self_iff (options : RewriteOptions) (table : Table) (bytes : List UInt8) :
    options.step table.rules bytes = bytes ↔ (options.apply table.rules bytes).changed = false := by
  constructor
  · intro hSame
    by_contra hChanged
    rw [Bool.not_eq_false] at hChanged
    rw [options.step_of_changed table.rules bytes hChanged] at hSame
    have hText := options.decode_encode_apply table bytes
    rw [hSame] at hText
    exact (applyRules_changed_iff table.rules _).mp hChanged hText.symm
  · exact options.step_of_not_changed table.rules bytes

end RewriteOptions

namespace Disk

/-- A rewrite that may write finds a change just where the file has other bytes afterwards, and
where it finds none it writes nothing. This is so for every file that can be read, also for one
whose text would be encoded to other bytes than it has, as with each that holds invalid UTF-8. -/
theorem rewriteFile_updated_iff (disk : Disk) (table : Table) (options : RewriteOptions)
    (path : String) (bytes : List UInt8) (hRead : disk.read path = .ok bytes)
    (hDry : options.dry = false) :
    ∃ outcome bytes', disk.rewriteFile table.rules options path = .ok outcome ∧
      outcome.disk.read path = .ok bytes' ∧
      (outcome.updated = true ↔ bytes' ≠ bytes) ∧
      (outcome.updated = true ↔ outcome.written ≠ []) ∧
      (outcome.updated = false → outcome.written = [] ∧ outcome.disk = disk) ∧
      (options.encoding.encode (options.encoding.decode options.policy bytes) = bytes ↔
        options.encoding ≠ .utf8 ∨ ∃ text, bytes = Utf8.write text) := by
  obtain ⟨place, hStat⟩ := disk.read_eq_ok_iff.mp hRead
  have hEffect : options.effect table.rules bytes = bytes ↔
      (options.apply table.rules bytes).changed = false := by
    rw [options.effect_of_not_dry table.rules hDry]
    exact options.step_eq_self_iff table bytes
  refine ⟨_, options.effect table.rules bytes,
    rewriteFile_of_stat_eq_file disk table.rules options path place bytes hStat, ?_, ?_, ?_, ?_,
    options.encoding.encode_decode_eq_self_iff options.policy bytes⟩
  · rw [read_eq_ok_iff]
    refine ⟨place, ?_⟩
    rw [stat_mapFiles, hStat]
    simp only [Except.map, Found.mapBytes, RewriteOptions.effectAt, if_pos]
  · rw [ne_eq, hEffect, Bool.not_eq_false]
  · simp [hDry]
  · intro hUnchanged
    change (options.apply table.rules bytes).changed = false at hUnchanged
    have hFile := get?_of_stat_eq_file disk path place bytes hStat
    constructor
    · simp [hUnchanged]
    · exact mapFiles_effectAt_of_effect_eq disk options table.rules place bytes hFile
        (hEffect.mpr hUnchanged)

/-- No directive of the file is renamed, and it holds a byte that is invalid in UTF-8. -/
def untouchedFile : Disk where
  entries := [(["a.c"], .file (0xFF :: "#include \"stdio.h\"".toUTF8.toList))]
  nodup := by decide
  valid := by decide

theorem rewriteFile_updated_iff_untouchedFile :
    ∃ bytes outcome, untouchedFile.read "a.c" = .ok bytes ∧
      untouchedFile.rewriteFile Table.limits.rules ⟨.utf8, .replace, false⟩ "a.c" = .ok outcome ∧
      Encoding.utf8.encode (Encoding.utf8.decode .replace bytes) ≠ bytes ∧
      outcome.updated = false ∧ outcome.written = [] ∧ outcome.disk = untouchedFile := by
  have hRead : untouchedFile.read "a.c" = .ok (0xFF :: "#include \"stdio.h\"".toUTF8.toList) := by
    decide +kernel
  obtain ⟨outcome, bytes', hOutcome, _, _, _, hUnchanged, _⟩ := rewriteFile_updated_iff untouchedFile
    Table.limits ⟨.utf8, .replace, false⟩ "a.c" _ hRead rfl
  have hUpdated : outcome.updated = false := by
    have hSame : (untouchedFile.rewriteFile Table.limits.rules ⟨.utf8, .replace, false⟩ "a.c").map
        (·.updated) = .ok false := by decide +kernel
    rw [hOutcome] at hSame
    exact Except.ok.inj hSame
  exact ⟨_, outcome, hRead, hOutcome, by decide +kernel, hUpdated, hUnchanged hUpdated⟩

end Disk

end HeaderRename
