import HeaderRename.Proofs.Disk.Contents
import HeaderRename.Run.Rewrite

/-!
# What rewriting a file does

A rewrite succeeds just where its path leads to a regular file. It changes the bytes of that file at
most, and finds a change or none by them alone.
-/
set_option autoImplicit false

namespace HeaderRename

namespace RewriteOptions

/-- The bytes of a file after its rewrite, which a dry run leaves as they were. -/
def effect (options : RewriteOptions) (rules : List Rule) (bytes : List UInt8) : List UInt8 :=
  if options.dry then bytes else options.step rules bytes

theorem effect_of_not_dry (options : RewriteOptions) (rules : List Rule)
    (h : options.dry = false) : options.effect rules = options.step rules := by
  funext bytes
  rw [effect, h, if_neg Bool.false_ne_true]

theorem step_of_changed (options : RewriteOptions) (rules : List Rule) (bytes : List UInt8)
    (h : (options.apply rules bytes).changed = true) :
    options.step rules bytes = options.encoding.encode (options.apply rules bytes).text := by
  rw [step, h, if_pos rfl]

theorem step_of_not_changed (options : RewriteOptions) (rules : List Rule) (bytes : List UInt8)
    (h : (options.apply rules bytes).changed = false) : options.step rules bytes = bytes := by
  rw [step, h, if_neg Bool.false_ne_true]

theorem effect_of_not_changed (options : RewriteOptions) {rules : List Rule} {bytes : List UInt8}
    (h : (options.apply rules bytes).changed = false) : options.effect rules bytes = bytes := by
  rw [effect, options.step_of_not_changed rules bytes h, ite_self]

/-- The effect on the file at one place, and none on the others. -/
def effectAt (options : RewriteOptions) (rules : List Rule) (place place' : Place)
    (bytes : List UInt8) : List UInt8 :=
  if place' = place then options.effect rules bytes else bytes

end RewriteOptions

namespace Disk

theorem mapFiles_effectAt_of_effect_eq (disk : Disk) (options : RewriteOptions) (rules : List Rule)
    (place : Place) (bytes : List UInt8) (hFile : disk.get? place = some (.file bytes))
    (hSame : options.effect rules bytes = bytes) :
    disk.mapFiles (options.effectAt rules place) = disk := by
  have hEffect := put_file_eq_mapFiles disk place bytes hFile (options.effect rules)
  have hId := put_file_eq_mapFiles disk place bytes hFile fun bytes => bytes
  simp only [ite_self] at hId
  rw [hSame] at hEffect
  exact hEffect.symm.trans (hId.trans (mapFiles_id disk))

theorem rewriteFile_of_stat_eq_file (disk : Disk) (rules : List Rule) (options : RewriteOptions)
    (path : String) (place : Place) (bytes : List UInt8)
    (h : disk.stat path = .ok (.file place bytes)) :
    disk.rewriteFile rules options path = .ok
      { updated := (options.apply rules bytes).changed
        matched := (options.apply rules bytes).matched
        disk := disk.mapFiles (options.effectAt rules place)
        written :=
          if (options.apply rules bytes).changed = true ∧ options.dry = false then [place] else [] } := by
  have hFile := get?_of_stat_eq_file disk path place bytes h
  have hRead : disk.read path = .ok bytes := by rw [read, h]
  cases hChanged : (options.apply rules bytes).changed with
  | false =>
    rw [mapFiles_effectAt_of_effect_eq disk options rules place bytes hFile
      (options.effect_of_not_changed hChanged)]
    simp [rewriteFile, hRead, hChanged]
  | true =>
    cases hDry : options.dry with
    | true =>
      have hSame : options.effect rules bytes = bytes := by
        rw [RewriteOptions.effect, hDry, if_pos rfl]
      rw [mapFiles_effectAt_of_effect_eq disk options rules place bytes hFile hSame]
      simp [rewriteFile, hRead, hChanged, hDry]
    | false =>
      have hPut : disk.put place (.file (options.encoding.encode (options.apply rules bytes).text)) =
          disk.mapFiles (options.effectAt rules place) := by
        rw [← options.step_of_changed rules bytes hChanged,
          ← options.effect_of_not_dry rules hDry]
        exact put_file_eq_mapFiles disk place bytes hFile (options.effect rules)
      have hResolve := resolve_eq_of_stat_eq_file disk path place bytes h
      simp [rewriteFile, hRead, hChanged, hDry, write, hResolve, hPut]

theorem exists_of_rewriteFile_eq_ok (disk : Disk) (rules : List Rule) (options : RewriteOptions)
    (path : String) (outcome : FileOutcome)
    (h : disk.rewriteFile rules options path = .ok outcome) :
    ∃ place bytes, disk.stat path = .ok (.file place bytes) := by
  unfold rewriteFile read at h
  cases hStat : disk.stat path with
  | error fault => rw [hStat] at h; cases h
  | ok found =>
    cases found with
    | file place bytes => exact ⟨place, bytes, rfl⟩
    | directory | link | missing => rw [hStat] at h; cases h

end Disk

end HeaderRename
