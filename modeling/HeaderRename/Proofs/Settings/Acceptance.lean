import HeaderRename.Proofs.Directive.Reading
import HeaderRename.Proofs.Rename.NameAfter
import HeaderRename.Proofs.Settings.Fields
import HeaderRename.Settings.Loader
import Mathlib.Data.List.Nodup

/-!
# Configurations that are accepted

What is asked of a configuration, said without the tables that are built from it: roots, header
names written in their alphabet, and renames of which no two take one name, a built-in one included
where the built-in ones count.
-/
set_option autoImplicit false

namespace HeaderRename

namespace HeaderName

def firstLetters : List Char :=
  "ABCDEFGHIJKLMNOPQRSTUVWXYZabcdefghijklmnopqrstuvwxyz0123456789_".toList

def laterLetters : List Char :=
  firstLetters ++ "./+-".toList

def IsName (name : String) : Prop :=
  ∃ first rest, name.toList = first :: rest ∧ first ∈ firstLetters ∧ ∀ c ∈ rest, c ∈ laterLetters

theorem isFirst_eq_true_iff (c : Char) : isFirst c = true ↔ c ∈ firstLetters := by
  have hLow : ∀ n < 128, isFirst (Char.ofNat n) = decide (Char.ofNat n ∈ firstLetters) := by
    decide +kernel
  have hLetters : (firstLetters.all fun c => decide (c.toNat < 128)) = true := by decide +kernel
  by_cases hChar : c.toNat < 128
  · have hSame := hLow c.toNat hChar
    rw [Char.ofNat_toNat] at hSame
    rw [hSame, decide_eq_true_eq]
  · constructor
    · intro hFirst
      exact absurd (toNat_lt_of_isLater c (by simp [isLater, hFirst])) hChar
    · intro hMem
      exact absurd (of_decide_eq_true (List.all_eq_true.mp hLetters c hMem)) hChar

theorem isLater_eq_true_iff (c : Char) : isLater c = true ↔ c ∈ laterLetters := by
  rw [laterLetters, List.mem_append, ← isFirst_eq_true_iff]
  simp [isLater, or_assoc]

theorem isValid_eq_true_iff (name : String) : isValid name = true ↔ IsName name := by
  unfold isValid IsName
  cases name.toList with
  | nil => simp [accepts]
  | cons first rest =>
    rw [accepts, Bool.and_eq_true, List.all_eq_true, isFirst_eq_true_iff]
    simp only [isLater_eq_true_iff]
    constructor
    · rintro ⟨hFirst, hRest⟩
      exact ⟨first, rest, rfl, hFirst, hRest⟩
    · rintro ⟨_, _, hSplit, hFirst, hRest⟩
      cases hSplit
      exact ⟨hFirst, hRest⟩

instance (name : String) : Decidable (IsName name) :=
  decidable_of_iff _ (isValid_eq_true_iff name)

end HeaderName

namespace Table

theorem ofRenames?_eq_ok_iff (name description : String) (renames : List Rename) :
    (∃ table, ofRenames? name description renames = .ok table) ↔
      (∀ r ∈ renames, HeaderName.IsName r.old ∧ HeaderName.IsName r.new) ∧
        (renames.map (·.old)).Nodup := by
  have hFault := fault?_eq_none_iff [] renames
  simp only [HeaderName.isValid_eq_true_iff, List.not_mem_nil, not_false_eq_true, implies_true,
    and_true] at hFault
  rw [← hFault]
  unfold ofRenames?
  split
  · rename_i fault hSome
    simp [hSome]
  · rename_i hNone
    simp [hNone]

theorem map_old_lib : lib.renames.map (·.old) = libNames.map (·.1) := by
  simp [lib, ofAccepted]

end Table

namespace Config

open Setting HeaderName

@[mk_iff]
structure IsAcceptable (config : Config) : Prop where
  limitsRoots : config.limits.roots ≠ []
  libRoots : config.lib.roots ≠ []
  limitsNames : IsName config.limits.old ∧ IsName config.limits.new
  entryNames : ∀ entry ∈ config.lib.renames, IsName entry.old ∧ IsName entry.new
  distinct : (config.lib.renames.map (·.old)).Nodup
  notBuiltin : config.lib.replaceDefaults = false →
    ∀ entry ∈ config.lib.renames, entry.old ∉ Table.libNames.map (·.1)

instance (config : Config) : Decidable config.IsAcceptable :=
  decidable_of_iff _ config.isAcceptable_iff.symm

theorem requireRoots_eq_ok_iff (section_ : String) (roots : List String) :
    requireRoots section_ roots = .ok () ↔ roots ≠ [] := by
  cases roots <;> simp [requireRoots]

variable (config : Config)

theorem exists_limitsTable_iff : (∃ table, config.limitsTable = .ok table) ↔
    IsName config.limits.old ∧ IsName config.limits.new := by
  simp only [limitsTable, mapError_eq_ok_iff, Table.ofRenames?_eq_ok_iff]
  simp

/-- The renames that the library table is made of. -/
def libRenames : List Rename :=
  (if config.lib.replaceDefaults then [] else Table.lib.renames) ++
    config.lib.renames.map RenameEntry.toRename

theorem exists_libTable_iff : (∃ table, config.libTable = .ok table) ↔
    (∀ r ∈ config.libRenames, IsName r.old ∧ IsName r.new) ∧
      (config.libRenames.map (·.old)).Nodup := by
  unfold libTable
  split
  · -- no entries: the built-in table stands as it is
    next hBuiltin =>
    obtain ⟨hKept, hNone⟩ : config.lib.replaceDefaults = false ∧ config.lib.renames = [] := by
      simpa using hBuiltin
    have hRenames : config.libRenames = Table.lib.renames := by
      simp [libRenames, hKept, hNone]
    rw [hRenames]
    refine iff_of_true ⟨Table.lib, rfl⟩ ⟨?_, Table.lib.nodup⟩
    simpa only [isValid_eq_true_iff] using Table.lib.valid
  · simp only [mapError_eq_ok_iff]
    exact Table.ofRenames?_eq_ok_iff "lib" "includes" config.libRenames

theorem forall_mem_libRenames_iff :
    (∀ r ∈ config.libRenames, IsName r.old ∧ IsName r.new) ↔
      ∀ entry ∈ config.lib.renames, IsName entry.old ∧ IsName entry.new := by
  have hBuiltin : ∀ r ∈ Table.lib.renames, IsName r.old ∧ IsName r.new := by
    simpa only [isValid_eq_true_iff] using Table.lib.valid
  rw [libRenames, List.forall_mem_append, List.forall_mem_map]
  cases config.lib.replaceDefaults
  · exact and_iff_right hBuiltin
  · exact and_iff_right (List.forall_mem_nil _)

theorem nodup_libRenames_iff : (config.libRenames.map (·.old)).Nodup ↔
    (config.lib.renames.map (·.old)).Nodup ∧
      (config.lib.replaceDefaults = false →
        ∀ entry ∈ config.lib.renames, entry.old ∉ Table.libNames.map (·.1)) := by
  have hEntries : (config.lib.renames.map RenameEntry.toRename).map (·.old) =
      config.lib.renames.map (·.old) := by
    rw [List.map_map]
    rfl
  rw [libRenames, List.map_append, hEntries]
  cases hReplace : config.lib.replaceDefaults
  · rw [if_neg Bool.false_ne_true, List.nodup_append', List.disjoint_comm, Table.map_old_lib,
      List.disjoint_left, List.forall_mem_map, and_iff_right (Table.map_old_lib ▸ Table.lib.nodup)]
    simp
  · simp

/-- Both checks of a configuration, those of its roots and those made in building its tables. -/
theorem validate_eq_ok_iff : config.validate = .ok () ↔ config.IsAcceptable := by
  have hSplit : config.validate = .ok () ↔
      config.limits.roots ≠ [] ∧ config.lib.roots ≠ [] ∧
        (∃ table, config.limitsTable = .ok table) ∧ ∃ table, config.libTable = .ok table := by
    simp only [validate, bind_eq_ok_iff]
    constructor
    · rintro ⟨_, hLimits, _, hLib, table, hTable, table', hTable', _⟩
      exact ⟨(requireRoots_eq_ok_iff _ _).mp hLimits, (requireRoots_eq_ok_iff _ _).mp hLib,
        ⟨table, hTable⟩, table', hTable'⟩
    · rintro ⟨hLimits, hLib, ⟨table, hTable⟩, table', hTable'⟩
      exact ⟨(), (requireRoots_eq_ok_iff _ _).mpr hLimits, (),
        (requireRoots_eq_ok_iff _ _).mpr hLib, table, hTable, table', hTable', rfl⟩
  rw [hSplit, exists_limitsTable_iff, exists_libTable_iff, forall_mem_libRenames_iff,
    nodup_libRenames_iff, isAcceptable_iff]

end Config

theorem Loader.build_eq_ok_iff_validate {loader : Loader} {disk : Disk} {vars : Variables}
    {root : Setting} {config : Config} (hMerged : loader.merged disk vars = .ok root)
    (hRead : Config.ofSetting root = .ok config) :
    loader.build disk vars = .ok config ↔ config.validate = .ok () := by
  simp only [build, Setting.bind_eq_ok_iff, hMerged, Setting.mapError_eq_ok_iff]
  constructor
  · rintro ⟨_, hRoot, config', hConfig, _, hValid, _⟩
    cases hRoot
    rw [hRead] at hConfig
    cases hConfig
    exact hValid
  · intro hValid
    exact ⟨root, rfl, config, hRead, (), hValid, rfl⟩

end HeaderRename
