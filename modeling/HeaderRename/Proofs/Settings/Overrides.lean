import HeaderRename.Proofs.Settings.Fields
import HeaderRename.Settings.Loader

/-!
# Overrides

An override keeps the place of the first one of its field, which makes no difference: the value that
is given last counts. The options that are made for single fields come behind the others, so for all
other fields the others alone count.
-/
set_option autoImplicit false

namespace HeaderRename

open Setting

namespace Loader

/-- What an option sets, if it is well-formed. -/
def placed? (raw : String) : Option (KeyPath × Setting) :=
  match parseOverride raw with
  | .ok (key, value) => (KeyPath.parse? key).map (·, .ofText value)
  | .error _ => none

theorem of_placed?_eq_some {raw : String} {placed : KeyPath × Setting}
    (h : placed? raw = some placed) :
    StartsWithKey placed.1 ∧ ∃ text, placed.2 = .ofText text := by
  unfold placed? at h
  split at h
  · obtain ⟨path, hPath, rfl⟩ := Option.map_eq_some_iff.mp h
    exact ⟨startsWithKey_of_parse? hPath, _, rfl⟩
  · cases h

def put (overrides : List (KeyPath × Setting)) (placed : KeyPath × Setting) :
    List (KeyPath × Setting) :=
  putOverride placed.1 placed.2 overrides

theorem applyOverrides_cons_eq_ok_iff {loader loader' : Loader} {raw : String}
    {raws : List String} : loader.applyOverrides (raw :: raws) = .ok loader' ↔
      ∃ placed, placed? raw = some placed ∧
        { loader with overrides := put loader.overrides placed }.applyOverrides raws =
          .ok loader' := by
  rw [applyOverrides, placed?]
  cases parseOverride raw with
  | error fault => simp [bind, Except.bind]
  | ok assignment =>
    obtain ⟨key, value⟩ := assignment
    cases hPath : KeyPath.parse? key with
    | none => simp [bind, Except.bind, set, hPath]
    | some path => simp [bind, Except.bind, set, hPath, put]

theorem applyOverrides_eq_ok_iff {loader loader' : Loader} {raws : List String} :
    loader.applyOverrides raws = .ok loader' ↔ (∀ raw ∈ raws, (placed? raw).isSome = true) ∧
      loader' = { loader with
        overrides := (raws.filterMap placed?).foldl put loader.overrides } := by
  induction raws generalizing loader with
  | nil =>
    constructor
    · intro h
      exact ⟨List.forall_mem_nil _, (Except.ok.inj h).symm⟩
    · rintro ⟨_, rfl⟩
      rfl
  | cons raw raws ih =>
    rw [applyOverrides_cons_eq_ok_iff, List.forall_mem_cons]
    cases hPlaced : placed? raw with
    | none => simp
    | some placed => simp [ih, List.filterMap_cons_some hPlaced]

section Overrides

variable (path : KeyPath) (value : Setting) (overrides : List (KeyPath × Setting))

theorem lookup_putOverride (key : KeyPath) : (putOverride path value overrides).lookup key =
    if key = path then some value else overrides.lookup key := by
  induction overrides with
  | nil => rw [putOverride, lookup_cons_eq_ite]
  | cons placed rest ih =>
    obtain ⟨path', value'⟩ := placed
    rw [putOverride]
    by_cases hPath : path' = path
    · rw [if_pos hPath, lookup_cons_eq_ite, lookup_cons_eq_ite, hPath]
      split <;> rfl
    · rw [if_neg hPath, lookup_cons_eq_ite, lookup_cons_eq_ite, ih]
      by_cases hKey : key = path'
      · rw [if_pos hKey, if_pos hKey, if_neg (hKey ▸ hPath)]
      · rw [if_neg hKey, if_neg hKey]

theorem of_mem_putOverride {placed : KeyPath × Setting}
    (h : placed ∈ putOverride path value overrides) :
    placed = (path, value) ∨ placed ∈ overrides := by
  induction overrides with
  | nil => exact .inl (List.mem_singleton.mp h)
  | cons first rest ih =>
    obtain ⟨path', value'⟩ := first
    rw [putOverride] at h
    split at h
    · next hPath =>
      subst hPath
      exact (List.mem_cons.mp h).imp_right (List.mem_cons_of_mem _)
    · rcases List.mem_cons.mp h with rfl | hRest
      · exact .inr List.mem_cons_self
      · exact (ih hRest).imp_right (List.mem_cons_of_mem _)

theorem nodup_keys_putOverride (h : (overrides.map (·.1)).Nodup) :
    ((putOverride path value overrides).map (·.1)).Nodup := by
  induction overrides with
  | nil => exact List.nodup_singleton _
  | cons first rest ih =>
    obtain ⟨path', value'⟩ := first
    obtain ⟨hNew, hRest⟩ := List.nodup_cons.mp h
    rw [putOverride]
    split
    · exact h
    · next hPath =>
      refine List.nodup_cons.mpr ⟨fun hMem => ?_, ih hRest⟩
      obtain ⟨placed, hPlaced, hSame⟩ := List.mem_map.mp hMem
      rcases of_mem_putOverride path value rest hPlaced with rfl | hOld
      · exact hPath hSame.symm
      · exact hNew (List.mem_map.mpr ⟨placed, hOld, hSame⟩)

end Overrides

variable (key : KeyPath) (options : List (KeyPath × Setting))

theorem lookup_foldl_put (overrides : List (KeyPath × Setting)) :
    (options.foldl put overrides).lookup key = (last? key options).or (overrides.lookup key) := by
  induction options generalizing overrides with
  | nil => rfl
  | cons placed options ih =>
    rw [List.foldl_cons, ih, put, lookup_putOverride, last?_cons, last?_singleton, Option.or_assoc]
    split <;> rfl

theorem of_mem_foldl_put {overrides : List (KeyPath × Setting)} {placed : KeyPath × Setting}
    (h : placed ∈ options.foldl put overrides) : placed ∈ options ∨ placed ∈ overrides := by
  induction options generalizing overrides with
  | nil => exact .inr h
  | cons first options ih =>
    rcases ih h with hRest | hPut
    · exact .inl (List.mem_cons_of_mem _ hRest)
    · rcases of_mem_putOverride _ _ _ hPut with rfl | hOld
      · exact .inl List.mem_cons_self
      · exact .inr hOld

theorem setsOrSpares_of_mem_foldl_put {section_ name : String}
    (h : ∀ placed ∈ options, SetsOrSpares section_ name placed) :
    ∀ placed ∈ options.foldl put [], SetsOrSpares section_ name placed := by
  intro placed hPlaced
  rcases of_mem_foldl_put options hPlaced with hOption | hNil
  · exact h placed hOption
  · cases hNil

theorem nodup_keys_foldl_put {overrides : List (KeyPath × Setting)}
    (h : (overrides.map (·.1)).Nodup) : ((options.foldl put overrides).map (·.1)).Nodup := by
  induction options generalizing overrides with
  | nil => exact h
  | cons first options ih => exact ih (nodup_keys_putOverride _ _ _ h)

/-- Of the overrides of one path, the last one given counts, wherever the first one stood. -/
theorem last?_path_foldl_put : last? key (options.foldl put []) = last? key options := by
  have hNodup : ((options.foldl put []).map (·.1)).Nodup :=
    nodup_keys_foldl_put options List.nodup_nil
  rw [last?_eq_lookup _ hNodup, lookup_foldl_put, List.lookup_nil, Option.or_none]

theorem filter_putOverride (path : KeyPath) (value : Setting)
    (overrides : List (KeyPath × Setting)) :
    (putOverride path value overrides).filter (·.1 ≠ key) =
      if path = key then overrides.filter (·.1 ≠ key)
      else putOverride path value (overrides.filter (·.1 ≠ key)) := by
  induction overrides with
  | nil =>
    rw [putOverride]
    split
    · next hPath => simp [hPath]
    · next hPath => simp [hPath, putOverride]
  | cons placed rest ih =>
    obtain ⟨path', value'⟩ := placed
    rw [putOverride]
    by_cases hSame : path' = path
    · subst hSame
      by_cases hPath : path' = key
      · simp [hPath]
      · simp [hPath, putOverride]
    · rw [if_neg hSame]
      by_cases hPath' : path' = key
      · simpa [hPath'] using ih
      · rw [List.filter_cons_of_pos (by simpa using hPath'), ih,
          List.filter_cons_of_pos (by simpa using hPath')]
        split
        · rfl
        · rw [putOverride, if_neg hSame]

theorem filter_foldl_put (overrides : List (KeyPath × Setting)) :
    (options.foldl put overrides).filter (·.1 ≠ key) =
      (options.filter (·.1 ≠ key)).foldl put (overrides.filter (·.1 ≠ key)) := by
  induction options generalizing overrides with
  | nil => rfl
  | cons placed options ih =>
    rw [List.foldl_cons, ih, put, filter_putOverride]
    split
    · next hPath => rw [List.filter_cons_of_neg (by simpa using hPath)]
    · next hPath => rw [List.filter_cons_of_pos (by simpa using hPath), List.foldl_cons, put]

theorem agreeBut_foldl_put {section_ name : String} {below below' : Setting}
    (h : AgreeBut section_ name below below') {options options' : List (KeyPath × Setting)}
    (hOptions : ∀ placed ∈ options, SetsOrSpares section_ name placed)
    (hOptions' : ∀ placed ∈ options', SetsOrSpares section_ name placed)
    (hOthers : options.filter (·.1 ≠ fieldPath section_ name) =
      options'.filter (·.1 ≠ fieldPath section_ name)) :
    AgreeBut section_ name ((options.foldl put []).foldl place below)
      ((options'.foldl put []).foldl place below') := by
  have hPut := h.foldl_place (setsOrSpares_of_mem_foldl_put options hOptions)
  have hPut' := (AgreeBut.refl below').foldl_place
    (setsOrSpares_of_mem_foldl_put options' hOptions')
  rw [filter_foldl_put, hOthers, ← filter_foldl_put] at hPut
  exact hPut.trans hPut'.symm

def IsField (placed : KeyPath × Setting) : Prop :=
  ∃ section_ name, placed.1 = [.key section_, .key name]

theorem last?_flatMap_fieldsOf (hFields : ∀ placed ∈ options, IsField placed)
    (section_ name : String) : last? (section_, name) (options.flatMap fieldsOf) =
      last? [.key section_, .key name] options := by
  induction options with
  | nil => rfl
  | cons placed options ih =>
    obtain ⟨⟨section', name', hPath⟩, hRest⟩ := List.forall_mem_cons.mp hFields
    obtain ⟨path, value⟩ := placed
    obtain rfl : path = [.key section', .key name'] := hPath
    rw [List.flatMap_cons, last?_append, ih hRest, last?_cons _ _ options, last?_singleton,
      show fieldsOf ([.key section', .key name'], value) = [((section', name'), value)] from rfl,
      last?_singleton]
    simp

theorem last?_foldl_put (hFields : ∀ placed ∈ options, IsField placed) (section_ name : String) :
    last? (section_, name) ((options.foldl put []).flatMap fieldsOf) =
      last? (section_, name) (options.flatMap fieldsOf) := by
  have hPut : ∀ placed ∈ options.foldl put [], IsField placed := by
    intro placed hPlaced
    rcases of_mem_foldl_put options hPlaced with hOption | hNil
    · exact hFields placed hOption
    · cases hNil
  rw [last?_flatMap_fieldsOf _ hPut, last?_flatMap_fieldsOf _ hFields, last?_path_foldl_put]

theorem splitOnce_append (sep : Char) (front rest : List Char) (hSep : sep ∉ front) :
    splitOnce sep (front ++ sep :: rest) = some (front, rest) := by
  induction front with
  | nil => rw [List.nil_append, splitOnce, if_pos rfl]
  | cons c front ih =>
    obtain ⟨hFirst, hFront⟩ := not_or.mp (List.mem_cons.not.mp hSep)
    rw [List.cons_append, splitOnce, if_neg (Ne.symm hFirst), ih hFront]
    rfl

/-- An option written with these names is read as one for the field. -/
def IsNamed (field : String × String) : Prop :=
  '=' ∉ (field.1 ++ "/" ++ field.2).toList ∧
    splitOnce '/' (Blank.trim (field.1 ++ "/" ++ field.2).toList) =
      some (field.1.toList, field.2.toList) ∧
    (field.1.toList.isEmpty || field.2.toList.isEmpty) = false ∧
    KeyPath.parse? (String.ofList (field.1.toList ++ '.' :: field.2.toList)) =
      some (fieldPath field.1 field.2)

instance (field : String × String) : Decidable (IsNamed field) :=
  inferInstanceAs (Decidable (_ ∧ _))

def trimmed (text : String) : String :=
  String.ofList (Blank.trim text.toList)

theorem placed?_of_isNamed {field : String × String} (hNamed : IsNamed field) (text : String) :
    placed? (field.1 ++ "/" ++ field.2 ++ "=" ++ text) =
      some (fieldPath field.1 field.2, .ofText (trimmed text)) := by
  obtain ⟨hEquals, hSlash, hNames, hPath⟩ := hNamed
  have hSplit : splitOnce '=' (field.1 ++ "/" ++ field.2 ++ "=" ++ text).toList =
      some ((field.1 ++ "/" ++ field.2).toList, text.toList) := by
    rw [String.toList_append, String.toList_append, List.append_assoc,
      show "=".toList = ['='] from rfl, List.singleton_append, splitOnce_append _ _ _ hEquals]
  simp only [placed?, parseOverride, hSplit, hSlash, hNames, Bool.false_eq_true, if_false, hPath,
    Option.map_some, trimmed]

/-- The fields that have an option of their own. -/
def flagFields : List (String × String) :=
  [("global", "output_log_level"), ("global", "file_log_level"), ("global", "log_file"),
    ("global", "dry"), ("discovery", "backend")]

theorem isNamed_of_mem_flagFields : ∀ field ∈ flagFields, IsNamed field := by
  decide +kernel

end Loader

namespace GlobalOptions

variable (g : GlobalOptions)

/-- The fields that are set by options of their own. -/
def flagged : List (String × String) :=
  (g.logLevel.map fun _ => ("global", "output_log_level")).toList ++
    ((g.fileLogLevel.or g.logLevel).map fun _ => ("global", "file_log_level")).toList ++
    (g.logFile.map fun _ => ("global", "log_file")).toList ++
    (if g.dry then [("global", "dry")] else []) ++
    (g.backend.map fun _ => ("discovery", "backend")).toList

def flags : List String :=
  (g.logLevel.map fun level => s!"global/output_log_level={level}").toList ++
    ((g.fileLogLevel.or g.logLevel).map fun level => s!"global/file_log_level={level}").toList ++
    (g.logFile.map fun file => s!"global/log_file={file}").toList ++
    (if g.dry then ["global/dry=true"] else []) ++
    (g.backend.map fun backend => s!"discovery/backend={backend.name}").toList

theorem overrides_eq : g.overrides = g.options ++ g.flags := by
  simp only [overrides, flags, List.append_assoc]

/-- The fields that are set by options of their own, with the texts they are given. -/
def assignments : List ((String × String) × String) :=
  (g.logLevel.map fun level => (("global", "output_log_level"), toString level)).toList ++
    ((g.fileLogLevel.or g.logLevel).map fun level =>
      (("global", "file_log_level"), toString level)).toList ++
    (g.logFile.map fun file => (("global", "log_file"), file)).toList ++
    (if g.dry then [(("global", "dry"), "true")] else []) ++
    (g.backend.map fun backend => (("discovery", "backend"), backend.name)).toList

theorem flagged_eq_map_assignments : g.flagged = g.assignments.map (·.1) := by
  simp only [flagged, assignments, List.map_append, Option.toList_map, List.map_map]
  congr 2
  split <;> rfl

theorem flags_eq_map_assignments : g.flags = g.assignments.map fun assignment =>
    assignment.1.1 ++ "/" ++ assignment.1.2 ++ "=" ++ assignment.2 := by
  simp only [flags, assignments, List.map_append, Option.toList_map, List.map_map]
  congr 2
  split <;> rfl

theorem mem_flagFields_of_mem_flagged : ∀ field ∈ g.flagged, field ∈ Loader.flagFields := by
  intro field hField
  simp only [flagged, List.mem_append, Option.mem_toList, Option.map_eq_some_iff] at hField
  rcases hField with (((⟨_, _, rfl⟩ | ⟨_, _, rfl⟩) | ⟨_, _, rfl⟩) | hDry) | ⟨_, _, rfl⟩
  · simp [Loader.flagFields]
  · simp [Loader.flagFields]
  · simp [Loader.flagFields]
  · split at hDry
    · simp [List.mem_singleton.mp hDry, Loader.flagFields]
    · cases hDry
  · simp [Loader.flagFields]

theorem mem_flagged_of_mem_assignments : ∀ assignment ∈ g.assignments,
    assignment.1 ∈ g.flagged := by
  intro assignment hMem
  rw [flagged_eq_map_assignments]
  exact List.mem_map_of_mem hMem

theorem filterMap_placed?_flags : g.flags.filterMap Loader.placed? =
    g.assignments.map fun assignment =>
      (fieldPath assignment.1.1 assignment.1.2, .ofText (Loader.trimmed assignment.2)) := by
  rw [flags_eq_map_assignments, List.filterMap_map, ← List.filterMap_eq_map]
  refine List.filterMap_congr fun assignment hMem => ?_
  have hField := g.mem_flagged_of_mem_assignments assignment hMem
  exact Loader.placed?_of_isNamed
    (Loader.isNamed_of_mem_flagFields _ (g.mem_flagFields_of_mem_flagged _ hField)) assignment.2

end GlobalOptions

namespace Loader

variable {g : GlobalOptions}

theorem isField_of_isPlain {raw : String} {placed : KeyPath × Setting}
    (hPlaced : placed? raw = some placed) (hPlain : isPlain placed = true) : IsField placed := by
  obtain ⟨_, text, hText⟩ := of_placed?_eq_some hPlaced
  obtain ⟨path, value⟩ := placed
  obtain rfl : value = .ofText text := hText
  obtain ⟨section_, incoming, hBlock, _⟩ := exists_block_of_isPlain hPlain
  unfold block? at hBlock
  split at hBlock
  · next hTable => cases hTable
  · next hField =>
    cases hField
    exact ⟨_, _, rfl⟩
  · cases hBlock

theorem of_mem_flags {placed : KeyPath × Setting} (h : placed ∈ g.flags.filterMap placed?) :
    isPlain placed = true ∧ ∃ field ∈ g.flagged, placed.1 = [.key field.1, .key field.2] := by
  rw [g.filterMap_placed?_flags] at h
  obtain ⟨assignment, hMem, rfl⟩ := List.mem_map.mp h
  exact ⟨rfl, assignment.1, g.mem_flagged_of_mem_assignments assignment hMem, rfl⟩

/-- The overrides of a field that no option is made for are those among the options given. -/
theorem last?_overrides {section_ name : String} (hFlags : (section_, name) ∉ g.flagged)
    (hFields : ∀ placed ∈ g.options.filterMap placed?, IsField placed) :
    last? (section_, name) (((g.overrides.filterMap placed?).foldl put []).flatMap fieldsOf) =
      last? (section_, name) ((g.options.filterMap placed?).flatMap fieldsOf) := by
  have hFlagFields : ∀ placed ∈ g.flags.filterMap placed?, IsField placed := by
    intro placed hPlaced
    obtain ⟨_, field, _, hPath⟩ := of_mem_flags hPlaced
    exact ⟨_, _, hPath⟩
  have hOther : [.key section_, .key name] ∉ (g.flags.filterMap placed?).map (·.1) := by
    intro hMem
    obtain ⟨placed, hPlaced, hPath⟩ := List.mem_map.mp hMem
    obtain ⟨_, field, hField, hPath'⟩ := of_mem_flags hPlaced
    rw [hPath'] at hPath
    cases hPath
    exact hFlags hField
  have hAll : ∀ placed ∈ g.overrides.filterMap placed?, IsField placed := by
    rw [g.overrides_eq, List.filterMap_append]
    exact List.forall_mem_append.mpr ⟨hFields, hFlagFields⟩
  rw [last?_foldl_put _ hAll, g.overrides_eq, List.filterMap_append, List.flatMap_append,
    last?_append, last?_flatMap_fieldsOf _ hFlagFields, last?_eq_none_of_not_mem _ hOther,
    Option.none_or]

end Loader

end HeaderRename
