import HeaderRename.Number.Shortest
import HeaderRename.Proofs.Settings.Flags
import Mathlib.Data.Nat.Digits.Defs

/-!
# Text from a variable

A variable of the environment sets a field of text to its value as that is shown: a value that reads
as a boolean or a number is written anew. Giving the text that is shown as an override instead makes
no difference.
-/
set_option autoImplicit false

namespace HeaderRename

open Setting

namespace Blank

theorem isBlank_eq_false_of_isDigit {c : Char} (h : c.isDigit = true) : isBlank c = false := by
  rw [Char.isDigit, Bool.and_eq_true, decide_eq_true_eq, decide_eq_true_eq] at h
  have hLow : 48 ≤ c.toNat := UInt32.le_iff_toNat_le.mp h.1
  have hHigh : c.toNat ≤ 57 := UInt32.le_iff_toNat_le.mp h.2
  simp only [isBlank, Bool.or_eq_false_iff, Bool.and_eq_false_iff, decide_eq_false_iff_not,
    beq_eq_false_iff_ne]
  omega

theorem isBlank_eq_false_of_mem_toDigits {n : Nat} {c : Char} (h : c ∈ Nat.toDigits 10 n) :
    isBlank c = false :=
  isBlank_eq_false_of_isDigit (Nat.isDigit_of_mem_toDigits (by decide) (by decide) h)

theorem isBlank_eq_false_of_any {text : List Char} (h : text.any isBlank = false) :
    ∀ c ∈ text, isBlank c = false := by
  simpa using h

theorem dropWhile_isBlank {text : List Char} (h : ∀ c ∈ text, isBlank c = false) :
    text.dropWhile isBlank = text := by
  cases text with
  | nil => rfl
  | cons c rest => rw [List.dropWhile_cons_of_neg (by simp [h c])]

theorem trim_eq_self {text : List Char} (h : ∀ c ∈ text, isBlank c = false) : trim text = text := by
  have hReverse : ∀ c ∈ text.reverse, isBlank c = false := by simpa using h
  rw [trim, dropWhile_isBlank h, trimRight, dropWhile_isBlank hReverse, List.reverse_reverse]

end Blank

open Blank

theorem isBlank_toString_int (n : Int) : ∀ c ∈ (toString n).toList, isBlank c = false := by
  intro c hMem
  cases n with
  | ofNat n =>
    rw [show toString (Int.ofNat n) = n.repr from rfl, Nat.toList_repr] at hMem
    exact isBlank_eq_false_of_mem_toDigits hMem
  | negSucc n =>
    rw [show toString (Int.negSucc n) = "-" ++ (n + 1).repr from rfl, String.toList_append,
      List.mem_append, Nat.toList_repr] at hMem
    rcases hMem with hSign | hDigit
    · obtain rfl : c = '-' := by simpa using hSign
      rfl
    · exact isBlank_eq_false_of_mem_toDigits hDigit

namespace Binary64

theorem isBlank_positional (digits : Nat) (place : Int) :
    ∀ c ∈ positional digits place, isBlank c = false := by
  have hText : ∀ c ∈ Nat.toDigits 10 digits, isBlank c = false :=
    fun c hMem => isBlank_eq_false_of_mem_toDigits hMem
  have hZeros : ∀ (count : Nat), ∀ c ∈ List.replicate count '0', isBlank c = false := by
    intro count c hMem
    rw [List.eq_of_mem_replicate hMem]
    rfl
  have hPadded : ∀ count, ∀ c ∈ List.replicate count '0' ++ Nat.toDigits 10 digits,
      isBlank c = false :=
    fun count => List.forall_mem_append.mpr ⟨hZeros count, hText⟩
  intro c hMem
  unfold positional at hMem
  dsimp only at hMem
  split at hMem
  · exact List.forall_mem_append.mpr ⟨hText, hZeros _⟩ c hMem
  · split at hMem
    · exact hPadded _ c (List.mem_of_mem_take hMem)
    · rcases List.mem_append.mp hMem with hWhole | hPart
      · exact hPadded _ c (List.mem_of_mem_take hWhole)
      · rcases List.mem_cons.mp hPart with rfl | hPart
        · rfl
        · rw [List.mem_reverse] at hPart
          have hKept := List.mem_reverse.mp ((List.dropWhile_sublist _).subset hPart)
          exact hPadded _ c (List.mem_of_mem_drop hKept)

theorem isBlank_display (x : Binary64) : ∀ c ∈ x.display.toList, isBlank c = false := by
  cases x with
  | nan => exact isBlank_eq_false_of_any (by decide)
  | infinite negative => cases negative <;> exact isBlank_eq_false_of_any (by decide)
  | finite negative mantissa exponent =>
    have hDigits : ∀ c ∈ if mantissa = 0 then ['0'] else
        positional (shortest mantissa exponent).1 (shortest mantissa exponent).2,
        isBlank c = false := by
      split
      · exact isBlank_eq_false_of_any (by decide)
      · exact isBlank_positional _ _
    rw [display, String.toList_ofList]
    cases negative with
    | false => exact hDigits
    | true => exact List.forall_mem_cons.mpr ⟨rfl, hDigits⟩

end Binary64

namespace Environment

/-- The text of the value that is read from a variable. -/
def shown (value : String) : String :=
  match scalarOf value with
  | .nil => ""
  | .bool b => toString b
  | .int n => toString n
  | .float x => x.display
  | .text text => text

theorem scalarOf_cases (value : String) :
    (∃ b, scalarOf value = .bool b) ∨ (∃ n, scalarOf value = .int n) ∨
      (∃ x, scalarOf value = .float x) ∨ scalarOf value = .text value := by
  unfold scalarOf
  dsimp only
  split
  · exact .inl ⟨true, rfl⟩
  · split
    · exact .inl ⟨false, rfl⟩
    · split
      · next n _ => exact .inr (.inl ⟨n, rfl⟩)
      · split
        · next x _ => exact .inr (.inr (.inl ⟨x, rfl⟩))
        · exact .inr (.inr (.inr rfl))

theorem toText_scalarOf (origin : Origin) (value : String) :
    toText (.scalar origin (scalarOf value)) = .ok (shown value) := by
  unfold shown
  rcases scalarOf_cases value with ⟨b, h⟩ | ⟨n, h⟩ | ⟨x, h⟩ | h <;> rw [h] <;> rfl

theorem trimmed_shown {value : String} (h : Loader.trimmed value = value) :
    Loader.trimmed (shown value) = shown value := by
  have hPlain : ∀ text : String, (∀ c ∈ text.toList, isBlank c = false) →
      Loader.trimmed text = text := by
    intro text hText
    rw [Loader.trimmed, trim_eq_self hText, String.ofList_toList]
  unfold shown
  rcases scalarOf_cases value with ⟨b, hValue⟩ | ⟨n, hValue⟩ | ⟨x, hValue⟩ | hValue <;> rw [hValue]
  · cases b <;> exact hPlain _ (isBlank_eq_false_of_any (by decide))
  · exact hPlain _ (isBlank_toString_int n)
  · exact hPlain _ x.isBlank_display
  · exact h

end Environment

/-- A field that holds text: its section, its name and where it is found. -/
structure TextField where
  section_ : String
  name : String
  get : Config → Option String

theorem Setting.toOption_toText {value : Setting} {text : String} (h : toText value = .ok text) :
    toOption toText value = .ok (some text) := by
  unfold toOption
  split
  · cases h
  · rw [h]
    rfl

namespace TextField

def all : List TextField :=
  [⟨"limits", "pattern", fun config => some config.limits.pattern⟩,
    ⟨"limits", "from", fun config => some config.limits.old⟩,
    ⟨"limits", "to", fun config => some config.limits.new⟩,
    ⟨"lib", "pattern", fun config => some config.lib.pattern⟩,
    ⟨"global", "log_file", fun config => config.global.logFile⟩]

section Names

variable (field : TextField)

def variable_ : String :=
  Loader.variableStart ++ "_" ++ field.section_.toUpper ++ "__" ++ field.name.toUpper

def option (text : String) : String :=
  field.section_ ++ "/" ++ field.name ++ "=" ++ text

end Names

theorem path_of_variable : ∀ field ∈ all,
    (Environment.settingName? Loader.variableStart field.variable_).map KeyPath.ofName =
      some (fieldPath field.section_ field.name) := by
  decide +kernel

theorem isNamed_of_mem_all : ∀ field ∈ all, Loader.IsNamed (field.section_, field.name) := by
  decide +kernel

variable {field : TextField} (hField : field ∈ all)

include hField

theorem placed_variable (vars : Variables) (text : String) :
    Environment.placed Loader.variableStart ((field.variable_, text) :: vars) =
      (fieldPath field.section_ field.name,
        .scalar Environment.originName (Environment.scalarOf text)) ::
        Environment.placed Loader.variableStart vars := by
  obtain ⟨key, hKey, hPath⟩ := Option.map_eq_some_iff.mp (path_of_variable field hField)
  have hSetting : (Environment.settingName? Loader.variableStart field.variable_).map
      (fun key => (KeyPath.ofName key,
        Setting.scalar Environment.originName (Environment.scalarOf text))) =
      some (fieldPath field.section_ field.name,
        .scalar Environment.originName (Environment.scalarOf text)) := by
    rw [hKey, Option.map_some, hPath]
  exact List.filterMap_cons_some hSetting

theorem placed?_option {text : String} (hText : Loader.trimmed text = text) :
    Loader.placed? (field.option text) =
      some (fieldPath field.section_ field.name, .ofText text) := by
  have hPlaced := Loader.placed?_of_isNamed (isNamed_of_mem_all field hField) text
  rwa [hText] at hPlaced

/-- Two settings of the field that have the same text make no difference to what is read. -/
theorem ofSetting_eq_ok_iff {root root' : Setting} (hRoot : Keyed root) (hRoot' : Keyed root')
    (hAgree : AgreeBut field.section_ field.name root root') {value value' : Setting}
    (hValue : field? field.section_ field.name root = some value)
    (hValue' : field? field.section_ field.name root' = some value') {text : String}
    (hText : toText value = .ok text) (hText' : toText value' = .ok text) (config : Config) :
    Config.ofSetting root = .ok config ↔ Config.ofSetting root' = .ok config := by
  have hLimits : ∀ name ∈ ["pattern", "from", "to"],
      AssignedAlike Config.limitsFields name value value' := by
    simp [AssignedAlike, Config.limitsFields, FieldReader.name_of, FieldReader.assign_of_eq_ok_iff,
      hText, hText']
  have hLib : AssignedAlike Config.libFields "pattern" value value' := by
    simp [AssignedAlike, Config.libFields, FieldReader.name_of, FieldReader.assign_of_eq_ok_iff,
      hText, hText']
  have hGlobal : AssignedAlike Config.globalFields "log_file" value value' := by
    simp [AssignedAlike, Config.globalFields, FieldReader.name_of, FieldReader.assign_of_eq_ok_iff,
      toOption_toText hText, toOption_toText hText']
  simp only [all, List.mem_cons, List.not_mem_nil, or_false] at hField
  rcases hField with rfl | rfl | rfl | rfl | rfl
  · exact Config.ofSetting_eq_ok_iff_of_agreeBut Config.describes_limitsFields
      Config.readsSection_limits hRoot hRoot' hAgree hValue hValue' (hLimits _ (by simp)) config
  · exact Config.ofSetting_eq_ok_iff_of_agreeBut Config.describes_limitsFields
      Config.readsSection_limits hRoot hRoot' hAgree hValue hValue' (hLimits _ (by simp)) config
  · exact Config.ofSetting_eq_ok_iff_of_agreeBut Config.describes_limitsFields
      Config.readsSection_limits hRoot hRoot' hAgree hValue hValue' (hLimits _ (by simp)) config
  · exact Config.ofSetting_eq_ok_iff_of_agreeBut Config.describes_libFields
      Config.readsSection_lib hRoot hRoot' hAgree hValue hValue' hLib config
  · exact Config.ofSetting_eq_ok_iff_of_agreeBut Config.describes_globalFields
      Config.readsSection_global hRoot hRoot' hAgree hValue hValue' hGlobal config

theorem get_eq_some {root value : Setting} {config : Config} (hRoot : Keyed root)
    (hConfig : Config.ofSetting root = .ok config)
    (hValue : field? field.section_ field.name root = some value) {text : String}
    (hText : toText value = .ok text) : field.get config = some text := by
  simp only [all, List.mem_cons, List.not_mem_nil, or_false] at hField
  rcases hField with rfl | rfl | rfl | rfl | rfl
  · have hRead : toText value = .ok config.limits.pattern :=
      Config.convert_limits_eq_ok hRoot hConfig ⟨"pattern", _, toText, (·.pattern)⟩
        (by simp [Config.limitsViews]) hValue
    rw [hText] at hRead
    exact congrArg some (Except.ok.inj hRead).symm
  · have hRead : toText value = .ok config.limits.old :=
      Config.convert_limits_eq_ok hRoot hConfig ⟨"from", _, toText, (·.old)⟩
        (by simp [Config.limitsViews]) hValue
    rw [hText] at hRead
    exact congrArg some (Except.ok.inj hRead).symm
  · have hRead : toText value = .ok config.limits.new :=
      Config.convert_limits_eq_ok hRoot hConfig ⟨"to", _, toText, (·.new)⟩
        (by simp [Config.limitsViews]) hValue
    rw [hText] at hRead
    exact congrArg some (Except.ok.inj hRead).symm
  · have hRead : toText value = .ok config.lib.pattern :=
      Config.convert_lib_eq_ok hRoot hConfig ⟨"pattern", _, toText, (·.pattern)⟩
        (by simp [Config.libViews]) hValue
    rw [hText] at hRead
    exact congrArg some (Except.ok.inj hRead).symm
  · have hRead : toOption toText value = .ok config.global.logFile :=
      Config.convert_global_eq_ok hRoot hConfig ⟨"log_file", _, toOption toText, (·.logFile)⟩
        (by simp [Config.globalViews]) hValue
    rw [toOption_toText hText] at hRead
    exact (Except.ok.inj hRead).symm

end TextField

def GlobalOptions.withOptions (g : GlobalOptions) (options : List String) : GlobalOptions :=
  { g with options := options }

theorem GlobalOptions.overrides_withOptions (g : GlobalOptions) (options : List String) :
    (g.withOptions options).overrides = options ++ g.flags :=
  (g.withOptions options).overrides_eq

/-- What the other layers give: the files, the variables before and after the one that sets a field,
and the options before and after the one that does. Variables stand in the order in which they are
applied, which need not be the order of the environment. -/
structure Surroundings where
  disk : Disk
  before : Variables
  after : Variables
  global : GlobalOptions
  front : List String
  back : List String

namespace Surroundings

open Loader

section Runs

variable (s : Surroundings) (field : TextField) (text : String)

def variablesWith : Variables :=
  s.before ++ (field.variable_, text) :: s.after

def optionsWith : List String :=
  s.front ++ field.option text :: s.back

def loadWithVariable : Except LoadFault Config :=
  loadConfig s.disk (s.variablesWith field text) (s.global.withOptions (s.front ++ s.back))

def loadWithOption : Except LoadFault Config :=
  loadConfig s.disk (s.before ++ s.after) (s.global.withOptions (s.optionsWith field text))

/-- What is set after the field's variable, up to the field's option, does not touch the field; what
is set after the option does not either, or sets the field again. The variables that are applied
before the field's own may set it too, as that overrides them. -/
structure Respects : Prop where
  after : ∀ placed ∈ Environment.placed variableStart s.after,
    spares field.section_ field.name placed.1 = true
  front : ∀ placed ∈ s.front.filterMap placed?, spares field.section_ field.name placed.1 = true
  back : ∀ placed ∈ s.back.filterMap placed?, SetsOrSpares field.section_ field.name placed

def later : List (KeyPath × Setting) :=
  (s.back ++ s.global.flags).filterMap placed?

def variableRoot : Setting :=
  rootOf s.disk (s.variablesWith field text) (s.global.withOptions (s.front ++ s.back))

def optionRoot : Setting :=
  rootOf s.disk (s.before ++ s.after) (s.global.withOptions (s.optionsWith field text))

theorem placed_withOptions :
    (s.global.withOptions (s.front ++ s.back)).overrides.filterMap placed? =
      s.front.filterMap placed? ++ s.later := by
  rw [s.global.overrides_withOptions, List.append_assoc, List.filterMap_append, later]

end Runs

variable {s : Surroundings} {field : TextField}

theorem Respects.setsOrSpares (h : s.Respects field) :
    (∀ placed ∈ s.front.filterMap placed?, SetsOrSpares field.section_ field.name placed) ∧
      ∀ placed ∈ s.later, SetsOrSpares field.section_ field.name placed := by
  refine ⟨fun placed hPlaced => .inr (h.front placed hPlaced), ?_⟩
  rw [later, List.filterMap_append]
  exact List.forall_mem_append.mpr ⟨h.back, setsOrSpares_of_mem_flags _ _⟩

theorem Respects.setsOrSpares_withOptions (h : s.Respects field) : ∀ placed ∈
    (s.global.withOptions (s.front ++ s.back)).overrides.filterMap placed?,
    SetsOrSpares field.section_ field.name placed := by
  rw [placed_withOptions]
  exact List.forall_mem_append.mpr h.setsOrSpares

section Field

variable (hField : field ∈ TextField.all) {text : String}

include hField

theorem placed_optionsWith (hText : trimmed text = text) :
    (s.global.withOptions (s.optionsWith field text)).overrides.filterMap placed? =
      s.front.filterMap placed? ++
        (fieldPath field.section_ field.name, .ofText text) :: s.later := by
  rw [s.global.overrides_withOptions, optionsWith, List.append_assoc, List.filterMap_append,
    List.cons_append, List.filterMap_cons_some (TextField.placed?_option hField hText), later]

theorem wellFormed_iff (hText : trimmed text = text) :
    (∀ raw ∈ (s.global.withOptions (s.front ++ s.back)).overrides,
        (placed? raw).isSome = true) ↔
      ∀ raw ∈ (s.global.withOptions (s.optionsWith field text)).overrides,
        (placed? raw).isSome = true := by
  simp only [GlobalOptions.overrides_withOptions, optionsWith, List.forall_mem_append,
    List.forall_mem_cons, TextField.placed?_option hField hText, Option.isSome_some, true_and]

variable (hRespects : s.Respects field)

include hRespects

/-- Below the overrides the variable sets the field and nothing else. -/
theorem belowOf_variablesWith (text : String) (options options' : List String) :
    AgreeBut field.section_ field.name
        (belowOf s.disk (s.variablesWith field text) (s.global.withOptions options))
        (belowOf s.disk (s.before ++ s.after) (s.global.withOptions options')) ∧
      field? field.section_ field.name
        (belowOf s.disk (s.variablesWith field text) (s.global.withOptions options)) =
        some (.scalar Environment.originName (Environment.scalarOf text)) := by
  let lower := (sourcesOf s.global).flatMap (Source.placed s.disk) ++
    Environment.placed variableStart s.before
  have hInsert := foldl_place_insert (.scalar Environment.originName (Environment.scalarOf text))
    rfl lower hRespects.after emptyTable
  have hWith : belowOf s.disk (s.variablesWith field text) (s.global.withOptions options) =
      (lower ++ (fieldPath field.section_ field.name,
        .scalar Environment.originName (Environment.scalarOf text)) ::
          Environment.placed variableStart s.after).foldl place emptyTable := by
    rw [List.append_assoc, ← TextField.placed_variable hField, Environment.placed,
      Environment.placed, ← List.filterMap_append]
    rfl
  have hWithout : belowOf s.disk (s.before ++ s.after) (s.global.withOptions options') =
      (lower ++ Environment.placed variableStart s.after).foldl place emptyTable := by
    rw [List.append_assoc, Environment.placed, Environment.placed, ← List.filterMap_append]
    rfl
  rw [hWith, hWithout]
  exact hInsert

theorem setsOrSpares_optionsWith (hText : trimmed text = text) : ∀ placed ∈
    (s.global.withOptions (s.optionsWith field text)).overrides.filterMap placed?,
    SetsOrSpares field.section_ field.name placed := by
  obtain ⟨hFront, hLater⟩ := hRespects.setsOrSpares
  rw [placed_optionsWith hField hText]
  exact List.forall_mem_append.mpr ⟨hFront, List.forall_mem_cons.mpr ⟨.inl ⟨rfl, rfl⟩, hLater⟩⟩

/-- In both runs the field is what a later override makes it, and else what it is set to. -/
theorem field?_variableRoot (text : String) :
    field? field.section_ field.name (s.variableRoot field text) =
      (last? (fieldPath field.section_ field.name) s.later).or
        (some (.scalar Environment.originName (Environment.scalarOf text))) := by
  rw [variableRoot, field?_rootOf _ _ _ hRespects.setsOrSpares_withOptions,
    (belowOf_variablesWith hField hRespects _ _ []).2, placed_withOptions, last?_append,
    last?_fieldPath_eq_none hRespects.front, Option.or_none]

theorem field?_optionRoot (hText : trimmed text = text) :
    field? field.section_ field.name (s.optionRoot field text) =
      (last? (fieldPath field.section_ field.name) s.later).or (some (.ofText text)) := by
  rw [optionRoot, field?_rootOf _ _ _ (setsOrSpares_optionsWith hField hRespects hText),
    placed_optionsWith hField hText, last?_append, last?_cons, last?_singleton, if_pos rfl,
    last?_fieldPath_eq_none hRespects.front, Option.or_none, Option.or_assoc, Option.some_or]

theorem agreeBut_roots (text : String) {shown : String} (hShown : trimmed shown = shown) :
    AgreeBut field.section_ field.name (s.variableRoot field text) (s.optionRoot field shown) := by
  obtain ⟨hBelow, _⟩ := belowOf_variablesWith hField hRespects text (s.front ++ s.back)
    (s.optionsWith field shown)
  refine agreeBut_foldl_put hBelow hRespects.setsOrSpares_withOptions
    (setsOrSpares_optionsWith hField hRespects hShown) ?_
  rw [placed_withOptions, placed_optionsWith hField hShown, List.filter_append, List.filter_append,
    List.filter_cons_of_neg (by simp)]

theorem ofSetting_roots_iff (hText : trimmed text = text) (config : Config) :
    Config.ofSetting (s.variableRoot field text) = .ok config ↔
      Config.ofSetting (s.optionRoot field (Environment.shown text)) = .ok config := by
  have hShown := Environment.trimmed_shown hText
  have hRoot : Keyed (s.variableRoot field text) := keyed_rootOf _ _ _
  have hRoot' : Keyed (s.optionRoot field (Environment.shown text)) := keyed_rootOf _ _ _
  have hAgree := agreeBut_roots hField hRespects text hShown
  have hVariable := field?_variableRoot hField hRespects text
  have hOption := field?_optionRoot hField hRespects hShown
  cases hLast : last? (fieldPath field.section_ field.name) s.later with
  | none =>
    -- the value of the variable and the text of the option are read alike
    rw [hLast, Option.none_or] at hVariable hOption
    exact TextField.ofSetting_eq_ok_iff hField hRoot hRoot' hAgree hVariable hOption
      (Environment.toText_scalarOf Environment.originName text) rfl config
  | some value =>
    -- a later override has set the field to the same text in both runs
    rw [hLast, Option.some_or] at hVariable hOption
    obtain ⟨raw, _, hRaw⟩ := List.mem_filterMap.mp (mem_of_last?_eq_some _ hLast)
    obtain ⟨_, later, hLater⟩ := of_placed?_eq_some hRaw
    obtain rfl : value = .ofText later := hLater
    exact TextField.ofSetting_eq_ok_iff hField hRoot hRoot' hAgree hVariable hOption rfl rfl config

end Field

/-- A field of text is set alike by its variable and by an option with the value as that is shown:
both runs fail, or both load the same configuration. The field is then the text that is shown,
unless a later override sets it. -/
theorem loadWithVariable_eq_ok_iff (hField : field ∈ TextField.all) (hRespects : s.Respects field)
    {text : String} (hText : trimmed text = text) :
    (∀ config, s.loadWithVariable field text = .ok config ↔
      s.loadWithOption field (Environment.shown text) = .ok config) ∧
    (fieldPath field.section_ field.name ∉ s.later.map (·.1) →
      ∀ config, s.loadWithVariable field text = .ok config →
        field.get config = some (Environment.shown text)) := by
  constructor
  · intro config
    have hSame := ofSetting_roots_iff hField hRespects hText config
    rw [variableRoot, optionRoot] at hSame
    rw [loadWithVariable, loadWithOption, loadConfig_eq_ok_iff, loadConfig_eq_ok_iff,
      wellFormed_iff hField (Environment.trimmed_shown hText), hSame]
    rfl
  · intro hLast config hLoad
    obtain ⟨_, _, hConfig, _⟩ := (loadConfig_eq_ok_iff _ _ _ config).mp hLoad
    have hVariable := field?_variableRoot hField hRespects text
    rw [last?_eq_none_of_not_mem _ hLast, Option.none_or] at hVariable
    exact TextField.get_eq_some hField (keyed_rootOf _ _ _) hConfig hVariable
      (Environment.toText_scalarOf Environment.originName text)

def bare : Surroundings :=
  ⟨.empty, [], [("HOME", "/")], GlobalOptions.empty, [], ["lib/pattern=*.h"]⟩

def limitsPattern : TextField :=
  ⟨"limits", "pattern", fun config => some config.limits.pattern⟩

def patternConfig (pattern : String) : Config :=
  { Config.default with
    limits := { Config.default.limits with pattern := pattern }
    lib := { Config.default.lib with pattern := "*.h" } }

theorem loadWithVariable_eq_ok_iff_bare :
    bare.loadWithVariable limitsPattern "*.c" = .ok (patternConfig "*.c") ∧
      bare.loadWithOption limitsPattern "*.c" = .ok (patternConfig "*.c") ∧
      limitsPattern.get (patternConfig "*.c") = some "*.c" := by
  have hRespects : bare.Respects limitsPattern :=
    ⟨by decide +kernel, by decide +kernel, by decide +kernel⟩
  have hText : trimmed "*.c" = "*.c" := by decide +kernel
  have hShown : Environment.shown "*.c" = "*.c" := by decide +kernel
  have hLast : fieldPath "limits" "pattern" ∉ bare.later.map (·.1) := by decide +kernel
  obtain ⟨hSame, hExact⟩ := loadWithVariable_eq_ok_iff List.mem_cons_self hRespects hText
  rw [hShown] at hSame hExact
  have hLoad : bare.loadWithVariable limitsPattern "*.c" = .ok (patternConfig "*.c") := by
    decide +kernel
  exact ⟨hLoad, (hSame _).mp hLoad, hExact hLast _ hLoad⟩

/-- A variable whose value reads as a number gives the number anew, an option its text. -/
theorem loadWithVariable_ne_loadWithOption :
    bare.loadWithVariable limitsPattern "007" = .ok (patternConfig "7") ∧
      bare.loadWithOption limitsPattern "007" = .ok (patternConfig "007") := by
  decide +kernel

end Surroundings

end HeaderRename
