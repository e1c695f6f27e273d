import HeaderRename.Proofs.Settings.Fields

/-!
# The places that values were read from

A configuration can be told where a value was read only by a fault: what is converted without one
does not depend on it.
-/
set_option autoImplicit false

namespace HeaderRename

namespace Setting

mutual

/-- The value without the places that it and the values in it were read from. -/
def bare : Setting → Setting
  | .scalar _ value => .scalar none value
  | .list _ items => .list none (bareItems items)
  | .table _ entries => .table none (bareEntries entries)

def bareItems : List Setting → List Setting
  | [] => []
  | item :: items => bare item :: bareItems items

def bareEntries : List (String × Setting) → List (String × Setting)
  | [] => []
  | (key, value) :: rest => (key, bare value) :: bareEntries rest

end

theorem bareEntries_eq_map (entries : List (String × Setting)) :
    bareEntries entries = entries.map fun entry => (entry.1, entry.2.bare) := by
  induction entries with
  | nil => rfl
  | cons entry entries ih => rw [bareEntries, ih, List.map_cons]

theorem isTable_bare (value : Setting) : value.bare.isTable = value.isTable := by
  cases value <;> rfl

section Results

variable {ε ε' α β : Type}

theorem toOption_mapError (f : ε → ε') (x : Except ε α) :
    (x.mapError f).toOption = x.toOption := by
  cases x <;> rfl

theorem toOption_map (f : α → β) (x : Except ε α) : (x.map f).toOption = x.toOption.map f := by
  cases x <;> rfl

theorem toOption_bind (x : Except ε α) (f : α → Except ε β) :
    (x >>= f).toOption = x.toOption.bind fun a => (f a).toOption := by
  cases x <;> rfl

end Results

section Conversions

variable {α σ : Type} {convert : Setting → Result α}

def IgnoresOrigin (convert : Setting → Result α) : Prop :=
  ∀ value, (convert value.bare).toOption = (convert value).toOption

theorem ignoresOrigin_toBool : IgnoresOrigin toBool := by
  rintro (⟨origin, _ | b | n | x | word⟩ | _ | _)
  case text =>
    rw [bare, toBool, toBool]
    split
    · rfl
    · split <;> rfl
  all_goals rfl

theorem ignoresOrigin_toNat : IgnoresOrigin toNat := by
  rintro (⟨origin, _ | b | n | x | word⟩ | _ | _)
  case int =>
    rw [bare, toNat, toNat]
    split <;> rfl
  case text =>
    rw [bare, toNat, toNat]
    split
    · rfl
    · split
      · rfl
      · split <;> rfl
  all_goals rfl

theorem ignoresOrigin_toByte : IgnoresOrigin toByte := by
  intro value
  rw [toByte, toByte, toOption_bind, toOption_bind, ignoresOrigin_toNat]

theorem ignoresOrigin_toText : IgnoresOrigin toText := by
  rintro (⟨origin, _ | b | n | x | word⟩ | _ | _) <;> rfl

theorem IgnoresOrigin.toOption (h : IgnoresOrigin convert) :
    IgnoresOrigin (Setting.toOption convert) := by
  have hSome : ∀ value : Setting, ((convert value.bare).map some).toOption =
      ((convert value).map some).toOption := by
    intro value
    rw [toOption_map, toOption_map, h]
  rintro (⟨origin, scalar⟩ | ⟨origin, items⟩ | ⟨origin, entries⟩)
  · cases scalar with
    | nil => rfl
    | bool | int | float | text => exact hSome (.scalar origin _)
  · exact hSome (.list origin items)
  · exact hSome (.table origin entries)

theorem IgnoresOrigin.convertItems (h : IgnoresOrigin convert) (position : Nat)
    (items : List Setting) : (convertItems convert position (bareItems items)).toOption =
      (convertItems convert position items).toOption := by
  induction items generalizing position with
  | nil => rfl
  | cons item items ih =>
    simp only [bareItems, Setting.convertItems, toOption_bind, toOption_mapError, h item, ih]

theorem IgnoresOrigin.toList (h : IgnoresOrigin convert) : IgnoresOrigin (toList convert) := by
  rintro (⟨origin, value⟩ | ⟨origin, items⟩ | ⟨origin, entries⟩)
  · rfl
  · exact h.convertItems 0 items
  · rfl

theorem ignoresOrigin_toVariant (typeName : String) (variants : List (String × α)) :
    IgnoresOrigin (toVariant typeName variants) := by
  rintro (⟨origin, _ | b | n | x | word⟩ | _ | ⟨origin, _ | ⟨entry, _ | _⟩⟩)
  case scalar.text =>
    rw [bare, toVariant, toVariant]
  all_goals rfl

def FieldReader.IgnoresOrigin (reader : FieldReader σ) : Prop :=
  ∀ state value, (reader.assign state value.bare).toOption = (reader.assign state value).toOption

theorem IgnoresOrigin.reader (h : IgnoresOrigin convert) (name : String) (update : σ → α → σ) :
    (FieldReader.of name convert update).IgnoresOrigin := by
  intro state value
  rw [FieldReader.of, toOption_map, toOption_map, h]

variable {readers : List (FieldReader σ)}
  (hReaders : ∀ reader ∈ readers, reader.IgnoresOrigin)

include hReaders

theorem toOption_readEntries_bareEntries (state : σ) (entries : List (String × Setting)) :
    (readEntries readers state (bareEntries entries)).toOption =
      (readEntries readers state entries).toOption := by
  induction entries generalizing state with
  | nil => rfl
  | cons entry entries ih =>
    rw [bareEntries, readEntries, readEntries]
    split
    · rfl
    · next reader hReader =>
      have hOwn := hReaders reader (List.mem_of_find?_eq_some hReader)
      simp only [toOption_bind, toOption_mapError, hOwn state entry.2, ih]

theorem toOption_readItems_bareItems (state : σ) (position : Nat) (items : List Setting) :
    (readItems state position readers (bareItems items)).toOption =
      (readItems state position readers items).toOption := by
  induction items generalizing state position readers with
  | nil => cases readers <;> rfl
  | cons item items ih =>
    cases readers with
    | nil => rfl
    | cons reader readers =>
      obtain ⟨hOwn, hRest⟩ := List.forall_mem_cons.mp hReaders
      simp only [bareItems, readItems, toOption_bind, toOption_mapError, hOwn state item, ih hRest]

theorem ignoresOrigin_readStruct (name : String) (start : σ) :
    IgnoresOrigin (readStruct name readers start) := by
  rintro (⟨origin, value⟩ | ⟨origin, items⟩ | ⟨origin, entries⟩)
  · rfl
  · exact toOption_readItems_bareItems hReaders start 0 items
  · exact toOption_readEntries_bareEntries hReaders start entries

end Conversions

end Setting

namespace Config

open Setting

theorem ignoresOrigin_toLevel : IgnoresOrigin toLevel := by
  intro value
  rw [toLevel, toLevel, toOption_bind, toOption_bind, ignoresOrigin_toByte]

theorem ignoresOrigin_toRenameEntry : IgnoresOrigin toRenameEntry := by
  have hReaders : ∀ reader ∈ renameFields, reader.IgnoresOrigin := by
    simp [renameFields, IgnoresOrigin.reader, ignoresOrigin_toText, ignoresOrigin_toBool]
  have hMissing : ∀ (value : Setting) (field : String) (count : Nat),
      (missingName (α := RenameEntry) value field count).toOption = none := by
    rintro (_ | _ | _) field count <;> rfl
  intro value
  rw [toRenameEntry, toRenameEntry, toOption_bind, toOption_bind,
    ignoresOrigin_readStruct hReaders]
  congr 1
  funext draft
  split <;> simp only [hMissing]

/-- What is read as a configuration is read as the same one wherever it stood. -/
theorem ignoresOrigin_ofSetting : IgnoresOrigin ofSetting := by
  refine ignoresOrigin_readStruct (fun reader hReader => ?_) "Config" default
  simp only [sections, List.mem_cons, List.not_mem_nil, or_false] at hReader
  rcases hReader with rfl | rfl | rfl | rfl | rfl
  all_goals
    refine IgnoresOrigin.reader (ignoresOrigin_readStruct ?_ _ _) _ _
    simp [globalFields, discoveryFields, encodingFields, limitsFields, libFields,
      IgnoresOrigin.reader, IgnoresOrigin.toOption, IgnoresOrigin.toList, ignoresOrigin_toText,
      ignoresOrigin_toBool, ignoresOrigin_toLevel, ignoresOrigin_toVariant,
      ignoresOrigin_toRenameEntry]

end Config

end HeaderRename
