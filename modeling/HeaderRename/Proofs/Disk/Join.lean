import HeaderRename.Disk.Resolve

/-!
# Paths below a directory

The path of an entry is the path of its directory with the name joined to it. It leads where the
directory's path leads and then to the entry, whatever links are on the way to the directory; a
slash at the end of the directory's path makes no difference.
-/
set_option autoImplicit false

namespace HeaderRename

namespace Path

theorem exists_chars_of_isName {name : String} (h : isName name = true) :
    '/' ∉ name.toList ∧ name.toList ≠ [] ∧ name ≠ "." ∧ name ≠ ".." := by
  simp only [isName, Bool.and_eq_true, bne_iff_ne, ne_eq, Bool.not_eq_true',
    List.contains_eq_mem, decide_eq_false_iff_not] at h
  obtain ⟨⟨⟨hEmpty, hDot⟩, hDots⟩, hSlash⟩ := h
  exact ⟨hSlash, fun hNil => hEmpty (String.toList_eq_nil_iff.mp hNil), hDot, hDots⟩

theorem steps_eq_names_append (path : String) :
    ∃ dots : List String, (∀ step ∈ dots, step = ".") ∧ steps path = names path ++ dots := by
  by_cases hSlash :
      ((List.splitOn '/' path.toList).getLast? == some [] && !(names path).isEmpty) = true
  · exact ⟨["."], by simp, if_pos hSlash⟩
  · exact ⟨[], by simp, (if_neg hSlash).trans (List.append_nil _).symm⟩

theorem exists_splitOn_join (directory name : String) (hName : '/' ∉ name.toList) :
    ∃ pieces, List.splitOn '/' (join directory name).toList = pieces ++ [name.toList] ∧
      (pieces.filter (!·.isEmpty)).map String.ofList = names directory := by
  unfold join
  split
  · next hEnd =>
    rw [Bool.or_eq_true, String.isEmpty_iff, beq_iff_eq] at hEnd
    rcases hEnd with rfl | hSlash
    · exact ⟨[], List.splitOn_eq_singleton (by simpa using hName), by decide⟩
    · obtain ⟨front, hFront⟩ := List.getLast?_eq_some_iff.mp hSlash
      refine ⟨List.splitOn '/' front, ?_, ?_⟩
      · rw [String.toList_append, hFront, List.append_assoc, List.singleton_append,
          List.splitOn_append_cons_self, List.splitOn_eq_singleton hName]
      · rw [names, hFront, List.splitOn_append_cons_self]
        simp
  · refine ⟨List.splitOn '/' directory.toList, ?_, rfl⟩
    rw [String.toList_append, String.toList_append, List.append_assoc,
      show "/".toList = ['/'] from rfl, List.singleton_append, List.splitOn_append_cons_self,
      List.splitOn_eq_singleton hName]

theorem steps_join (directory name : String) (hName : isName name = true) :
    steps (join directory name) = names directory ++ [name] := by
  obtain ⟨hSlash, hNil, _, _⟩ := exists_chars_of_isName hName
  obtain ⟨pieces, hPieces, hNames⟩ := exists_splitOn_join directory name hSlash
  have hLast : (List.splitOn '/' (join directory name).toList).getLast? ≠ some [] := by
    rw [hPieces, List.getLast?_concat]
    exact fun h => hNil (Option.some.inj h)
  rw [steps, if_neg (by simp [hLast]), names, hPieces, List.filter_append, List.map_append, hNames]
  simp [hNil]

theorem head?_toList_join (directory name : String) (hDirectory : directory ≠ "") :
    (join directory name).toList.head? = directory.toList.head? := by
  have hHead (rest : List Char) : (directory.toList ++ rest).head? = directory.toList.head? := by
    cases hChars : directory.toList with
    | nil => exact absurd (String.toList_eq_nil_iff.mp hChars) hDirectory
    | cons c chars => rfl
  unfold join
  split
  · rw [String.toList_append, hHead]
  · rw [String.toList_append, String.toList_append, List.append_assoc,
      hHead]

end Path

namespace Disk

/-- What comes of further steps, once it is told how far the first ones lead. -/
def Advance.andThen (further : Place → Advance) (rest : List String) : Advance → Advance
  | stopped (.ok (.directory place)) => further place
  | stopped (.ok (.file ..)) => stopped (.error .notADirectory)
  | stopped (.ok _) => stopped (.error .notFound)
  | stopped (.error fault) => stopped (.error fault)
  | link parent target rest' => link parent target (rest' ++ rest)

variable (disk : Disk)

theorem advance_append (followLast : Bool) (place : Place) (steps : List String)
    {rest : List String} (hRest : rest ≠ []) :
    disk.advance followLast place (steps ++ rest) =
      (disk.advance true place steps).andThen (disk.advance followLast · rest) rest := by
  have hEmpty (steps : List String) : (steps ++ rest).isEmpty = false := by simp [hRest]
  induction steps generalizing place with
  | nil => rfl
  | cons step steps ih =>
    -- with further steps behind it, no step is the last one
    rw [List.cons_append, advance, advance]
    split
    · exact ih place
    · split
      · split
        · rfl
        · exact ih place.dropLast
      · dsimp only
        cases disk.get? (place ++ [step]) with
        | none => cases steps <;> simp [Advance.andThen, hRest]
        | some entry =>
          cases entry with
          | directory => exact ih (place ++ [step])
          | file bytes => cases steps <;> simp [Advance.andThen, hRest]
          | link target => simp [Advance.andThen, hRest]

theorem advance_dots (followLast : Bool) (place : Place) {dots : List String}
    (hDots : ∀ step ∈ dots, step = ".") (rest : List String) :
    disk.advance followLast place (dots ++ rest) = disk.advance followLast place rest := by
  induction dots with
  | nil => rfl
  | cons step dots ih =>
    rw [List.forall_mem_cons] at hDots
    rw [List.cons_append, advance, if_pos hDots.1, ih hDots.2]

/-- Steps that stay where they are make no difference in front of others. -/
theorem resolveFrom_dots (followLast : Bool) (links : Nat) (place : Place) (steps : List String)
    {dots rest : List String} (hDots : ∀ step ∈ dots, step = ".") (hRest : rest ≠ []) :
    disk.resolveFrom followLast links place (steps ++ (dots ++ rest)) =
      disk.resolveFrom followLast links place (steps ++ rest) := by
  have hBoth : dots ++ rest ≠ [] := by simp [hRest]
  induction links generalizing place steps with
  | zero =>
    rw [resolveFrom, resolveFrom, advance_append disk _ _ _ hBoth, advance_append disk _ _ _ hRest]
    simp only [advance_dots disk followLast _ hDots]
    rcases disk.advance true place steps with (fault | found) | _
    · rfl
    · cases found <;> rfl
    · rfl
  | succ links ih =>
    rw [resolveFrom, resolveFrom, advance_append disk _ _ _ hBoth, advance_append disk _ _ _ hRest]
    simp only [advance_dots disk followLast _ hDots]
    rcases disk.advance true place steps with (fault | found) | ⟨parent, target, rest'⟩
    · rfl
    · cases found <;> rfl
    · simp only [Advance.andThen]
      split
      · rfl
      · have hRest' := ih parent (Path.steps target ++ rest')
        rwa [List.append_assoc, List.append_assoc] at hRest'

/-- Steps behind some that lead to a directory are taken from there, with the links that are left. -/
theorem exists_resolveFrom_append (followLast : Bool) (links : Nat) (start : Place)
    (steps : List String) {rest : List String} (hRest : rest ≠ []) {place : Place}
    (h : disk.resolveFrom true links start steps = .ok (.directory place)) :
    ∃ left, disk.resolveFrom followLast links start (steps ++ rest) =
      disk.resolveFrom followLast left place rest := by
  -- each link that is followed leaves the steps behind it as they are
  induction links generalizing start steps with
  | zero =>
    rw [resolveFrom] at h
    cases hAdvance : disk.advance true start steps with
    | stopped result =>
      rw [hAdvance] at h
      obtain rfl : result = .ok (.directory place) := h
      refine ⟨0, ?_⟩
      rw [resolveFrom, resolveFrom, advance_append disk _ _ _ hRest, hAdvance]
      rfl
    | link parent target rest' => rw [hAdvance] at h; cases h
  | succ links ih =>
    rw [resolveFrom] at h
    cases hAdvance : disk.advance true start steps with
    | stopped result =>
      rw [hAdvance] at h
      obtain rfl : result = .ok (.directory place) := h
      refine ⟨links + 1, ?_⟩
      rw [resolveFrom, resolveFrom, advance_append disk _ _ _ hRest, hAdvance]
      rfl
    | link parent target rest' =>
      simp only [hAdvance] at h
      split at h
      · cases h
      · next hRelative =>
        obtain ⟨left, hLeft⟩ := ih parent _ h
        refine ⟨left, ?_⟩
        rw [resolveFrom, advance_append disk _ _ _ hRest, hAdvance]
        simp only [Advance.andThen, if_neg hRelative]
        rw [← List.append_assoc, hLeft]

theorem advance_eq_or_exists_link (place : Place) (steps : List String) :
    disk.advance true place steps = disk.advance false place steps ∨
      ∃ place' target, disk.advance false place steps = .stopped (.ok (.link place' target)) := by
  induction steps generalizing place with
  | nil => exact .inl rfl
  | cons step steps ih =>
    rw [advance, advance]
    split
    · exact ih place
    · split
      · split
        · exact .inl rfl
        · exact ih place.dropLast
      · dsimp only
        cases disk.get? (place ++ [step]) with
        | none => exact .inl rfl
        | some entry =>
          cases entry with
          | file bytes => exact .inl rfl
          | directory => exact ih (place ++ [step])
          | link target =>
            cases steps with
            | nil => exact .inr ⟨_, _, rfl⟩
            | cons => exact .inl rfl

theorem resolveFrom_true_of_eq_directory (links : Nat) (start : Place) (steps : List String)
    {place : Place} (h : disk.resolveFrom false links start steps = .ok (.directory place)) :
    disk.resolveFrom true links start steps = .ok (.directory place) := by
  induction links generalizing start steps with
  | zero =>
    rw [resolveFrom] at h ⊢
    rcases disk.advance_eq_or_exists_link start steps with hSame | ⟨_, _, hLink⟩
    · rwa [hSame]
    · rw [hLink] at h
      cases h
  | succ links ih =>
    rw [resolveFrom] at h ⊢
    rcases disk.advance_eq_or_exists_link start steps with hSame | ⟨_, _, hLink⟩
    · rw [hSame]
      cases hAdvance : disk.advance false start steps with
      | stopped result => rwa [hAdvance] at h
      | link parent target rest =>
        simp only [hAdvance] at h ⊢
        split at h
        · cases h
        · next hRelative => rw [if_neg hRelative, ih parent _ h]
    · rw [hLink] at h
      cases h

theorem resolve_eq_of_presentOnly_eq_directory {result : Except FileFault Found} {place : Place}
    (h : presentOnly result = .ok (.directory place)) : result = .ok (.directory place) := by
  rcases result with fault | found
  · exact h
  · cases found <;> first | exact h | cases h

/-- A path that leads to a directory without its last link being followed leads there anyway. -/
theorem stat_eq_directory_of_lstat {path : String} {place : Place}
    (h : disk.lstat path = .ok (.directory place)) : disk.stat path = .ok (.directory place) := by
  have hResolve := resolve_eq_of_presentOnly_eq_directory h
  unfold stat resolve at *
  split at hResolve
  · cases hResolve
  · next hPath => rw [if_neg hPath, disk.resolveFrom_true_of_eq_directory _ _ _ hResolve]; rfl

section Join

variable {disk} {directory name : String} {place : Place}
  (hDirectory : disk.stat directory = .ok (.directory place)) (hName : Path.isName name = true)

include hDirectory

theorem resolveFrom_of_stat_eq_directory : directory ≠ "" ∧ Path.isAbsolute directory = false ∧
    disk.resolveFrom true linkLimit [] (Path.steps directory) = .ok (.directory place) := by
  have hResolve := resolve_eq_of_presentOnly_eq_directory hDirectory
  unfold resolve at hResolve
  split at hResolve
  · cases hResolve
  · next hPath =>
    rw [Bool.not_eq_true, Bool.or_eq_false_iff] at hPath
    refine ⟨?_, hPath.2, hResolve⟩
    rintro rfl
    cases hPath.1

include hName

theorem exists_stat_join : ∃ left, disk.stat (Path.join directory name) =
    presentOnly (disk.resolveFrom true left place [name]) := by
  obtain ⟨hEmpty, hRelative, hResolve⟩ := resolveFrom_of_stat_eq_directory hDirectory
  obtain ⟨dots, hDots, hSteps⟩ := Path.steps_eq_names_append directory
  have hSingle : [name] ≠ [] := List.cons_ne_nil _ _
  obtain ⟨left, hLeft⟩ := disk.exists_resolveFrom_append true _ [] _ hSingle hResolve
  refine ⟨left, ?_⟩
  have hHead := Path.head?_toList_join directory name hEmpty
  have hPath : ¬((Path.join directory name).isEmpty || Path.isAbsolute (Path.join directory name)) =
      true := by
    rw [Path.isAbsolute, hHead, ← Path.isAbsolute, hRelative, Bool.or_false, String.isEmpty_iff]
    intro hNil
    rw [hNil] at hHead
    exact hEmpty (String.toList_eq_nil_iff.mp (List.head?_eq_none_iff.mp hHead.symm))
  rw [stat, resolve, if_neg hPath, Path.steps_join directory name hName, ← hLeft, hSteps,
    List.append_assoc, disk.resolveFrom_dots true _ _ _ hDots hSingle]

theorem stat_join_of_file {bytes : List UInt8}
    (hEntry : disk.get? (place ++ [name]) = some (.file bytes)) :
    disk.stat (Path.join directory name) = .ok (.file (place ++ [name]) bytes) := by
  obtain ⟨left, hLeft⟩ := exists_stat_join hDirectory hName
  obtain ⟨_, _, hDot, hDots⟩ := Path.exists_chars_of_isName hName
  rw [hLeft, resolveFrom, advance, if_neg hDot, if_neg hDots]
  simp [hEntry, presentOnly]

theorem stat_join_of_directory (hEntry : disk.get? (place ++ [name]) = some .directory) :
    disk.stat (Path.join directory name) = .ok (.directory (place ++ [name])) := by
  obtain ⟨left, hLeft⟩ := exists_stat_join hDirectory hName
  obtain ⟨_, _, hDot, hDots⟩ := Path.exists_chars_of_isName hName
  rw [hLeft, resolveFrom, advance, if_neg hDot, if_neg hDots]
  simp [hEntry, presentOnly, advance]

end Join

end Disk

end HeaderRename
