import HeaderRename.Proofs.Discovery.Trails

/-!
# Paths from the working directory

A relative path leads where it leads with `./` in front. The names on the way to a directory, put
together by slashes, are its path, and what is below it by its path is so by its names.
-/
set_option autoImplicit false

namespace HeaderRename

namespace Path

theorem join_ne_empty {directory name : String} (h : directory ≠ "") :
    join directory name ≠ "" := by
  intro hJoin
  have hHead := head?_toList_join directory name h
  rw [hJoin] at hHead
  exact h (String.toList_eq_nil_iff.mp (List.head?_eq_none_iff.mp hHead.symm))

/-- Whether a slash is written depends on the end of the directory's path only. -/
theorem join_append {front directory name : String} (h : directory ≠ "") :
    join (front ++ directory) name = front ++ join directory name := by
  have hChars : directory.toList ≠ [] := fun hNil => h (String.toList_eq_nil_iff.mp hNil)
  have hLast : (front ++ directory).toList.getLast? = directory.toList.getLast? := by
    rw [String.toList_append, List.getLast?_append_of_ne_nil _ hChars]
  have hEmpty : (front ++ directory).isEmpty = directory.isEmpty := by
    rw [Bool.eq_iff_iff, String.isEmpty_iff, String.isEmpty_iff, String.append_eq_empty_iff]
    exact and_iff_right_of_imp fun hDirectory => absurd hDirectory h
  rw [join, join, hLast, hEmpty]
  split <;> simp only [String.append_assoc]

theorem extend_append_left {front root : String} (names : List String) (h : root ≠ "") :
    extend (front ++ root) names = front ++ extend root names := by
  induction names generalizing root with
  | nil => rfl
  | cons name names ih =>
    rw [extend, List.foldl_cons, join_append h]
    exact ih (join_ne_empty h)

theorem extend_append (root : String) (names names' : List String) :
    extend root (names ++ names') = extend (extend root names) names' :=
  List.foldl_append

theorem join_of_isName {directory name : String} (h : isName directory = true) :
    join directory name = directory ++ "/" ++ name := by
  obtain ⟨hSlash, hNil, _, _⟩ := exists_chars_of_isName h
  have hLast : ¬directory.toList.getLast? = some '/' := fun hLast =>
    hSlash (List.mem_of_getLast? hLast)
  have hEmpty : ¬directory = "" := fun hEmpty => hNil (String.toList_eq_nil_iff.mpr hEmpty)
  rw [join, if_neg (by simp [hEmpty, hLast])]

/-- The path of an entry of the working directory, or of one below it. -/
theorem ofNames_cons {name : String} {names : List String}
    (h : ∀ name' ∈ name :: names, isName name' = true) :
    ofNames (name :: names) = extend name names := by
  induction names generalizing name with
  | nil => exact String.intercalate_singleton
  | cons next names ih =>
    obtain ⟨hName, hNames⟩ := List.forall_mem_cons.mp h
    have hNext : next ≠ "" := by
      rintro rfl
      exact absurd (hNames "" List.mem_cons_self) (by decide)
    calc ofNames (name :: next :: names)
      _ = name ++ "/" ++ ofNames (next :: names) := String.intercalate_cons_cons
      _ = name ++ "/" ++ extend next names := by rw [ih hNames]
      _ = extend (name ++ "/" ++ next) names := (extend_append_left names hNext).symm
      _ = extend name (next :: names) := by rw [← join_of_isName hName]; rfl

theorem extend_ofNames {names below : List String} (hNames : names ≠ [])
    (h : ∀ name ∈ names ++ below, isName name = true) :
    extend (ofNames names) below = ofNames (names ++ below) := by
  obtain ⟨name, names, rfl⟩ := List.exists_cons_of_ne_nil hNames
  have hTop : ∀ name' ∈ name :: names, isName name' = true := fun name' hName =>
    h name' (List.mem_append_left below hName)
  have hAll : ofNames (name :: names ++ below) = extend name (names ++ below) := ofNames_cons h
  rw [ofNames_cons hTop, hAll, extend_append]

theorem extend_here {names : List String} (hNames : names ≠ [])
    (h : ∀ name ∈ names, isName name = true) : extend "." names = "./" ++ ofNames names := by
  obtain ⟨name, names, rfl⟩ := List.exists_cons_of_ne_nil hNames
  have hName : name ≠ "" := by
    rintro rfl
    exact absurd (h "" List.mem_cons_self) (by decide)
  rw [ofNames_cons h, ← extend_append_left names hName]
  rfl

/-- A relative path as it is given where a root is. -/
structure IsRelative (path : String) : Prop where
  ne_empty : path ≠ ""
  not_absolute : isAbsolute path = false

theorem isRelative_of_isName {name : String} (h : isName name = true) : IsRelative name := by
  obtain ⟨hSlash, hNil, _, _⟩ := exists_chars_of_isName h
  refine ⟨fun hEmpty => hNil (String.toList_eq_nil_iff.mpr hEmpty), ?_⟩
  rw [isAbsolute, beq_eq_false_iff_ne]
  exact fun hHead => hSlash (List.mem_of_head? hHead)

theorem isRelative_join {directory : String} (name : String) (h : IsRelative directory) :
    IsRelative (join directory name) := by
  refine ⟨join_ne_empty h.ne_empty, ?_⟩
  rw [isAbsolute, head?_toList_join directory name h.ne_empty]
  exact h.not_absolute

theorem isRelative_extend {root : String} (names : List String) (h : IsRelative root) :
    IsRelative (extend root names) := by
  induction names generalizing root with
  | nil => exact h
  | cons name names ih => exact ih (isRelative_join name h)

theorem isRelative_ofNames {names : List String} (hNames : names ≠ [])
    (h : ∀ name ∈ names, isName name = true) : IsRelative (ofNames names) := by
  obtain ⟨name, names, rfl⟩ := List.exists_cons_of_ne_nil hNames
  rw [ofNames_cons h]
  exact isRelative_extend names (isRelative_of_isName (h name List.mem_cons_self))

theorem names_ne_nil {path : String} (h : IsRelative path) : names path ≠ [] := by
  intro hNil
  have hPieces : ∀ piece ∈ List.splitOn '/' path.toList, piece = [] := by
    rw [names, List.map_eq_nil_iff, List.filter_eq_nil_iff] at hNil
    intro piece hPiece
    simpa using hNil piece hPiece
  have hAbsolute := h.not_absolute
  cases hChars : path.toList with
  | nil => exact h.ne_empty (String.toList_eq_nil_iff.mp hChars)
  | cons c chars =>
    have hSlash : c ≠ '/' := by
      rintro rfl
      rw [isAbsolute, hChars] at hAbsolute
      cases hAbsolute
    obtain ⟨piece, pieces, hSplit⟩ :=
      List.exists_cons_of_ne_nil (List.splitOn_ne_nil '/' chars)
    rw [hChars, List.splitOn_cons_eq_if_modifyHead, if_neg (by simpa using hSlash), hSplit] at hPieces
    exact List.cons_ne_nil _ _ (hPieces _ List.mem_cons_self)

theorem isRelative_here {path : String} (h : IsRelative path) : IsRelative ("./" ++ path) := by
  refine ⟨fun hEmpty => h.ne_empty (String.append_eq_empty_iff.mp hEmpty).2, ?_⟩
  rw [isAbsolute, String.toList_append]
  rfl

theorem steps_of_isRelative {path : String} (h : IsRelative path) : steps path =
    names path ++ if (List.splitOn '/' path.toList).getLast? == some [] then ["."] else [] := by
  have hNames : (names path).isEmpty = false := by simpa using names_ne_nil h
  change (if (_ && !(names path).isEmpty) = true then names path ++ ["."] else names path) = _
  rw [hNames, Bool.not_false, Bool.and_true]
  split
  · rfl
  · exact (List.append_nil _).symm

theorem steps_here {path : String} (h : IsRelative path) :
    steps ("./" ++ path) = "." :: steps path := by
  have hSplit : List.splitOn '/' ("./" ++ path).toList = ['.'] :: List.splitOn '/' path.toList := by
    rw [String.toList_append]
    exact List.splitOn_append_cons_self ['.'] path.toList
  have hLast : (['.'] :: List.splitOn '/' path.toList).getLast? =
      (List.splitOn '/' path.toList).getLast? :=
    List.getLast?_append_of_ne_nil ['.' :: []] (List.splitOn_ne_nil '/' path.toList)
  have hNames : names ("./" ++ path) = "." :: names path := by
    rw [names, hSplit]
    rfl
  rw [steps_of_isRelative (isRelative_here h), steps_of_isRelative h, hNames, hSplit, hLast,
    List.cons_append]

theorem names_of_isName {name : String} (h : isName name = true) : names name = [name] := by
  obtain ⟨hSlash, hNil, _, _⟩ := exists_chars_of_isName h
  rw [names, List.splitOn_eq_singleton hSlash]
  simp [hNil]

theorem names_ofNames {names' : List String} (hNames : names' ≠ [])
    (h : ∀ name ∈ names', isName name = true) : names (ofNames names') = names' := by
  obtain ⟨name, rest, rfl⟩ := List.exists_cons_of_ne_nil hNames
  obtain ⟨hName, hRest⟩ := List.forall_mem_cons.mp h
  rw [ofNames_cons h, names_extend name rest hRest, names_of_isName hName, List.singleton_append]

end Path

namespace Disk

variable (disk : Disk) {path : String} (h : Path.IsRelative path)

include h

theorem stat_here : disk.stat ("./" ++ path) = disk.stat path := by
  have hGiven {path : String} (h : Path.IsRelative path) :
      ¬(path.isEmpty || Path.isAbsolute path) = true := by
    rw [Bool.or_eq_true, String.isEmpty_iff, h.not_absolute]
    exact fun hOr => hOr.elim h.ne_empty (fun hFalse => by cases hFalse)
  have hSteps (links : Nat) : disk.resolveFrom true links [] ("." :: Path.steps path) =
      disk.resolveFrom true links [] (Path.steps path) := by
    cases links <;> rw [resolveFrom, resolveFrom, advance, if_pos rfl]
  rw [stat, stat, resolve, resolve, if_neg (hGiven h), if_neg (hGiven (Path.isRelative_here h)),
    Path.steps_here h, hSteps]

theorem isFile_here : disk.isFile ("./" ++ path) = disk.isFile path := by
  rw [isFile, disk.stat_here h, isFile]

theorem pathExists_here : disk.pathExists ("./" ++ path) = disk.pathExists path := by
  rw [pathExists, disk.stat_here h, pathExists]

theorem read_here : disk.read ("./" ++ path) = disk.read path := by
  rw [read, disk.stat_here h, read]

omit h

end Disk

end HeaderRename
