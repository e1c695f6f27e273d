import HeaderRename.Proofs.Discovery.Ignored
import Mathlib.Data.List.Sort

/-!
# Narrowing the root of a walk

A walk of a folder lists all files that a walk of the working directory lists below it. Where the
ignore files are asked it may list more: the rules above its root are not heard, unless a repository
at or below the root hides them from both walks.
-/
set_option autoImplicit false

namespace HeaderRename

open Ignore (Level)

namespace Walk

variable {disk : Disk} {names : List String} (hNames : names ≠ [])
  (hValid : ∀ name ∈ names, Path.isName name = true)

theorem isBare_ofDirectory {path : String} (h : Ignore.IsBare path) :
    (Level.ofDirectory disk path).IsBare := by
  have hRules (path' : String) : (Ignore.readRules disk path path').root = path := by
    rw [Ignore.readRules]
    split <;> rfl
  refine ⟨?_, ?_⟩
  · change Ignore.IsBare (Ignore.readRules disk path _).root
    rwa [hRules]
  · simp only [Level.ofDirectory]
    split
    · rwa [hRules]
    · exact h

include hNames hValid

theorem isBare_extend_ofNames {below : List String}
    (hBelow : ∀ name ∈ below, Path.isName name = true) :
    Ignore.IsBare (Path.extend (Path.ofNames names) below) := by
  have hAll : ∀ name ∈ names ++ below, Path.isName name = true :=
    List.forall_mem_append.mpr ⟨hValid, hBelow⟩
  obtain ⟨first, rest, rfl⟩ := List.exists_cons_of_ne_nil hNames
  rw [Path.extend_ofNames hNames hAll]
  refine Ignore.isBare_of_names (Path.names_ofNames (List.cons_ne_nil _ _) hAll) ?_
  exact (Path.exists_chars_of_isName (hValid first List.mem_cons_self)).2.2.1

theorem extend_here_append (below : List String) : Path.extend "." (names ++ below) =
    "./" ++ Path.extend (Path.ofNames names) below := by
  rw [Path.extend_append, Path.extend_here hNames hValid,
    Path.extend_append_left _ (Path.isRelative_ofNames hNames hValid).ne_empty]

variable (disk) in
/-- Seen from the working directory, the levels below a folder are the same, with more above. -/
theorem exists_levelsAlong_here (folders : List String) : ∃ outer,
    levelsAlong disk "." (names ++ folders) =
      (levelsAlong disk (Path.ofNames names) folders).map Level.here ++ outer := by
  have hRelative := Path.isRelative_ofNames hNames hValid
  have hHere : levelsAlong disk ("./" ++ Path.ofNames names) folders =
      (levelsAlong disk (Path.ofNames names) folders).map Level.here := by
    rw [levelsAlong, levelsAlong, List.map_reverse, List.map_map]
    refine congrArg _ (List.map_congr_left fun front _ => ?_)
    rw [Path.extend_append_left front hRelative.ne_empty, Function.comp_apply,
      Ignore.Level.ofDirectory_here (Path.isRelative_extend front hRelative)]
  obtain ⟨above, last, rfl⟩ := names.eq_nil_or_concat.resolve_left hNames
  refine ⟨levelsAlong disk "." above, ?_⟩
  rw [List.concat_eq_append] at hHere hValid ⊢
  rw [List.append_assoc, List.singleton_append, levelsAlong_append_cons,
    Path.extend_here (List.concat_ne_nil last above) hValid, hHere]

section Ignored

variable {folders : List String} {name : String} (isFolder : Bool)
  (hFolders : ∀ folder ∈ folders, Path.isName folder = true) (hName : Path.isName name = true)

include hFolders hName

theorem verdict?_levelsAlong_here :
    Level.verdict? ((levelsAlong disk (Path.ofNames names) folders).map Level.here)
      ("./" ++ Path.extend (Path.ofNames names) (folders ++ [name])) isFolder =
    Level.verdict? (levelsAlong disk (Path.ofNames names) folders)
      (Path.extend (Path.ofNames names) (folders ++ [name])) isFolder := by
  have hBelow : ∀ name' ∈ folders ++ [name], Path.isName name' = true :=
    List.forall_mem_append.mpr ⟨hFolders, List.forall_mem_singleton.mpr hName⟩
  refine Level.verdict?_map_here (fun level hLevel => ?_)
    (isBare_extend_ofNames hNames hValid hBelow) isFolder
  obtain ⟨front, hFront, rfl⟩ := List.mem_map.mp (List.mem_reverse.mp hLevel)
  refine isBare_ofDirectory (isBare_extend_ofNames hNames hValid fun name' hMem => ?_)
  exact hFolders name' (((List.mem_inits front folders).mp hFront).subset hMem)

/-- Where a repository is at or below the root, the rules above it are not heard. -/
theorem isIgnored_here_iff_of_isSome
    (hHeard : (Level.upToRepository (levelsAlong disk (Path.ofNames names) folders)).isSome = true) :
    IsIgnored disk "." (names ++ folders) name isFolder ↔
      IsIgnored disk (Path.ofNames names) folders name isFolder := by
  obtain ⟨outer, hLevels⟩ := exists_levelsAlong_here disk hNames hValid folders
  have hInner : (Level.upToRepository
      ((levelsAlong disk (Path.ofNames names) folders).map Level.here)).isSome = true := by
    rw [Level.upToRepository_map_here, Option.isSome_map]
    exact hHeard
  rw [IsIgnored, IsIgnored, hLevels, List.append_assoc, extend_here_append hNames hValid,
    Level.verdict?_append_of_isSome outer hInner,
    verdict?_levelsAlong_here hNames hValid isFolder hFolders hName]

/-- What is ignored in a walk of a folder is ignored in a walk of the working directory. -/
theorem IsIgnored.here (h : IsIgnored disk (Path.ofNames names) folders name isFolder) :
    IsIgnored disk "." (names ++ folders) name isFolder :=
  (isIgnored_here_iff_of_isSome hNames hValid isFolder hFolders hName
    (Level.isSome_upToRepository_of_verdict? h)).mpr h

end Ignored

section Spared

variable {top below : List String} (hTop : ∀ name ∈ top, Path.isName name = true)
  (hBelow : ∀ name ∈ below, Path.isName name = true)

include hTop hBelow

end Spared

omit hNames hValid

section Narrow

variable {expr : Glob.NameExpr} (hNames : names ≠ []) (hWay : disk.IsWay [] names)
  (hReached : IsSpared disk "." true [] names)

include hNames hWay

include hReached

end Narrow

end Walk

end HeaderRename
