import HeaderRename.Discovery.Listing
import HeaderRename.Proofs.Text.Clean
import Mathlib.Data.List.DropRight

/-!
# Paths as lines

A listing is read back as the paths printed just when each of them makes a line that is kept as it
is: no line feed in it, no carriage return at its end, and not empty. Whatever bytes are read, they
give such paths only.
-/
set_option autoImplicit false

namespace HeaderRename.Listing

structure IsLine (path : String) : Prop where
  ne_empty : path ≠ ""
  no_feed : '\n' ∉ path.toList
  no_return : path.toList.getLast? ≠ some '\r'

theorem isLine_iff (path : String) : IsLine path ↔
    path ≠ "" ∧ '\n' ∉ path.toList ∧ path.toList.getLast? ≠ some '\r' :=
  ⟨fun h => ⟨h.ne_empty, h.no_feed, h.no_return⟩, fun h => ⟨h.1, h.2.1, h.2.2⟩⟩

instance : DecidablePred IsLine := fun path => decidable_of_iff _ (isLine_iff path).symm

theorem dropReturns_eq_rdropWhile (line : List Char) :
    dropReturns line = line.rdropWhile (· == '\r') :=
  rfl

theorem dropReturns_eq_self_iff (line : List Char) :
    dropReturns line = line ↔ line.getLast? ≠ some '\r' := by
  rw [dropReturns_eq_rdropWhile, List.rdropWhile_eq_self_iff]
  cases line using List.reverseRecOn with
  | nil => simp
  | append_singleton front c => simp

theorem parseLines_append (front back : List Char) :
    parseLines (front ++ '\n' :: back) = parseLines front ++ parseLines back := by
  simp only [parseLines, List.splitOn_append_cons_self, List.map_append, List.filter_append]

theorem parseLines_of_isLine {path : String} (h : IsLine path) :
    parseLines path.toList = [path] := by
  have hNil : path.toList ≠ [] := fun hNil => h.ne_empty (String.toList_eq_nil_iff.mp hNil)
  rw [parseLines, List.splitOn_eq_singleton h.no_feed, List.map_singleton,
    (dropReturns_eq_self_iff _).mpr h.no_return]
  simp [hNil]

theorem parseOutput_output (paths : List String) (h : ∀ path ∈ paths, IsLine path) :
    parseOutput (output paths) = paths := by
  rw [parseOutput, output, Utf8.decodeMarking_write]
  induction paths with
  | nil => rfl
  | cons path paths ih =>
    rw [List.forall_mem_cons] at h
    rw [List.flatMap_cons, List.append_assoc, List.singleton_append, parseLines_append,
      parseLines_of_isLine h.1, ih h.2]
    rfl

theorem notMem_of_mem_splitOn (sep : Char) {text piece : List Char}
    (h : piece ∈ List.splitOn sep text) : sep ∉ piece := by
  induction text generalizing piece with
  | nil =>
    rw [List.splitOn_nil, List.mem_singleton] at h
    subst h
    exact List.not_mem_nil
  | cons c rest ih =>
    rw [List.splitOn_cons_eq_if_modifyHead] at h
    split at h
    · rcases List.mem_cons.mp h with rfl | hRest
      · exact List.not_mem_nil
      · exact ih hRest
    · next hOther =>
      obtain ⟨first, pieces, hPieces⟩ := List.exists_cons_of_ne_nil (List.splitOn_ne_nil sep rest)
      rw [hPieces] at h ih
      rcases List.mem_cons.mp h with rfl | hRest
      · have hSep : sep ≠ c := fun hSame => hOther (beq_iff_eq.mpr hSame.symm)
        exact List.not_mem_cons_of_ne_of_not_mem hSep (ih List.mem_cons_self)
      · exact ih (List.mem_cons_of_mem first hRest)

theorem dropReturns_dropReturns (line : List Char) :
    dropReturns (dropReturns line) = dropReturns line := by
  simp only [dropReturns_eq_rdropWhile]
  exact List.rdropWhile_idempotent _ line

theorem isLine_of_mem_parseOutput {bytes : List UInt8} {path : String}
    (h : path ∈ parseOutput bytes) : IsLine path := by
  simp only [parseOutput, parseLines, List.mem_map, List.mem_filter] at h
  obtain ⟨_, ⟨⟨piece, hPiece, rfl⟩, hFilled⟩, rfl⟩ := h
  have hPrefix : dropReturns piece <+: piece := List.rdropWhile_prefix _ piece
  constructor
  · intro hEmpty
    simp [String.ofList_eq_empty_iff.mp hEmpty] at hFilled
  · rw [String.toList_ofList]
    exact fun hFeed => notMem_of_mem_splitOn '\n' hPiece (hPrefix.subset hFeed)
  · rw [String.toList_ofList, ← dropReturns_eq_self_iff, dropReturns_dropReturns]

/-- What is printed is read back just when each path makes a line of its own, and whatever bytes are
read, each path they give makes one. -/
theorem parseOutput_output_eq_self_iff :
    (∀ paths : List String, parseOutput (output paths) = paths ↔ ∀ path ∈ paths, IsLine path) ∧
      ∀ bytes : List UInt8, ∀ path ∈ parseOutput bytes, IsLine path := by
  refine ⟨fun paths => ⟨fun hSame path hPath => ?_, parseOutput_output paths⟩, fun _ _ => ?_⟩
  · rw [← hSame] at hPath
    exact isLine_of_mem_parseOutput hPath
  · exact isLine_of_mem_parseOutput

/-- A carriage return stays inside a path and is lost at its end; a line of nothing else is dropped. -/
theorem parseOutput_output_returns :
    parseOutput (output ["src/a\rb.c", "\r.c"]) = ["src/a\rb.c", "\r.c"] ∧
      parseOutput (output ["a.c\r", "\r"]) ≠ ["a.c\r", "\r"] ∧
      "a.c" ∈ parseOutput (output ["a.c\r", "\r"]) ∧ IsLine "a.c" := by
  obtain ⟨hSame, hLines⟩ := parseOutput_output_eq_self_iff
  have hMem : "a.c" ∈ parseOutput (output ["a.c\r", "\r"]) := by decide +kernel
  refine ⟨(hSame _).mpr (by decide +kernel), fun h => ?_, hMem, hLines _ _ hMem⟩
  exact absurd ((hSame _).mp h) (by decide +kernel)

end HeaderRename.Listing
