import HeaderRename.Disk.Path

/-!
# The file tree

A disk holds the entries below a working directory, each at its place: the names from the top down.
The top itself is always a directory. No place is listed twice, and names hold no slash.
-/
set_option autoImplicit false

namespace HeaderRename

abbrev Place := List String

namespace Place

/-- The names that lead from the first place to the second. -/
def below? : Place → Place → Option Place
  | [], place => some place
  | _ :: _, [] => none
  | top :: tops, name :: names => if top = name then below? tops names else none

/-- The places on the way down, the last of them being the place itself. -/
def onTheWay : Place → List Place
  | [] => []
  | name :: names => [name] :: (onTheWay names).map (name :: ·)

theorem below?_eq_some_iff (top place rest : Place) :
    below? top place = some rest ↔ place = top ++ rest := by
  induction top generalizing place with
  | nil => simp [below?]
  | cons t top ih =>
    cases place with
    | nil => simp [below?]
    | cons name names =>
      by_cases h : t = name
      · simp [below?, h, ih]
      · simp [below?, h, Ne.symm h]

def isValid (place : Place) : Bool :=
  !place.isEmpty && place.all Path.isName

end Place

inductive Entry where
  | file (bytes : List UInt8)
  | directory
  | link (target : String)
deriving DecidableEq, Repr

structure Disk where
  entries : List (Place × Entry)
  nodup : (entries.map (·.1)).Nodup
  valid : ∀ p ∈ entries.map (·.1), p.isValid = true

namespace Disk

def empty : Disk where
  entries := []
  nodup := by simp
  valid := by simp

def get? (disk : Disk) (place : Place) : Option Entry :=
  if place.isEmpty then some .directory else disk.entries.lookup place

def putEntry (place : Place) (entry : Entry) : List (Place × Entry) → List (Place × Entry)
  | [] => [(place, entry)]
  | (p, e) :: rest => if p = place then (p, entry) :: rest else (p, e) :: putEntry place entry rest

theorem mem_keys_putEntry (place : Place) (entry : Entry) (entries : List (Place × Entry))
    (p : Place) : p ∈ (putEntry place entry entries).map (·.1) ↔
      p = place ∨ p ∈ entries.map (·.1) := by
  induction entries with
  | nil => simp [putEntry]
  | cons e rest ih =>
    by_cases h : e.1 = place
    · subst h
      simp [putEntry]
    · simp only [putEntry, h, if_false, List.map_cons, List.mem_cons, ih]
      exact or_left_comm

theorem nodup_keys_putEntry (place : Place) (entry : Entry) (entries : List (Place × Entry))
    (h : (entries.map (·.1)).Nodup) : ((putEntry place entry entries).map (·.1)).Nodup := by
  induction entries with
  | nil => simp [putEntry]
  | cons e rest ih =>
    rw [List.map_cons, List.nodup_cons] at h
    by_cases he : e.1 = place
    · subst he
      simp only [putEntry, if_true, List.map_cons, List.nodup_cons]
      exact h
    · rw [putEntry, if_neg he, List.map_cons, List.nodup_cons, mem_keys_putEntry]
      exact ⟨fun hm => hm.elim he h.1, ih h.2⟩

/-- Sets the entry at a place; a place with a name that no file can have is left alone. -/
def put (disk : Disk) (place : Place) (entry : Entry) : Disk :=
  if h : place.isValid = true then
    { entries := putEntry place entry disk.entries
      nodup := nodup_keys_putEntry place entry disk.entries disk.nodup
      valid := by
        intro p hp
        rcases (mem_keys_putEntry place entry disk.entries p).1 hp with rfl | hp
        · exact h
        · exact disk.valid p hp }
  else disk

/-- Makes a directory of a place where nothing is. -/
def makeDirectory (disk : Disk) (place : Place) : Disk :=
  match disk.get? place with
  | some _ => disk
  | none => disk.put place .directory

/-- Makes the directories above a place. -/
def makeParents (disk : Disk) (place : Place) : Disk :=
  (Place.onTheWay place.dropLast).foldl makeDirectory disk

/-- Removes a place and all below it. -/
def remove (disk : Disk) (place : Place) : Disk where
  entries := disk.entries.filter fun e => !place.isPrefixOf e.1
  nodup := disk.nodup.sublist (List.filter_sublist.map _)
  valid := fun p hp => disk.valid p ((List.filter_sublist.map _).subset hp)

def hasNothingBelow (disk : Disk) (place : Place) : Bool :=
  disk.entries.all fun e => (Place.below? place e.1).all (·.isEmpty)

/-- Removes the entry at a place, a directory only if it is empty; `none` when there is none to be
removed. -/
def unlink? (disk : Disk) (place : Place) : Option Disk :=
  if (disk.get? place).isSome && disk.hasNothingBelow place then some (disk.remove place) else none

/-- The entries of a directory, sorted by name. -/
def children (disk : Disk) (place : Place) : List (String × Entry) :=
  (disk.entries.filterMap fun e =>
    match Place.below? place e.1 with
    | some [name] => some (name, e.2)
    | _ => none).mergeSort fun a b => decide (a.1 ≤ b.1)

/-- The regular files with their places. -/
def files (disk : Disk) : List (Place × List UInt8) :=
  disk.entries.filterMap fun e =>
    match e.2 with
    | .file bytes => some (e.1, bytes)
    | _ => none

end Disk

end HeaderRename
