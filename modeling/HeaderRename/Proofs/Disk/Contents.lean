import HeaderRename.Disk.Resolve
import Mathlib.Data.List.Nodup

/-!
# The contents of files

Where a path leads is told by the directories and links alone. A disk in which only the bytes of
regular files are changed keeps all its places, and every path leads where it led; a write to a file
that is there is such a change.
-/
set_option autoImplicit false

namespace HeaderRename

def Entry.mapBytes (f : List UInt8 → List UInt8) : Entry → Entry
  | file bytes => file (f bytes)
  | directory => directory
  | link target => link target

namespace Disk

theorem eq_of_entries_eq (disk disk' : Disk) (h : disk.entries = disk'.entries) : disk = disk' := by
  cases disk
  cases disk'
  cases h
  rfl

/-- The bytes of the regular files changed, each as its place tells. -/
def mapFiles (disk : Disk) (f : Place → List UInt8 → List UInt8) : Disk where
  entries := disk.entries.map fun e => (e.1, e.2.mapBytes (f e.1))
  nodup := by
    rw [List.map_map]
    exact disk.nodup
  valid := by
    rw [List.map_map]
    exact disk.valid

theorem entries_mapFiles (disk : Disk) (f : Place → List UInt8 → List UInt8) :
    (disk.mapFiles f).entries = disk.entries.map fun e => (e.1, e.2.mapBytes (f e.1)) := rfl

@[simp] theorem places_mapFiles (disk : Disk) (f : Place → List UInt8 → List UInt8) :
    (disk.mapFiles f).entries.map (·.1) = disk.entries.map (·.1) :=
  List.map_map

theorem mapFiles_id (disk : Disk) : disk.mapFiles (fun _ bytes => bytes) = disk := by
  apply eq_of_entries_eq
  have hEntry : ∀ e : Place × Entry, (e.1, e.2.mapBytes fun bytes => bytes) = e := by
    rintro ⟨place, bytes | _ | target⟩ <;> rfl
  rw [entries_mapFiles, List.map_congr_left fun e _ => hEntry e, List.map_id']

theorem mapFiles_mapFiles (disk : Disk) (f g : Place → List UInt8 → List UInt8) :
    (disk.mapFiles f).mapFiles g = disk.mapFiles fun place bytes => g place (f place bytes) := by
  apply eq_of_entries_eq
  rw [entries_mapFiles, entries_mapFiles, entries_mapFiles, List.map_map]
  apply List.map_congr_left
  rintro ⟨place, bytes | _ | target⟩ _ <;> rfl

theorem get?_mapFiles (disk : Disk) (f : Place → List UInt8 → List UInt8) (place : Place) :
    (disk.mapFiles f).get? place = (disk.get? place).map (Entry.mapBytes (f place)) := by
  unfold get?
  split
  · rfl
  · rw [entries_mapFiles]
    generalize disk.entries = entries
    induction entries with
    | nil => rfl
    | cons e rest ih =>
      rw [List.map_cons, List.lookup_cons, List.lookup_cons]
      cases hPlace : place == e.1 with
      | true => rw [eq_of_beq hPlace]; rfl
      | false => exact ih

theorem remove_mapFiles (disk : Disk) (f : Place → List UInt8 → List UInt8) (place : Place) :
    (disk.mapFiles f).remove place = (disk.remove place).mapFiles f := by
  apply eq_of_entries_eq
  rw [entries_mapFiles]
  exact List.filter_map

theorem unlink?_mapFiles (disk : Disk) (f : Place → List UInt8 → List UInt8) (place : Place) :
    (disk.mapFiles f).unlink? place = (disk.unlink? place).map (·.mapFiles f) := by
  have hBelow : (disk.mapFiles f).hasNothingBelow place = disk.hasNothingBelow place := by
    rw [hasNothingBelow, entries_mapFiles, List.all_map]
    rfl
  rw [unlink?, unlink?, get?_mapFiles, Option.isSome_map, hBelow, remove_mapFiles]
  split <;> rfl

def Found.mapBytes (f : Place → List UInt8 → List UInt8) : Found → Found
  | file place bytes => file place (f place bytes)
  | directory place => directory place
  | link place target => link place target
  | missing place => missing place

def Advance.mapBytes (f : Place → List UInt8 → List UInt8) : Advance → Advance
  | stopped result => stopped (result.map (Found.mapBytes f))
  | link parent target rest => link parent target rest

section Paths

variable (disk : Disk) (f : Place → List UInt8 → List UInt8)

theorem advance_mapFiles (followLast : Bool) (place : Place) (steps : List String) :
    (disk.mapFiles f).advance followLast place steps =
      (disk.advance followLast place steps).mapBytes f := by
  induction steps generalizing place with
  | nil => rfl
  | cons step rest ih =>
    unfold advance
    split
    · exact ih place
    · split
      · split
        · rfl
        · exact ih place.dropLast
      · simp only [get?_mapFiles]
        cases disk.get? (place ++ [step]) with
        | none => cases rest <;> rfl
        | some entry =>
          cases entry with
          | file bytes => cases rest <;> rfl
          | directory => exact ih (place ++ [step])
          | link target => cases rest <;> cases followLast <;> rfl

theorem resolveFrom_mapFiles (followLast : Bool) (links : Nat) (place : Place)
    (steps : List String) :
    (disk.mapFiles f).resolveFrom followLast links place steps =
      (disk.resolveFrom followLast links place steps).map (Found.mapBytes f) := by
  induction links generalizing place steps with
  | zero =>
    rw [resolveFrom, resolveFrom, advance_mapFiles]
    cases disk.advance followLast place steps <;> rfl
  | succ links ih =>
    rw [resolveFrom, resolveFrom, advance_mapFiles]
    cases disk.advance followLast place steps with
    | stopped result => rfl
    | link parent target rest =>
      simp only [Advance.mapBytes]
      split
      · rfl
      · exact ih parent _

theorem resolve_mapFiles (followLast : Bool) (path : String) :
    (disk.mapFiles f).resolve followLast path =
      (disk.resolve followLast path).map (Found.mapBytes f) := by
  unfold resolve
  split
  · rfl
  · exact resolveFrom_mapFiles disk f followLast linkLimit [] (Path.steps path)

theorem stat_mapFiles (path : String) :
    (disk.mapFiles f).stat path = (disk.stat path).map (Found.mapBytes f) := by
  rw [stat, stat, resolve_mapFiles]
  rcases disk.resolve true path with fault | place | place | ⟨place, target⟩ | place <;> rfl

theorem pathExists_mapFiles (path : String) :
    (disk.mapFiles f).pathExists path = disk.pathExists path := by
  rw [pathExists, pathExists, stat_mapFiles]
  cases disk.stat path <;> rfl

theorem read_eq_ok_iff {path : String} {bytes : List UInt8} :
    disk.read path = .ok bytes ↔ ∃ place, disk.stat path = .ok (.file place bytes) := by
  unfold read
  rcases disk.stat path with fault | ⟨place, bytes'⟩ | place | ⟨place, target⟩ | place <;> simp

end Paths

theorem get?_of_advance_eq_file (disk : Disk) (followLast : Bool) (start : Place)
    (steps : List String) (place : Place) (bytes : List UInt8)
    (h : disk.advance followLast start steps = .stopped (.ok (.file place bytes))) :
    disk.get? place = some (.file bytes) := by
  induction steps generalizing start with
  | nil => cases h
  | cons step rest ih =>
    unfold advance at h
    split at h
    · exact ih start h
    · split at h
      · split at h
        · cases h
        · exact ih start.dropLast h
      · dsimp only at h
        cases hEntry : disk.get? (start ++ [step]) with
        | none => cases rest <;> simp [hEntry] at h
        | some entry =>
          cases entry with
          | file bytes' =>
            cases rest with
            | nil =>
              simp only [hEntry, List.isEmpty_nil, if_true, Advance.stopped.injEq,
                Except.ok.injEq, Found.file.injEq] at h
              rw [← h.1, ← h.2, hEntry]
            | cons next rest => simp [hEntry] at h
          | directory =>
            rw [hEntry] at h
            exact ih (start ++ [step]) h
          | link target => cases rest <;> cases followLast <;> simp [hEntry] at h

theorem get?_of_resolveFrom_eq_file (disk : Disk) (followLast : Bool) (links : Nat) (start : Place)
    (steps : List String) (place : Place) (bytes : List UInt8)
    (h : disk.resolveFrom followLast links start steps = .ok (.file place bytes)) :
    disk.get? place = some (.file bytes) := by
  induction links generalizing start steps with
  | zero =>
    rw [resolveFrom] at h
    cases hAdvance : disk.advance followLast start steps with
    | stopped result =>
      rw [hAdvance] at h
      exact get?_of_advance_eq_file disk followLast start steps place bytes (h ▸ hAdvance)
    | link parent target rest => simp [hAdvance] at h
  | succ links ih =>
    rw [resolveFrom] at h
    cases hAdvance : disk.advance followLast start steps with
    | stopped result =>
      rw [hAdvance] at h
      exact get?_of_advance_eq_file disk followLast start steps place bytes (h ▸ hAdvance)
    | link parent target rest =>
      simp only [hAdvance] at h
      split at h
      · cases h
      · exact ih parent _ h

theorem resolve_eq_of_stat_eq_file (disk : Disk) (path : String) (place : Place)
    (bytes : List UInt8) (h : disk.stat path = .ok (.file place bytes)) :
    disk.resolve true path = .ok (.file place bytes) := by
  unfold stat at h
  cases hResolve : disk.resolve true path with
  | error fault => rw [hResolve] at h; cases h
  | ok found =>
    rw [hResolve] at h
    cases found with
    | missing place => cases h
    | file | directory | link => exact h

theorem get?_of_stat_eq_file (disk : Disk) (path : String) (place : Place) (bytes : List UInt8)
    (h : disk.stat path = .ok (.file place bytes)) : disk.get? place = some (.file bytes) := by
  have hResolve := resolve_eq_of_stat_eq_file disk path place bytes h
  unfold resolve at hResolve
  split at hResolve
  · cases hResolve
  · exact get?_of_resolveFrom_eq_file disk true linkLimit [] _ place bytes hResolve

/-- The place of the regular file that a path leads to. -/
def fileAt? (disk : Disk) (path : String) : Option Place :=
  match disk.stat path with
  | .ok (.file place _) => some place
  | _ => none

theorem putEntry_eq_map (place : Place) (entry : Entry) (entries : List (Place × Entry))
    (hNodup : (entries.map (·.1)).Nodup) (hMem : place ∈ entries.map (·.1)) :
    putEntry place entry entries =
      entries.map fun e => if e.1 = place then (e.1, entry) else e := by
  induction entries with
  | nil => cases hMem
  | cons e rest ih =>
    rw [List.map_cons, List.nodup_cons] at hNodup
    rw [putEntry, List.map_cons]
    by_cases hPlace : e.1 = place
    · have hRest : ∀ e' ∈ rest, (if e'.1 = place then (e'.1, entry) else e') = e' := by
        intro e' he'
        refine if_neg fun hSame => hNodup.1 ?_
        rw [hPlace, ← hSame]
        exact List.mem_map_of_mem he'
      rw [if_pos hPlace, if_pos hPlace, List.map_congr_left hRest, List.map_id']
    · rw [if_neg hPlace, if_neg hPlace]
      rw [List.map_cons, List.mem_cons] at hMem
      rw [ih hNodup.2 (hMem.resolve_left fun hSame => hPlace hSame.symm)]

theorem entries_put (disk : Disk) (place : Place) (entry : Entry) (h : place.isValid = true) :
    (disk.put place entry).entries = putEntry place entry disk.entries := by
  rw [put, dif_pos h]

theorem put_file_eq_mapFiles (disk : Disk) (place : Place) (bytes : List UInt8)
    (h : disk.get? place = some (.file bytes)) (f : List UInt8 → List UInt8) :
    disk.put place (.file (f bytes)) =
      disk.mapFiles fun place' bytes' => if place' = place then f bytes' else bytes' := by
  have hLookup : disk.entries.lookup place = some (.file bytes) := by
    unfold get? at h
    split at h
    · cases h
    · exact h
  have hMem : (place, Entry.file bytes) ∈ disk.entries := by
    obtain ⟨before, after, hSplit, _⟩ := List.lookup_eq_some_iff.mp hLookup
    rw [hSplit]
    exact List.mem_append_right _ List.mem_cons_self
  have hPlace : place ∈ disk.entries.map (·.1) := List.mem_map_of_mem hMem
  apply eq_of_entries_eq
  rw [entries_put disk place _ (disk.valid place hPlace), entries_mapFiles,
    putEntry_eq_map place _ disk.entries disk.nodup hPlace]
  apply List.map_congr_left
  rintro ⟨place', entry⟩ hEntry
  by_cases hSame : place' = place
  · subst hSame
    obtain rfl : entry = .file bytes := by
      have hSome := List.inj_on_of_nodup_map disk.nodup hEntry hMem rfl
      exact congrArg Prod.snd hSome
    simp only [if_true, Entry.mapBytes]
  · simp only [if_neg hSame]
    cases entry <;> rfl

end Disk

end HeaderRename
