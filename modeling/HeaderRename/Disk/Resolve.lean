import HeaderRename.Disk.Basic
import HeaderRename.Error

/-!
# Resolving paths

A path is followed step by step from the top of the disk, which is the working directory, through at
most forty symbolic links. Only its last name may be missing, and then it says where a file would be
made. Nothing outside the disk exists.
-/
set_option autoImplicit false

namespace HeaderRename.Disk

/-- What a path leads to; `missing` is a place in an existing directory. -/
inductive Found where
  | file (place : Place) (bytes : List UInt8)
  | directory (place : Place)
  | link (place : Place) (target : String)
  | missing (place : Place)
deriving DecidableEq, Repr

/-- How far the steps of a path lead before the next link. -/
inductive Advance where
  | stopped (result : Except FileFault Found)
  | link (parent : Place) (target : String) (rest : List String)

def advance (disk : Disk) (followLast : Bool) : Place → List String → Advance
  | place, [] => .stopped (.ok (.directory place))
  | place, step :: rest =>
    if step = "." then advance disk followLast place rest
    else if step = ".." then
      if place.isEmpty then .stopped (.error .notFound)
      else advance disk followLast place.dropLast rest
    else
      let next := place ++ [step]
      match disk.get? next with
      | none => .stopped (if rest.isEmpty then .ok (.missing next) else .error .notFound)
      | some .directory => advance disk followLast next rest
      | some (.file bytes) =>
        .stopped (if rest.isEmpty then .ok (.file next bytes) else .error .notADirectory)
      | some (.link target) =>
        if rest.isEmpty && !followLast then .stopped (.ok (.link next target))
        else .link place target rest

def resolveFrom (disk : Disk) (followLast : Bool) (links : Nat) (place : Place)
    (steps : List String) : Except FileFault Found :=
  match disk.advance followLast place steps with
  | .stopped result => result
  | .link parent target rest =>
    match links with
    | 0 => .error .tooManyLinks
    | links + 1 =>
      if Path.isAbsolute target then .error .notFound
      else resolveFrom disk followLast links parent (Path.steps target ++ rest)

def linkLimit : Nat := 40

/-- Where a path leads from the working directory. An absolute path, or one that leads above the
working directory, leads out of the disk and is not found. -/
def resolve (disk : Disk) (followLast : Bool) (path : String) : Except FileFault Found :=
  if path.isEmpty || Path.isAbsolute path then .error .notFound
  else disk.resolveFrom followLast linkLimit [] (Path.steps path)

def presentOnly : Except FileFault Found → Except FileFault Found
  | .ok (.missing _) => .error .notFound
  | other => other

/-- What a path stands for, through links. -/
def stat (disk : Disk) (path : String) : Except FileFault Found :=
  presentOnly (disk.resolve true path)

/-- What a path stands for, a last link being taken as itself. -/
def lstat (disk : Disk) (path : String) : Except FileFault Found :=
  presentOnly (disk.resolve false path)

def pathExists (disk : Disk) (path : String) : Bool :=
  match disk.stat path with
  | .ok _ => true
  | .error _ => false

theorem pathExists_of_stat (disk : Disk) {path : String} {found : Found}
    (h : disk.stat path = .ok found) : disk.pathExists path = true := by
  rw [pathExists, h]

def isFile (disk : Disk) (path : String) : Bool :=
  match disk.stat path with
  | .ok (.file ..) => true
  | _ => false

def isDirectory (disk : Disk) (path : String) : Bool :=
  match disk.stat path with
  | .ok (.directory _) => true
  | _ => false

def read (disk : Disk) (path : String) : Except FileFault (List UInt8) :=
  match disk.stat path with
  | .ok (.file _ bytes) => .ok bytes
  | .ok _ => .error .isADirectory
  | .error fault => .error fault

/-- Writes a file, making it where only its last name is missing; the answer tells its place. -/
def write (disk : Disk) (path : String) (bytes : List UInt8) :
    Except FileFault (Place × Disk) :=
  match disk.resolve true path with
  | .ok (.file place _) => .ok (place, disk.put place (.file bytes))
  | .ok (.missing place) => .ok (place, disk.put place (.file bytes))
  | .ok _ => .error .isADirectory
  | .error fault => .error fault

/-- Makes a directory unless there is one; a link that leads to none is not followed. -/
def ensureDirectory (disk : Disk) (steps : List String) : Except FileFault Disk :=
  match disk.resolveFrom false linkLimit [] steps with
  | .error fault => .error fault
  | .ok (.missing place) => .ok (disk.put place .directory)
  | .ok _ =>
    match disk.resolveFrom true linkLimit [] steps with
    | .ok (.directory _) => .ok disk
    | _ => .error .notADirectory

/-- Makes the directory of a path and those above it, as far as they are missing. -/
def makeDirectories (disk : Disk) (path : String) : Except FileFault Disk :=
  if Path.isAbsolute path then .error .notFound
  else (Place.onTheWay (Path.steps path)).foldlM ensureDirectory disk

end HeaderRename.Disk
