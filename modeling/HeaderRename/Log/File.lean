import HeaderRename.Disk.Resolve
import HeaderRename.Log.Event
import HeaderRename.Text.Utf8

/-!
# The log file

A log file is made, or emptied, before anything is logged, and the directories above it are made
where they are missing.
-/
set_option autoImplicit false

namespace HeaderRename.LogFile

inductive Fault where
  | directory (path : String)
  | file (path : String)
deriving DecidableEq, Repr

namespace Fault

def message : Fault → String
  | directory path => s!"failed to create log directory {path}"
  | file path => s!"failed to create log file {path}"

end Fault

def makeParent (disk : Disk) (path : String) : Except Fault Disk :=
  match Path.parent? path with
  | none => .ok disk
  | some parent => (disk.makeDirectories parent).mapError fun _ => .directory parent

/-- The disk with the log file, and its place. Directories made for a file that cannot be made
stay. -/
def create (disk : Disk) (path : String) : Disk × Except Fault Place :=
  match makeParent disk path with
  | .error fault => (disk, .error fault)
  | .ok disk =>
    match disk.write path [] with
    | .error _ => (disk, .error (.file path))
    | .ok (place, disk) => (disk, .ok place)

/-- Adds lines to the end of a file. -/
def append (disk : Disk) (place : Place) (lines : List String) : Disk :=
  let added := lines.flatMap fun line => Utf8.write (line.toList ++ ['\n'])
  match disk.get? place with
  | some (.file bytes) => disk.put place (.file (bytes ++ added))
  | _ => disk

end HeaderRename.LogFile
