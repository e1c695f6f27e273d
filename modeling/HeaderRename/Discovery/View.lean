import HeaderRename.Disk.Resolve

/-!
# What a walk sees

The view of a directory is a tree of its own, in which a followed link to a directory is a folder
and everything that is not a file to be listed is a plain leaf. A link that cannot be followed, or
leads back to a folder it is in, is broken; this matters only to a walk that comes to it.
-/
set_option autoImplicit false

namespace HeaderRename

inductive BrokenLink where
  | unreadable (fault : FileFault)
  | loop (ancestor : String)
deriving DecidableEq, Repr

namespace BrokenLink

def message (path : String) : BrokenLink → String
  | unreadable fault => s!"{path}: IO error for operation on {path}: {fault.message}"
  | loop ancestor => s!"File system loop found: {path} points to an ancestor {ancestor}"

end BrokenLink

/-- Paths are the texts under which the walk reports an entry. -/
inductive View where
  | leaf (path name : String) (isFile : Bool)
  | broken (path name : String) (reason : BrokenLink)
  | folder (path name : String) (children : List View)

namespace View

def name : View → String
  | leaf _ name _ => name
  | broken _ name _ => name
  | folder _ name _ => name

/-- A folder that the walk is in: its place and the path under which it was entered. -/
abbrev Ancestor := Place × String

/-- The view of the entry at a place; `fuel` bounds the folders below it. -/
def ofEntry (disk : Disk) (follow : Bool) :
    Nat → List Ancestor → String → String → Place → Entry → View
  | _, _, path, name, _, .file _ => .leaf path name true
  | 0, _, path, name, _, .directory => .leaf path name false
  | fuel + 1, ancestors, path, name, place, .directory =>
    .folder path name <| (disk.children place).map fun (child, entry) =>
      ofEntry disk follow fuel ((place, path) :: ancestors) (Path.join path child) child
        (place ++ [child]) entry
  | 0, _, path, name, _, .link _ => .leaf path name (disk.isFile path)
  | fuel + 1, ancestors, path, name, _, .link _ =>
    if !follow then .leaf path name (disk.isFile path)
    else
      match disk.stat path with
      | .error fault => .broken path name (.unreadable fault)
      | .ok (.directory place) =>
        match ancestors.find? (·.1 == place) with
        | some (_, ancestor) => .broken path name (.loop ancestor)
        | none => ofEntry disk follow fuel ancestors path name place .directory
      | .ok _ => .leaf path name true

/-- Folders on one way down differ in place between two links, and links to a place on the way are
broken, so no way is longer than this. -/
def depthLimit (disk : Disk) : Nat :=
  2 * (disk.entries.length + 2) * (disk.entries.length + 2)

/-- The view of a directory from the path that leads to it. -/
def ofRoot (disk : Disk) (follow : Bool) (path : String) (place : Place) : View :=
  ofEntry disk follow (depthLimit disk) [] path "" place .directory

end View

end HeaderRename
