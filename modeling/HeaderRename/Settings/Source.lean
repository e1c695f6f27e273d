import HeaderRename.Disk.Resolve
import HeaderRename.Settings.KeyPath
import HeaderRename.Text.Utf8
import HeaderRename.Toml.Document

/-!
# Configuration files

A file is looked for under its path, then under its path with the extension `toml` added. The bytes
are decoded leniently, a byte order mark in front being dropped.
-/
set_option autoImplicit false

namespace HeaderRename

/-- Why the layers cannot be put together. -/
inductive SourceFault where
  | malformed (path : Option String)
  | missing (path : String)
deriving DecidableEq, Repr

inductive Source where
  | text (content : String)
  | file (path : String)
  | optionalFile (path : String)
deriving DecidableEq, Repr

namespace Source

/-- The path without its steps `.`, which is how a file is spoken of. -/
def tidy (path : String) : String :=
  let names := (Path.steps path).filter (· != ".")
  (if Path.isAbsolute path then "/" else "") ++ Path.ofNames names

/-- The path up to its last name, without the slashes and steps `.` behind it. -/
def dropTrailing : Nat → List Char → List Char
  | 0, reversed => reversed
  | fuel + 1, reversed =>
    match reversed with
    | '/' :: rest => dropTrailing fuel rest
    | '.' :: '/' :: rest => dropTrailing fuel rest
    | reversed => reversed

/-- The path with the extension that is tried when there is no file under the path itself; none for
a path that does not end in a name. -/
def withExtension? (path : String) : Option String :=
  match Path.lastName? path with
  | none => none
  | some _ =>
    let reversed := path.toList.reverse
    let kept := (dropTrailing reversed.length reversed).reverse
    some (String.ofList kept ++ ".toml")

/-- The path under which a file is found. -/
def locate? (disk : Disk) (path : String) : Option String :=
  if disk.isFile path then some path
  else (withExtension? path).filter disk.isFile

def dropMark (bytes : List UInt8) : List UInt8 :=
  match bytes with
  | 0xEF :: 0xBB :: 0xBF :: rest => rest
  | bytes => bytes

def readText (origin : Origin) (text : List Char) :
    Except SourceFault (List (String × Setting)) :=
  match Toml.parse? origin text with
  | some entries => .ok entries
  | none => .error (.malformed origin)

def readPath (disk : Disk) (path : String) : Except SourceFault (List (String × Setting)) :=
  match locate? disk path with
  | none => .error (.missing path)
  | some found =>
    match disk.read found with
    | .error _ => .error (.missing path)
    | .ok bytes => readText (some (tidy found)) (Utf8.decodeMarking (dropMark bytes))

/-- The entries that a source gives; an optional file that is missing gives none. -/
def read (disk : Disk) : Source → Except SourceFault (List (String × Setting))
  | text content => readText none content.toList
  | file path => readPath disk path
  | optionalFile path => if (locate? disk path).isSome then readPath disk path else .ok []

/-- The settings with those of a source merged in, each under its own name. -/
def apply (disk : Disk) (root : Setting) (source : Source) : Except SourceFault Setting := do
  let entries ← source.read disk
  return entries.foldl (fun root (key, value) => root.setNamed key value) root

end Source

end HeaderRename
