import HeaderRename.Discovery.View
import HeaderRename.Ignore.Level
import HeaderRename.Pattern.Glob.Match

/-!
# Walking directories

A walk goes through a view in order, a folder's entries by name, and lists the files whose name
matches a pattern. Ignore rules are asked first, then hidden names are dropped unless a rule keeps
them, then folders to be skipped; what is dropped is not entered. The root is never dropped, and one
that is missing ends the walk.
-/
set_option autoImplicit false

namespace HeaderRename

structure WalkOptions where
  followLinks : Bool
  includeHidden : Bool
  respectGitignore : Bool
  skipDirs : List String
deriving DecidableEq, Repr

/-- What a walk comes to: a file, or a link that ends it. -/
inductive Visit where
  | file (path name : String)
  | broken (path : String) (reason : BrokenLink)
deriving DecidableEq, Repr

namespace Walk

def isHidden (name : String) : Bool :=
  name.toList.head? == some '.'

def verdict? (options : WalkOptions) (levels : List Ignore.Level) (path : String)
    (isFolder : Bool) : Option Ignore.Verdict :=
  if options.respectGitignore then Ignore.Level.verdict? levels path isFolder else none

def admits (options : WalkOptions) (levels : List Ignore.Level) (path name : String)
    (isFolder : Bool) : Bool :=
  let verdict := verdict? options levels path isFolder
  verdict != some .ignored &&
    (options.includeHidden || verdict == some .kept || !isHidden name) &&
    !(isFolder && options.skipDirs.contains name)

def below (disk : Disk) (options : WalkOptions) (levels : List Ignore.Level) (path : String) :
    List Ignore.Level :=
  if options.respectGitignore then Ignore.Level.ofDirectory disk path :: levels else []

mutual

def visits (disk : Disk) (options : WalkOptions) (levels : List Ignore.Level) :
    View → List Visit
  | .broken path _ reason => [.broken path reason]
  | .leaf path name isFile =>
    if isFile && admits options levels path name false then [.file path name] else []
  | .folder path name children =>
    if admits options levels path name true then
      visitsOf disk options (below disk options levels path) children
    else []

def visitsOf (disk : Disk) (options : WalkOptions) (levels : List Ignore.Level) :
    List View → List Visit
  | [] => []
  | view :: views => visits disk options levels view ++ visitsOf disk options levels views

end

/-- The visits below a root, which itself is entered whatever its name. -/
def visitsFrom (disk : Disk) (options : WalkOptions) : View → List Visit
  | .folder path _ children => visitsOf disk options (below disk options [] path) children
  | view => visits disk options [] view

/-- A root named by a lone dash stands for standard input, where nothing is to be found. -/
def isDash (root : String) : Bool :=
  root.toList.head? == some '-' && (Path.steps root).filter (· != ".") == ["-"]

def fileName (path : String) : String :=
  (Path.lastName? path).getD path

/-- A root that is a file is all that there is to visit. -/
def rootVisits (disk : Disk) (options : WalkOptions) (root : String) : List Visit :=
  if isDash root then []
  else
    match disk.stat root with
    | .ok (.directory place) =>
      visitsFrom disk options (View.ofRoot disk options.followLinks root place)
    | .ok (.file ..) => [.file root (fileName root)]
    | _ => []

/-- The paths of the files up to the first broken link, and that link. -/
def untilBroken (accepts : String → Bool) :
    List Visit → List String × Option (String × BrokenLink)
  | [] => ([], none)
  | .broken path reason :: _ => ([], some (path, reason))
  | .file path name :: visits =>
    let (paths, stop) := untilBroken accepts visits
    (if accepts name then path :: paths else paths, stop)

/-- The files listed before the walk ended, and the error that ended it, if one did. -/
structure Result where
  files : List String
  error : Option DiscoveryError
deriving DecidableEq, Repr

def walkRoots (disk : Disk) (options : WalkOptions) (accepts : String → Bool) :
    List String → Result
  | [] => ⟨[], none⟩
  | root :: roots =>
    if disk.pathExists root then
      match untilBroken accepts (rootVisits disk options root) with
      | (paths, some (path, reason)) => ⟨paths, some (.walk root (reason.message path))⟩
      | (paths, none) =>
        let rest := walkRoots disk options accepts roots
        { rest with files := paths ++ rest.files }
    else ⟨[], some (.rootNotFound root)⟩

def files (disk : Disk) (options : WalkOptions) (pattern : String) (roots : List String) :
    Result :=
  match Glob.compile pattern with
  | .error fault => ⟨[], some (.invalidPattern pattern fault.message)⟩
  | .ok expr => walkRoots disk options (fun name => expr.accepts name.toList) roots

end Walk

end HeaderRename
