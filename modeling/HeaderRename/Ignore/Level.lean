import HeaderRename.Disk.Resolve
import HeaderRename.Ignore.Rule

/-!
# Ignore rules along a walk

Each directory on the way down is a level with its own rules and those of its repository's exclude
file. Rules count only where a repository is at or above the directory within the walk, and levels
above the nearest repository do not count. The nearest level that decides wins; exclude files are
asked after all ignore files. An excludes file of the user, which would be asked last of all, lies
outside the disk and is taken to be absent.
-/
set_option autoImplicit false

namespace HeaderRename.Ignore

structure Level where
  isRepository : Bool
  own : RuleFile
  excluded : RuleFile

def readRules (disk : Disk) (root path : String) : RuleFile :=
  match disk.read path with
  | .ok bytes => .ofBytes root bytes
  | .error _ => ⟨root, []⟩

def firstLine? (disk : Disk) (path : String) : Option (List Char) :=
  match disk.read path with
  | .error _ => none
  | .ok bytes => (byteLines bytes).head?.bind Utf8.decode?

/-- Where the exclude file of a repository is; a file in place of the repository points to it. -/
def repositoryPath? (disk : Disk) (path : String) : Option String :=
  let dotGit := Path.join path ".git"
  if !disk.isFile dotGit then some dotGit
  else do
    let line ← firstLine? disk dotGit
    let real := String.ofList (← stripText "gitdir: ".toList line)
    let common ← firstLine? disk (Path.join real "commondir")
    if common.head? = some '.' then return Path.join real (String.ofList common)
    else return String.ofList common

namespace Level

def ofDirectory (disk : Disk) (path : String) : Level where
  isRepository :=
    disk.pathExists (Path.join path ".git") || disk.pathExists (Path.join path ".jj")
  own := readRules disk path (Path.join path ".gitignore")
  excluded :=
    match repositoryPath? disk path with
    | some repository => readRules disk path (Path.join (Path.join repository "info") "exclude")
    | none => ⟨path, []⟩

/-- The levels that count, nearest first: up to the nearest repository, if there is one. -/
def upToRepository : List Level → Option (List Level)
  | [] => none
  | level :: levels =>
    if level.isRepository then some [level]
    else (upToRepository levels).map (level :: ·)

def verdict? (levels : List Level) (path : String) (isDirectory : Bool) : Option Verdict :=
  match upToRepository levels with
  | none => none
  | some levels =>
    (levels.findSome? fun level => level.own.verdict? path isDirectory).or
      (levels.findSome? fun level => level.excluded.verdict? path isDirectory)

end Level

end HeaderRename.Ignore
