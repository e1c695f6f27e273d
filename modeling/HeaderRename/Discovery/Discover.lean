import HeaderRename.Discovery.Listing
import HeaderRename.Discovery.Walk
import HeaderRename.Log.Event

/-!
# Discovering files

The roots are checked first, all of them and in order. Then the files below them are found by a walk
or by the listing command; the command knows no hidden names, ignore rules or folders to skip, and
each such setting that differs from its default is warned of. The command is given the roots as they
are, and may take one of them for a part of its expression.
-/
set_option autoImplicit false

namespace HeaderRename

inductive Backend where
  | walk
  | find
deriving DecidableEq, Repr

namespace Backend

def name : Backend → String
  | walk => "walk"
  | find => "find"

end Backend

/-- What is to be found, and the listing command, if the system has one. Roots are paths from the
working directory. -/
structure Search where
  roots : List String
  pattern : String
  backend : Backend
  options : WalkOptions
  command : Option Finder

/-- What a search leaves: the disk, which the listing command may have changed, and what is
found. -/
structure Discovered where
  disk : Disk
  events : List Event
  result : Except Error (List String)

namespace Search

def rootFault? (disk : Disk) (root : String) : Option DiscoveryError :=
  match disk.stat root with
  | .error _ => some (.rootNotFound root)
  | .ok (.directory _) => none
  | .ok _ => some (.notADirectory root)

def unsupported (options : WalkOptions) : List String :=
  (if options.includeHidden then [] else ["discovery.include_hidden"]) ++
    (if options.respectGitignore then ["discovery.respect_gitignore"] else []) ++
    (if options.skipDirs.isEmpty then [] else ["discovery.skip_dirs"])

def matchedEvent (path : String) : Event :=
  ⟨.trace, "utility::fs::walk", "matched", [("path", path)]⟩

def unsupportedEvent (option : String) : Event :=
  ⟨.warn, "discovery", "not supported by the find backend, ignored",
    [("option", Quoted.quote option)]⟩

def runningEvent (shown : String) : Event :=
  ⟨.debug, "discovery", "running find", [("command", shown)]⟩

def discoveredEvent (search : Search) (count : Nat) : Event :=
  ⟨.debug, "discovery", "discovered files",
    [("count", toString count), ("backend", search.backend.name),
      ("pattern", Quoted.quote search.pattern)]⟩

/-- How a command is shown: the program and its arguments, each in quotes. -/
def showCommand (program : String) (args : List String) : String :=
  " ".intercalate ((program :: args).map (Quoted.quoteWith .escaped))

def walk (disk : Disk) (search : Search) : Discovered :=
  let found := Walk.files disk search.options search.pattern search.roots
  let events := found.files.map matchedEvent
  match found.error with
  | some error => ⟨disk, events, .error (.discovery error)⟩
  | none => ⟨disk, events, .ok found.files⟩

def list (disk : Disk) (search : Search) : Discovered :=
  let warnings := (unsupported search.options).map unsupportedEvent
  match search.command with
  | none => ⟨disk, warnings, .error (.process (.executableNotFound "find"))⟩
  | some finder =>
    let args := Listing.arguments search.options.followLinks search.roots search.pattern
    let shown := showCommand finder.program args
    let events := warnings ++ [runningEvent shown]
    let answer := finder.run disk args
    if answer.code = 0 then ⟨answer.disk, events, .ok (Listing.parseOutput answer.output)⟩
    else ⟨answer.disk, events, .error (.process (.nonZeroExit shown answer.code ""))⟩

def run (disk : Disk) (search : Search) : Discovered :=
  if search.roots.isEmpty then ⟨disk, [], .error (.discovery .noRoots)⟩
  else
    match search.roots.findSome? (rootFault? disk) with
    | some fault => ⟨disk, [], .error (.discovery fault)⟩
    | none =>
      let found := match search.backend with
        | .walk => search.walk disk
        | .find => search.list disk
      match found.result with
      | .error error => ⟨found.disk, found.events, .error error⟩
      | .ok files =>
        ⟨found.disk, found.events ++ [search.discoveredEvent files.length], .ok files⟩

end Search

end HeaderRename
