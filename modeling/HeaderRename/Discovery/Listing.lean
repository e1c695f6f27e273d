import HeaderRename.Discovery.Expression
import HeaderRename.Discovery.View
import HeaderRename.Text.Utf8

/-!
# Listing by an external command

The command lists what the expression picks, directories and links included, one path to a line, and
deletes what it is told to. Names are matched byte by byte, as in the C locale, and the entries of a
directory are met in the order of their names; a system may keep them in another. The output is read
back line by line: carriage returns at the end of a line and blank lines are dropped.
-/
set_option autoImplicit false

namespace HeaderRename

namespace Listing

/-- The files that the command may be, one in each directory of a search path. -/
def candidates (searchPath : Option String) : List String :=
  match searchPath with
  | none => []
  | some path =>
    (List.splitOn ':' path.toList).map fun directory => Path.join (String.ofList directory) "find"

/-- The command's file: the first that can be executed. -/
def locate? (searchPath : Option String) (executable : String → Bool) : Option String :=
  (candidates searchPath).find? executable

/-- An entry as the expression sees it; a start point has no directory in which it was met. -/
structure Item where
  path : String
  name : String
  directory : Option Place

structure Effect where
  disk : Disk
  value : Bool
  printed : List String
  pruned : Bool
  quit : Bool
  failed : Bool

def baseName (path : String) : String :=
  (Path.names path).getLast?.getD path

/-- The place of the entry that a start point names. It has to be named in its directory, and what a
trailing slash stands behind has to be a directory itself. -/
def startPlace? (disk : Disk) (path : String) : Option Place :=
  match (Path.names path).getLast? with
  | none => none
  | some name =>
    if !Path.isName name || Path.isAbsolute path then none
    else
      match disk.resolveFrom true Disk.linkLimit [] (Path.names path).dropLast with
      | .ok (.directory place) =>
        let place := place ++ [name]
        if path.toList.getLast? == some '/' && disk.get? place != some .directory then none
        else some place
      | _ => none

namespace Item

def place? (disk : Disk) (item : Item) : Option Place :=
  match item.directory with
  | some directory => some (directory ++ [item.name])
  | none => startPlace? disk item.path

/-- The disk without the entry; the working directory itself is passed over. -/
def delete? (disk : Disk) (item : Item) : Option Disk :=
  if item.path = "." then some disk else (item.place? disk).bind disk.unlink?

end Item

namespace Effect

/-- An effect that is only a truth value. -/
def truth (disk : Disk) (value : Bool) : Effect :=
  ⟨disk, value, [], false, false, false⟩

/-- The second part of a compound, unless the listing was quit in the first. -/
def andThen (first : Effect) (second : Disk → Effect) : Effect :=
  if first.quit then first
  else
    let second := second first.disk
    { second with
      printed := first.printed ++ second.printed
      pruned := first.pruned || second.pruned
      failed := first.failed || second.failed }

end Effect

def Expr.eval (item : Item) (disk : Disk) : Expr → Effect
  | name pattern =>
    let expr := Shell.expr (Utf8.write pattern.toList)
    .truth disk (expr.accepts (Utf8.write item.name.toList))
  | constant value => .truth disk value
  | print => { Effect.truth disk true with printed := [item.path] }
  | delete =>
    match item.delete? disk with
    | some disk => .truth disk true
    | none => { Effect.truth disk false with failed := true }
  | prune => { Effect.truth disk true with pruned := true }
  | quit => { Effect.truth disk true with quit := true }
  | not e =>
    let effect := eval item disk e
    { effect with value := !effect.value }
  | and a b =>
    let first := eval item disk a
    if first.value then first.andThen fun disk => eval item disk b else first
  | or a b =>
    let first := eval item disk a
    if first.value then first else first.andThen fun disk => eval item disk b
  | both a b => (eval item disk a).andThen fun disk => eval item disk b

/-- What has become of the disk, what has been printed, whether something has failed, and whether
the listing is over. -/
structure State where
  disk : Disk
  printed : List String
  failed : Bool
  quit : Bool

def visit (query : Query) (item : Item) (state : State) : State × Bool :=
  let effect := query.expr.eval item state.disk
  let printed :=
    if query.expr.acts then effect.printed
    else if effect.value && !effect.quit then [item.path] else []
  ({ disk := effect.disk
     printed := state.printed ++ printed
     failed := state.failed || effect.failed
     quit := effect.quit }, effect.pruned)

mutual

/-- Lists a view. Its place is the one of a folder, which the entries below it are deleted from;
where links are entered nothing is deleted, and places have no part. -/
def list (query : Query) (directory : Option Place) (place : Place) (state : State) : View → State
  | .leaf path name _ =>
    if state.quit then state else (visit query ⟨path, name, directory⟩ state).1
  | .broken path name reason =>
    if state.quit then state
    else
      match reason with
      | .unreadable .notFound => (visit query ⟨path, name, directory⟩ state).1
      | _ => { state with failed := true }
  | .folder path name children =>
    if state.quit then state
    else if query.mode.depthFirst then
      let state := listAll query place state children
      if state.quit then state else (visit query ⟨path, name, directory⟩ state).1
    else
      let (state, pruned) := visit query ⟨path, name, directory⟩ state
      if pruned then state else listAll query place state children

def listAll (query : Query) (place : Place) (state : State) : List View → State
  | [] => state
  | view :: views =>
    listAll query place (list query (some place) (place ++ [view.name]) state view) views

end

/-- The place and the view below a start point; a link is entered only when links are followed there
or a slash asks for what it leads to. -/
def startView? (disk : Disk) (links : Links) (path : String) : Option (Place × View) :=
  let name := baseName path
  let found := if links = .never then disk.lstat path else disk.stat path
  match found with
  | .ok (.directory place) =>
    let follow := links == .always
    some (place, .ofEntry disk follow (View.depthLimit disk) [] path name place .directory)
  | .ok _ => some ([], .leaf path name false)
  | .error .notFound =>
    if links ≠ .never && (disk.lstat path).isOk then some ([], .leaf path name false) else none
  | .error _ => none

def start (query : Query) (state : State) (path : String) : State :=
  if state.quit then state
  else
    match startView? state.disk query.mode.links path with
    | some (place, view) => list query none place state view
    | none => { state with failed := true }

/-- The bytes that are printed for the paths, each path on a line of its own. -/
def output (paths : List String) : List UInt8 :=
  Utf8.write (paths.flatMap fun path => path.toList ++ ['\n'])

/-- What the command leaves: the disk, its exit code, and the bytes it has printed. -/
structure Answer where
  disk : Disk
  code : Int
  output : List UInt8

/-- The answer of a command that refuses its arguments. -/
def refuse (disk : Disk) (_ : List String) : Answer :=
  ⟨disk, 1, []⟩

def Query.run (query : Query) (disk : Disk) : Answer :=
  let state := query.starts.foldl (start query) ⟨disk, [], false, false⟩
  ⟨state.disk, if state.failed then 1 else 0, output state.printed⟩

def dropReturns (line : List Char) : List Char :=
  (line.reverse.dropWhile (· == '\r')).reverse

def parseLines (text : List Char) : List String :=
  (((List.splitOn '\n' text).map dropReturns).filter (!·.isEmpty)).map String.ofList

/-- The paths in the output of a listing; invalid bytes are marked. -/
def parseOutput (bytes : List UInt8) : List String :=
  parseLines (Utf8.decodeMarking bytes)

end Listing

/-- The listing command: its file, and what it does with arguments that make no query known here, of
which nothing is taken for granted. -/
structure Finder where
  program : String
  other : Disk → List String → Listing.Answer

namespace Finder

def run (finder : Finder) (disk : Disk) (args : List String) : Listing.Answer :=
  match Listing.Query.ofArguments? args with
  | some query => query.run disk
  | none => finder.other disk args

end Finder

end HeaderRename
