/-!
# Path texts

A path is kept as the text in which it was given. Its steps are the names between slashes; a
trailing slash asks for a directory and reads as a last step `.`.
-/
set_option autoImplicit false

namespace HeaderRename

namespace Path

def isAbsolute (path : String) : Bool :=
  path.toList.head? == some '/'

/-- The steps of a path without the one that a trailing slash adds. -/
def names (path : String) : List String :=
  ((List.splitOn '/' path.toList).filter (!·.isEmpty)).map String.ofList

def steps (path : String) : List String :=
  if (List.splitOn '/' path.toList).getLast? == some [] && !(names path).isEmpty then
    names path ++ ["."]
  else names path

/-- The path of an entry of a directory; no second slash is written. -/
def join (directory name : String) : String :=
  if directory.isEmpty || directory.toList.getLast? == some '/' then directory ++ name
  else directory ++ "/" ++ name

def isName (name : String) : Bool :=
  name != "" && name != "." && name != ".." && !name.toList.contains '/'

def ofNames (names : List String) : String :=
  "/".intercalate names

/-- The last name of a path, when it ends in one: trailing slashes and `.` steps are passed over. -/
def lastName? (path : String) : Option String :=
  match ((steps path).filter (· != ".")).getLast? with
  | some ".." => none
  | other => other

def isIdle (piece : List Char) : Bool :=
  piece.isEmpty || piece == ['.']

/-- The pieces up to the last that names a step. -/
def trimIdle (pieces : List (List Char)) : List (List Char) :=
  (pieces.reverse.dropWhile isIdle).reverse

/-- The path without its last step; a single relative step has none above it. -/
def parent? (path : String) : Option String :=
  match List.splitOn '/' path.toList with
  | [] => none
  | first :: rest =>
    let rest := trimIdle rest
    if rest.isEmpty then none
    else
      match first, trimIdle rest.dropLast with
      | [], [] => some "/"
      | first, rest =>
        some ("/".intercalate ((first :: rest).map String.ofList))

end Path

end HeaderRename
