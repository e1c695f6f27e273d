import HeaderRename.Disk.Path
import HeaderRename.Ignore.Glob
import HeaderRename.Text.Blank
import HeaderRename.Text.Utf8

/-!
# Ignore files

A line of an ignore file is a rule that ignores the paths it matches, or keeps them after an
exclamation mark. The last rule that matches a path decides. Paths are taken relative to the
directory of the file, by their texts.
-/
set_option autoImplicit false

namespace HeaderRename.Ignore

inductive Verdict where
  | ignored
  | kept
deriving DecidableEq, Repr

structure Rule where
  verdict : Verdict
  directoriesOnly : Bool
  expr : PathExpr

structure RuleFile where
  root : String
  rules : List Rule

namespace Rule

/-- What a line asks for, before its glob is read. -/
structure Draft where
  verdict : Verdict
  directoriesOnly : Bool
  glob : List Char

def endsWithAll (ending text : List Char) : Bool :=
  ending.reverse.isPrefixOf text.reverse

/-- A trailing slash asks for directories; a backslash before it goes with it. -/
def splitDirectories (text : List Char) : Bool × List Char :=
  match text.reverse with
  | '/' :: '\\' :: rest => (true, rest.reverse)
  | '/' :: rest => (true, rest.reverse)
  | _ => (false, text)

/-- A glob without a slash may match at any depth; one ending in `/**` does not match the directory
itself. -/
def widen (anchored : Bool) (glob : List Char) : List Char :=
  let anywhere := !anchored && !glob.contains '/' && glob != ['*', '*']
  let glob := if anywhere then ['*', '*', '/'] ++ glob else glob
  if endsWithAll ['/', '*', '*'] glob then glob ++ ['/', '*'] else glob

def draft? (line : List Char) : Option Draft :=
  if line.head? = some '#' then none
  else
    let line := if endsWithAll ['\\', ' '] line then line else Blank.trimRight line
    if line.isEmpty then none
    else
      let (verdict, anchored, text) := match line with
        | '\\' :: '!' :: rest => (Verdict.ignored, false, '!' :: rest)
        | '\\' :: '#' :: rest => (Verdict.ignored, false, '#' :: rest)
        | '!' :: '/' :: rest => (Verdict.kept, true, rest)
        | '!' :: rest => (Verdict.kept, false, rest)
        | '/' :: rest => (Verdict.ignored, true, rest)
        | rest => (Verdict.ignored, false, rest)
      let (directoriesOnly, glob) := splitDirectories text
      some { verdict, directoriesOnly, glob := widen anchored glob }

def ofLine? (line : List Char) : Option Rule := do
  let draft ← draft? line
  let expr ← globExpr? draft.glob
  return { verdict := draft.verdict, directoriesOnly := draft.directoriesOnly, expr }

end Rule

/-- The lines of a file, each without its line end; the last needs none. -/
def byteLines (bytes : List UInt8) : List (List UInt8) :=
  let pieces := List.splitOn 0x0A bytes
  let ended := pieces.dropLast.map fun line =>
    if line.getLast? = some 0x0D then line.dropLast else line
  match pieces.getLast? with
  | some (b :: last) => ended ++ [b :: last]
  | _ => ended

/-- The rules of a file up to the first line that is no text. -/
def rulesOf (first : Bool) : List (List UInt8) → List Rule
  | [] => []
  | line :: lines =>
    match Utf8.decode? line with
    | none => []
    | some text =>
      let text := if first then text.dropWhile (· == '\uFEFF') else text
      match Rule.ofLine? text with
      | some rule => rule :: rulesOf false lines
      | none => rulesOf false lines

def stripText (beginning text : List Char) : Option (List Char) :=
  if beginning.isPrefixOf text then some (text.drop beginning.length) else none

def dropHere (path : List Char) : List Char :=
  (stripText ['.', '/'] path).getD path

namespace RuleFile

def ofBytes (root : String) (bytes : List UInt8) : RuleFile where
  root := root
  rules := rulesOf true (byteLines bytes)

/-- The path as the rules of the file see it. -/
def relative (file : RuleFile) (path : String) : List Char :=
  let path := dropHere path.toList
  let root := dropHere file.root.toList
  let isHere := root.head? = some '.' && (Path.steps (String.ofList root)).all (· == ".")
  if isHere || !path.contains '/' then path
  else
    match stripText root path with
    | none => path
    | some rest => (stripText ['/'] rest).getD rest

def verdict? (file : RuleFile) (path : String) (isDirectory : Bool) : Option Verdict :=
  let bytes := Utf8.write (file.relative path)
  (file.rules.reverse.find? fun rule =>
    (!rule.directoriesOnly || isDirectory) && rule.expr.accepts bytes).map (·.verdict)

end RuleFile

end HeaderRename.Ignore
