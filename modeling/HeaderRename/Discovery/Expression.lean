import HeaderRename.Pattern.Shell

/-!
# Arguments of the listing command

The command reads options, then start points up to the first argument that looks like an expression,
then an expression. Start points that happen to look like an expression are read as one, and by
`-delete` such a start point changes the tree. Words are read that select, print, delete or end a
listing, and deleting only where no link is followed and nothing is pruned; whatever else the
arguments may say makes no query here. No argument of a command holds a NUL character.
-/
set_option autoImplicit false

namespace HeaderRename.Listing

inductive Expr where
  | name (pattern : String)
  | constant (value : Bool)
  | print
  | delete
  | prune
  | quit
  | not (e : Expr)
  | and (a b : Expr)
  | or (a b : Expr)
  | both (a b : Expr)

namespace Expr

/-- Whether the expression or one of its parts is such an expression. -/
def any (p : Expr → Bool) : Expr → Bool
  | not e => any p e
  | and a b => any p a || any p b
  | or a b => any p a || any p b
  | both a b => any p a || any p b
  | e => p e

/-- Whether the expression itself says what is to be done with an entry, which is printed if not. -/
def acts (e : Expr) : Bool :=
  e.any (· matches print | delete)

def deletes (e : Expr) : Bool :=
  e.any (· matches delete)

def prunes (e : Expr) : Bool :=
  e.any (· matches prune)

end Expr

/-- The links that are entered. -/
inductive Links where
  | never
  | starts
  | always
deriving DecidableEq, Repr

/-- What the expression says about the whole listing, wherever it says it. -/
structure Mode where
  links : Links
  depthFirst : Bool
deriving DecidableEq, Repr

def looksLikeExpression (leading : Bool) (arg : String) : Bool :=
  match arg.toList with
  | ['-'] => false
  | '-' :: _ => true
  | [')'] => !leading
  | [','] => !leading
  | ['('] => true
  | ['!'] => true
  | _ => false

/-- Options in front of the start points; `none` when one of them is malformed. -/
def leadingOptions (links : Links) : List String → Option (Links × List String)
  | "-H" :: rest => leadingOptions .starts rest
  | "-P" :: rest => leadingOptions .never rest
  | "-L" :: rest => leadingOptions .always rest
  | "--" :: rest => some (links, rest)
  | arg :: rest =>
    match arg.toList with
    | '-' :: 'O' :: level =>
      if level.isEmpty || 4 < level.length || !level.all Char.isDigit then none
      else leadingOptions links rest
    | _ => some (links, arg :: rest)
  | [] => some (links, [])

/-- Words that are always true, and what they set. -/
def trueWord? (mode : Mode) : String → Option Mode
  | "-d" => some { mode with depthFirst := true }
  | "-depth" => some { mode with depthFirst := true }
  | "-follow" => some { mode with links := .always }
  | word =>
    if ["-true", "-mount", "-xdev", "-noleaf", "-daystart", "-warn", "-nowarn"].contains word then
      some mode
    else none

/-- An expression read from the front of the arguments, and the mode so far. -/
structure Parsed where
  expr : Expr
  mode : Mode
  rest : List String

mutual

def parsePrimary (fuel : Nat) (mode : Mode) (args : List String) : Option Parsed :=
  match fuel with
  | 0 => none
  | fuel + 1 =>
    match args with
    | [] => none
    | "!" :: rest => (parsePrimary fuel mode rest).map fun p => { p with expr := .not p.expr }
    | "-not" :: rest => (parsePrimary fuel mode rest).map fun p => { p with expr := .not p.expr }
    | "(" :: rest =>
      match parseList fuel mode rest with
      | some ⟨expr, mode, ")" :: rest⟩ => some ⟨expr, mode, rest⟩
      | _ => none
    | "-name" :: pattern :: rest => some ⟨.name pattern, mode, rest⟩
    | "-false" :: rest => some ⟨.constant false, mode, rest⟩
    | "-print" :: rest => some ⟨.print, mode, rest⟩
    | "-delete" :: rest => some ⟨.delete, mode, rest⟩
    | "-prune" :: rest => some ⟨.prune, mode, rest⟩
    | "-quit" :: rest => some ⟨.quit, mode, rest⟩
    | word :: rest => (trueWord? mode word).map fun mode => ⟨.constant true, mode, rest⟩

def parseAnd (fuel : Nat) (mode : Mode) (args : List String) : Option Parsed :=
  match fuel with
  | 0 => none
  | fuel + 1 =>
    match parsePrimary fuel mode args with
    | none => none
    | some first =>
      let rest := match first.rest with
        | "-a" :: rest => some rest
        | "-and" :: rest => some rest
        | [] => none
        | word :: rest =>
          if ["-o", "-or", ",", ")"].contains word || !looksLikeExpression false word then none
          else some (word :: rest)
      match rest with
      | none => some first
      | some rest =>
        match parseAnd fuel first.mode rest with
        | none => none
        | some second => some { second with expr := .and first.expr second.expr }

def parseOr (fuel : Nat) (mode : Mode) (args : List String) : Option Parsed :=
  match fuel with
  | 0 => none
  | fuel + 1 =>
    match parseAnd fuel mode args with
    | none => none
    | some first =>
      match first.rest with
      | word :: rest =>
        if word == "-o" || word == "-or" then
          match parseOr fuel first.mode rest with
          | none => none
          | some second => some { second with expr := .or first.expr second.expr }
        else some first
      | [] => some first

def parseList (fuel : Nat) (mode : Mode) (args : List String) : Option Parsed :=
  match fuel with
  | 0 => none
  | fuel + 1 =>
    match parseOr fuel mode args with
    | none => none
    | some first =>
      match first.rest with
      | "," :: rest =>
        match parseList fuel first.mode rest with
        | none => none
        | some second => some { second with expr := .both first.expr second.expr }
      | _ => some first

end

structure Query where
  starts : List String
  expr : Expr
  mode : Mode

/-- The query of an expression that has been read; what is deleted is met after what is below it. -/
def Parsed.query? (parsed : Parsed) (starts : List String) : Option Query :=
  if !parsed.rest.isEmpty then none
  else if !parsed.expr.deletes then some ⟨starts, parsed.expr, parsed.mode⟩
  else if parsed.mode.links == .never && !parsed.expr.prunes then
    some ⟨starts, parsed.expr, { parsed.mode with depthFirst := true }⟩
  else none

/-- The arguments that ask for the names matching a pattern below the roots. -/
def arguments (follow : Bool) (roots : List String) (pattern : String) : List String :=
  (if follow then ["-L"] else []) ++ roots ++ ["-name", pattern]

/-- The query that the arguments make; `none` when they make none, or one that is not known. -/
def Query.ofArguments? (args : List String) : Option Query := do
  let (links, args) ← leadingOptions .never args
  let starts := args.takeWhile (!looksLikeExpression true ·)
  let words := args.dropWhile (!looksLikeExpression true ·)
  let parsed ← parseList (4 * words.length + 4) ⟨links, false⟩ words
  parsed.query? (if starts.isEmpty then ["."] else starts)

end HeaderRename.Listing
