import HeaderRename.Pattern.Glob.Parser
import HeaderRename.Pattern.Glob.Wellformed
import HeaderRename.Pattern.Regular
import HeaderRename.Text.CaseFold

/-!
# Matching names

A well-formed pattern becomes a regular expression over characters. What a tree wildcard stands for
depends on where it stands in the whole pattern; a token inside a group stands where the outermost
group does. Whether a class regards case is settled by the last literal before it in its group.
-/
set_option autoImplicit false

namespace HeaderRename.Glob

inductive Position where
  | only
  | first
  | middle
  | last
deriving DecidableEq

def Position.of (isFirst isLast : Bool) : Position :=
  match isFirst, isLast with
  | true, true => only
  | true, false => first
  | false, false => middle
  | false, true => last

abbrev NameExpr := Regular Char

namespace NameExpr

def char (c : Char) : NameExpr :=
  .symbol (· == c)

def nameChar : NameExpr :=
  .symbol (· != '/')

/-- Any text without a line break. -/
def line : NameExpr :=
  .star (.symbol (· != '\n'))

def slash : NameExpr :=
  char '/'

def literal (caseless : Bool) (text : List Char) : NameExpr :=
  .sequence (text.map fun c => .symbol fun d => if caseless then CaseFold.same c d else c == d)

def tree (position : Position) (rooted : Bool) : NameExpr :=
  match position with
  | .only => line
  | .first =>
    if rooted then .sequence [slash, line, .optional slash]
    else .alt (.optional slash) (.seq line slash)
  | .middle => .alt slash (.sequence [slash, line, slash])
  | .last => .alt (.optional slash) (.seq slash line)

def covers (caseless : Bool) (items : List (Char × Char)) (c : Char) : Bool :=
  let candidates := if caseless then CaseFold.orbit c else [c]
  items.any fun (first, last) => candidates.any fun d => first ≤ d && d ≤ last

/-- A class with a range that runs backwards matches nothing. -/
def oneOf (caseless negated : Bool) (items : List (Char × Char)) : NameExpr :=
  if items.any fun (first, last) => last < first then .never
  else .symbol fun c => (covers caseless items c && c != '/') != negated

mutual

def ofToken (position : Position) (caseless : Bool) : Token → NameExpr
  | .literal text folded => literal folded text
  | .separator => slash
  | .one => nameChar
  | .many => .star nameChar
  | .tree rooted => tree position rooted
  | .oneOf negated items => oneOf caseless negated items
  | .alternatives branches => ofBranches position caseless branches
  | .repetition body lower upper =>
    .repeated (ofTokens (some position) caseless true body) lower upper

def ofTokens (outer : Option Position) (caseless isFirst : Bool) : List Token → NameExpr
  | [] => .nothing
  | token :: tokens =>
    let position := outer.getD (Position.of isFirst tokens.isEmpty)
    let caselessNext := match token with
      | .literal _ folded => folded
      | _ => caseless
    .seq (ofToken position caseless token) (ofTokens outer caselessNext false tokens)

def ofBranches (position : Position) (caseless : Bool) : List (List Token) → NameExpr
  | [] => .never
  | branch :: branches =>
    .alt (ofTokens (some position) caseless true branch) (ofBranches position caseless branches)

end

end NameExpr

/-- The expression of a pattern, or the first reason to refuse it. -/
def compile (pattern : String) : Except Fault NameExpr := do
  let tokens ← parse pattern.toList
  match fault? tokens with
  | some fault => throw fault
  | none => return NameExpr.ofTokens none false true tokens

end HeaderRename.Glob
