/-!
# Name patterns

A name pattern is a list of tokens. Groups hold patterns of their own, so a token is a tree; the
functions at the end look at the tokens on the outer edges of such a tree.
-/
set_option autoImplicit false

namespace HeaderRename.Glob

inductive Token where
  | literal (text : List Char) (caseless : Bool)
  | separator
  | one
  | many
  | tree (rooted : Bool)
  | oneOf (negated : Bool) (items : List (Char × Char))
  | alternatives (branches : List (List Token))
  | repetition (body : List Token) (lower : Nat) (upper : Option Nat)

inductive Fault where
  | unreadable
  | overlappingRoots
  | singularTree
  | singularMany
  | adjacentBoundaries
  | adjacentManys
  | oversized
  | bounds
deriving DecidableEq, Repr

namespace Fault

def message : Fault → String
  | unreadable => "failed to parse glob expression"
  | overlappingRoots => malformed "uncertain or overlapping roots in branch"
  | singularTree => malformed "singular tree wildcard `**` in branch"
  | singularMany => malformed "singular zero-or-more wildcard `*` or `$` in branch"
  | adjacentBoundaries => malformed "adjacent component boundaries `/` or `**`"
  | adjacentManys => malformed "adjacent zero-or-more wildcards `*` or `$`"
  | oversized => malformed "oversized invariant expression"
  | bounds => malformed "incompatible repetition bounds"
where
  malformed (text : String) : String := "malformed glob expression: " ++ text

end Fault

namespace Token

def isBoundary : Token → Bool
  | separator => true
  | tree _ => true
  | _ => false

def isMany : Token → Bool
  | many => true
  | _ => false

def isRoot : Token → Bool
  | separator => true
  | tree rooted => rooted
  | _ => false

mutual

/-- Whether the token, or one at the start of a group at its start, has the property. -/
def startsWith (p : Token → Bool) : Token → Bool
  | alternatives branches => p (alternatives branches) || anyStartsWith p branches
  | repetition body lower upper => p (repetition body lower upper) || headStartsWith p body
  | token => p token

def headStartsWith (p : Token → Bool) : List Token → Bool
  | [] => false
  | token :: _ => startsWith p token

def anyStartsWith (p : Token → Bool) : List (List Token) → Bool
  | [] => false
  | branch :: branches => headStartsWith p branch || anyStartsWith p branches

end

mutual

/-- Whether the token, or one at the end of a group at its end, has the property. -/
def endsWith (p : Token → Bool) : Token → Bool
  | alternatives branches => p (alternatives branches) || anyEndsWith p branches
  | repetition body lower upper => p (repetition body lower upper) || lastEndsWith p false body
  | token => p token

def lastEndsWith (p : Token → Bool) (answer : Bool) : List Token → Bool
  | [] => answer
  | token :: tokens => lastEndsWith p (endsWith p token) tokens

def anyEndsWith (p : Token → Bool) : List (List Token) → Bool
  | [] => false
  | branch :: branches => lastEndsWith p false branch || anyEndsWith p branches

end

end Token

end HeaderRename.Glob
