import HeaderRename.Pattern.Glob.Token

/-!
# Well-formed name patterns

A pattern that can be read is still refused when two boundaries or two many-wildcards meet, also
across the edge of a group, when a group is a lone wildcard, when a branch brings a root of its own,
when bounds are empty, or when a part of fixed length is too long.
-/
set_option autoImplicit false

namespace HeaderRename.Glob

namespace Token

mutual

def meetingBoundaries : Token → Bool
  | alternatives branches => anyMeetingBoundaries branches
  | repetition body _ _ => meetingBoundariesIn false body
  | _ => false

/-- `after` tells whether the token before the list is a boundary. -/
def meetingBoundariesIn (after : Bool) : List Token → Bool
  | [] => false
  | token :: tokens =>
    (after && token.isBoundary) || meetingBoundaries token ||
      meetingBoundariesIn token.isBoundary tokens

def anyMeetingBoundaries : List (List Token) → Bool
  | [] => false
  | branch :: branches => meetingBoundariesIn false branch || anyMeetingBoundaries branches

end

mutual

def emptyBounds : Token → Bool
  | alternatives branches => anyEmptyBounds branches
  | repetition body lower upper =>
    (match upper with
      | some upper => upper == 0 || upper < lower
      | none => false) || emptyBoundsIn body
  | _ => false

def emptyBoundsIn : List Token → Bool
  | [] => false
  | token :: tokens => emptyBounds token || emptyBoundsIn tokens

def anyEmptyBounds : List (List Token) → Bool
  | [] => false
  | branch :: branches => emptyBoundsIn branch || anyEmptyBounds branches

end

/-- The nearest tokens on both sides of a group. -/
structure Outer where
  left : Option Token
  right : Option Token

namespace Outer

def leftEndsWith (outer : Outer) (p : Token → Bool) : Bool :=
  (outer.left.map (endsWith p)).getD false

def rightStartsWith (outer : Outer) (p : Token → Bool) : Bool :=
  (outer.right.map (startsWith p)).getD false

end Outer

def isTree : Token → Bool
  | tree _ => true
  | _ => false

def isSeparator : Token → Bool
  | separator => true
  | _ => false

/-- What is wrong with a branch from `first` to `last` between its outer neighbours. -/
def edgeFault (outer : Outer) (single : Bool) (first last : Token) : Option Fault :=
  if first.isSeparator && outer.leftEndsWith isBoundary then some .adjacentBoundaries
  else if last.isSeparator && outer.rightStartsWith isBoundary then some .adjacentBoundaries
  else if single && first.isTree then some .singularTree
  else if first.isTree && outer.leftEndsWith isBoundary then some .adjacentBoundaries
  else if last.isTree && outer.rightStartsWith isBoundary then some .adjacentBoundaries
  else if first.isMany && outer.leftEndsWith isMany then some .adjacentManys
  else if last.isMany && outer.rightStartsWith isMany then some .adjacentManys
  else none

def alternativeFault (outer : Outer) (first : Token) : Option Fault :=
  if first.isRoot && outer.left.isNone then some .overlappingRoots else none

def repetitionFault (outer : Outer) (lower : Nat) (single : Bool) (first last : Token) :
    Option Fault :=
  if first.isRoot && outer.left.isNone && lower == 0 then some .overlappingRoots
  else if first.isBoundary && last.isBoundary then some .adjacentBoundaries
  else if single && first.isMany then some .singularMany
  else if first.isMany && last.isMany then some .adjacentManys
  else none

def ofEdges (branch : List Token) (check : Bool → Token → Token → Option Fault) : Option Fault :=
  match branch.head?, branch.getLast? with
  | some first, some last => check (branch.length == 1) first last
  | _, _ => none

mutual

def groupFault (outer : Outer) : Token → Option Fault
  | alternatives branches => branchesFault outer branches
  | repetition body lower _ =>
    (ofEdges body fun single first last =>
      (edgeFault outer single first last).or (repetitionFault outer lower single first last)).or
      (groupFaultIn outer none body)
  | _ => none

/-- `before` is the token before the list, if there is one in the same pattern. -/
def groupFaultIn (outer : Outer) (before : Option Token) : List Token → Option Fault
  | [] => none
  | token :: tokens =>
    (groupFault ⟨before.or outer.left, tokens.head?.or outer.right⟩ token).or
      (groupFaultIn outer (some token) tokens)

def branchesFault (outer : Outer) : List (List Token) → Option Fault
  | [] => none
  | branch :: branches =>
    ((ofEdges branch fun single first last =>
      (edgeFault outer single first last).or (alternativeFault outer first)).or
      (groupFaultIn outer none branch)).or (branchesFault outer branches)

end

def sizeLimit : Nat := 65536

mutual

/-- The length in bytes of all texts that a token matches, where they have one length. -/
def fixedSize : Token → Option Nat
  | literal text caseless => if caseless then none else some (String.ofList text).utf8ByteSize
  | separator => some 1
  | alternatives branches => commonSize branches
  | repetition body lower upper =>
    match upper, totalSize body with
    | some upper, some size => if lower = upper then some (lower * size) else none
    | _, _ => none
  | _ => none

def totalSize : List Token → Option Nat
  | [] => some 0
  | token :: tokens =>
    match fixedSize token, totalSize tokens with
    | some a, some b => some (a + b)
    | _, _ => none

def commonSize : List (List Token) → Option Nat
  | [] => none
  | [branch] => totalSize branch
  | branch :: branches =>
    match totalSize branch, commonSize branches with
    | some a, some b => if a = b then some a else none
    | _, _ => none

end

def isOversized (size : Option Nat) : Bool :=
  (size.map fun n => decide (sizeLimit ≤ n)).getD false

mutual

def oversized : Token → Bool
  | alternatives branches => isOversized (commonSize branches) || anyOversized branches
  | repetition body lower upper =>
    isOversized (fixedSize (repetition body lower upper)) || oversizedIn body
  | token => isOversized (fixedSize token)

def oversizedIn : List Token → Bool
  | [] => false
  | token :: tokens => oversized token || oversizedIn tokens

def anyOversized : List (List Token) → Bool
  | [] => false
  | branch :: branches =>
    isOversized (totalSize branch) || oversizedIn branch || anyOversized branches

end

end Token

/-- The first rule that a pattern breaks. -/
def fault? (tokens : List Token) : Option Fault :=
  if Token.meetingBoundariesIn false tokens then some .adjacentBoundaries
  else if Token.emptyBoundsIn tokens then some .bounds
  else
    match Token.groupFaultIn ⟨none, none⟩ none tokens with
    | some fault => some fault
    | none =>
      if Token.isOversized (Token.totalSize tokens) || Token.oversizedIn tokens then
        some .oversized
      else none

end HeaderRename.Glob
