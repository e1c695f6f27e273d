import HeaderRename.Pattern.Regular

/-!
# Shell patterns over bytes

Patterns of the shell as `find -name` reads them in the C locale: a star for any bytes, a question
mark for one, brackets for sets, a backslash before a byte that stands for itself. A bracket that is
not closed stands for itself.
-/
set_option autoImplicit false

namespace HeaderRename.Shell

abbrev ByteExpr := Regular UInt8

def ofChar (c : Char) : UInt8 :=
  UInt8.ofNat c.toNat

inductive Item where
  | span (first last : UInt8)
  | class (name : List UInt8)
deriving DecidableEq, Repr

namespace Item

def isUpper (n : Nat) : Bool := 0x41 ≤ n && n ≤ 0x5A
def isLower (n : Nat) : Bool := 0x61 ≤ n && n ≤ 0x7A
def isDigit (n : Nat) : Bool := 0x30 ≤ n && n ≤ 0x39
def isGraph (n : Nat) : Bool := 0x21 ≤ n && n ≤ 0x7E

/-- The members of a named class of bytes; nothing is in a class of another name. -/
def classHas? (name : List UInt8) : Option (Nat → Bool) :=
  let named := fun text : String => name == text.toList.map ofChar
  if named "alpha" then some fun n => isUpper n || isLower n
  else if named "digit" then some isDigit
  else if named "alnum" then some fun n => isUpper n || isLower n || isDigit n
  else if named "upper" then some isUpper
  else if named "lower" then some isLower
  else if named "space" then some fun n => n == 0x20 || (9 ≤ n && n ≤ 13)
  else if named "blank" then some fun n => n == 0x20 || n == 9
  else if named "punct" then some fun n => isGraph n && !(isUpper n || isLower n || isDigit n)
  else if named "print" then some fun n => isGraph n || n == 0x20
  else if named "graph" then some isGraph
  else if named "cntrl" then some fun n => n < 0x20 || n == 0x7F
  else if named "xdigit" then some fun n =>
    isDigit n || (0x41 ≤ n && n ≤ 0x46) || (0x61 ≤ n && n ≤ 0x66)
  else none

def has (b : UInt8) : Item → Bool
  | span first last => first ≤ b && b ≤ last
  | .class name => ((classHas? name).map (· b.toNat)).getD false

end Item

/-- The outcome of reading a bracket: a set, no closing bracket, or a set that nothing can be in. -/
inductive Bracket where
  | closed (items : List Item) (rest : List UInt8)
  | unclosed
  | hopeless

/-- The name of a class up to its closing mark. -/
def className : List UInt8 → Option (List UInt8 × List UInt8)
  | [] => none
  | b :: rest =>
    if b = ofChar ':' && rest.head? = some (ofChar ']') then some ([], rest.drop 1)
    else if ofChar 'a' ≤ b && b < ofChar 'z' then
      match className rest with
      | some (name, rest) => some (b :: name, rest)
      | none => none
    else none

/-- The name of a collating element up to its closing mark. -/
def elementName : List UInt8 → Option (List UInt8 × List UInt8)
  | [] => none
  | b :: rest =>
    if b = ofChar '.' && rest.head? = some (ofChar ']') then some ([], rest.drop 1)
    else
      match elementName rest with
      | some (name, rest) => some (b :: name, rest)
      | none => none

/-- The end of a range, behind its dash. -/
def rangeEnd : List UInt8 → Option (UInt8 × List UInt8)
  | [] => none
  | b :: rest =>
    if b = ofChar '\\' then
      match rest with
      | [] => none
      | c :: rest => some (c, rest)
    else if b = ofChar '[' && rest.head? = some (ofChar '.') then
      match elementName (rest.drop 1) with
      | some ([c], rest) => some (c, rest)
      | _ => none
    else some (b, rest)

def readBracket : Nat → Bool → List Item → List UInt8 → Bracket
  | 0, _, _, _ => .unclosed
  | _, _, _, [] => .unclosed
  | fuel + 1, first, items, b :: rest =>
    let plain := fun (b : UInt8) (rest : List UInt8) =>
      match rest with
      | dash :: next :: _ =>
        if dash = ofChar '-' && next ≠ ofChar ']' then
          match rangeEnd (rest.drop 1) with
          | some (last, rest) => readBracket fuel false (.span b last :: items) rest
          | none => .hopeless
        else readBracket fuel false (.span b b :: items) rest
      | [dash] =>
        if dash = ofChar '-' then .hopeless
        else readBracket fuel false (.span b b :: items) rest
      | [] => readBracket fuel false (.span b b :: items) rest
    if b = ofChar ']' && !first then .closed items rest
    else if b = ofChar '\\' then
      match rest with
      | [] => .hopeless
      | c :: rest => plain c rest
    else if b = ofChar '[' then
      match rest with
      | mark :: inner =>
        if mark = ofChar ':' then
          match className inner with
          | none => plain b rest
          | some (name, rest) =>
            if (Item.classHas? name).isSome then
              readBracket fuel false (.class name :: items) rest
            else .hopeless
        else if mark = ofChar '=' then
          match inner with
          | c :: eq :: close :: rest' =>
            if eq = ofChar '=' && close = ofChar ']' then
              readBracket fuel false (.span c c :: items) rest'
            else plain b rest
          | _ => plain b rest
        else if mark = ofChar '.' then
          match elementName inner with
          | some ([c], rest) => plain c rest
          | _ => .hopeless
        else plain b rest
      | [] => plain b rest
    else plain b rest

def ofSet (negated : Bool) (items : List Item) : ByteExpr :=
  .symbol fun b => (items.any (Item.has b)) != negated

def exprFrom : Nat → List UInt8 → ByteExpr
  | 0, _ => .nothing
  | _, [] => .nothing
  | fuel + 1, b :: rest =>
    if b = ofChar '*' then .seq (.star .any) (exprFrom fuel rest)
    else if b = ofChar '?' then .seq .any (exprFrom fuel rest)
    else if b = ofChar '\\' then
      match rest with
      | [] => .never
      | c :: rest => .seq (.symbol (· == c)) (exprFrom fuel rest)
    else if b = ofChar '[' then
      let negated := rest.head? = some (ofChar '!') || rest.head? = some (ofChar '^')
      let inside := if negated then rest.drop 1 else rest
      match readBracket inside.length true [] inside with
      | .closed items rest => .seq (ofSet negated items) (exprFrom fuel rest)
      | .unclosed => .seq (.symbol (· == b)) (exprFrom fuel rest)
      | .hopeless => .never
    else .seq (.symbol (· == b)) (exprFrom fuel rest)

/-- The expression of a pattern. -/
def expr (pattern : List UInt8) : ByteExpr :=
  exprFrom pattern.length pattern

end HeaderRename.Shell
