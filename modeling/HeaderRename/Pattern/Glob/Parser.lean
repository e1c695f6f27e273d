import HeaderRename.Pattern.Glob.Token

/-!
# Reading name patterns

Case switches stand before a token and hold for the literals after them, also beyond the group they
stand in. The fuel of the mutual readers bounds their depth; three times the length is enough, since
each call but two in a row takes a character.
-/
set_option autoImplicit false

namespace HeaderRename.Glob

/-- What is left to read, and whether literals are read without regard to case. -/
structure Cursor where
  rest : List Char
  caseless : Bool

/-- Where a pattern ends: with the text, or inside one of the two kinds of group. -/
inductive Scope where
  | whole
  | branch
  | body
deriving DecidableEq

namespace Scope

def endsAt : Scope → List Char → Bool
  | whole, rest => rest.isEmpty
  | branch, rest => rest.head? == some ',' || rest.head? == some '}'
  | body, rest => rest.head? == some ':' || rest.head? == some '>'

end Scope

namespace Parser

def switches (caseless seen : Bool) : List Char → Option Cursor
  | 'i' :: rest => switches true true rest
  | '-' :: 'i' :: rest => switches false true rest
  | ')' :: rest => if seen then some ⟨rest, caseless⟩ else none
  | _ => none

def skipSwitches : Nat → Cursor → Cursor
  | 0, cursor => cursor
  | fuel + 1, cursor =>
    match cursor.rest with
    | '(' :: '?' :: rest =>
      match switches cursor.caseless false rest with
      | some next => skipSwitches fuel next
      | none => cursor
    | _ => cursor

def isSpecial (c : Char) : Bool :=
  "?*$:<>()[]\x7b\x7d,".toList.contains c

def literal : List Char → List Char × List Char
  | '\\' :: c :: rest =>
    if isSpecial c then
      let (text, left) := literal rest
      (c :: text, left)
    else ([], '\\' :: c :: rest)
  | c :: rest =>
    if isSpecial c || c == '/' || c == '\\' then ([], c :: rest)
    else
      let (text, left) := literal rest
      (c :: text, left)
  | [] => ([], [])

/-- A tree wildcard: two stars, closed by a slash or by the end of the pattern around them. -/
def tree (scope : Scope) (rooted : Bool) : List Char → Option (Token × List Char)
  | '*' :: '*' :: '/' :: rest => some (.tree rooted, rest)
  | '*' :: '*' :: rest => if scope.endsAt rest then some (.tree rooted, rest) else none
  | _ => none

/-- A star may not stand before another, nor before switches that stand before another. -/
def mayFollowMany (scope : Scope) (cursor : Cursor) : Bool :=
  let rest := (skipSwitches cursor.rest.length cursor).rest
  scope.endsAt rest ||
    match rest with
    | [] => false
    | c :: _ => c != '*' && c != '$'

def wildcard (scope : Scope) (atStart : Bool) (cursor : Cursor) : Option (Token × Cursor) :=
  let plain : Option (Token × List Char) :=
    match cursor.rest with
    | '?' :: rest => some (.one, rest)
    | '/' :: rest => tree scope true rest
    | rest => if atStart then tree scope false rest else none
  match plain with
  | some (token, rest) => some (token, { cursor with rest })
  | none =>
    match cursor.rest with
    | c :: rest =>
      if (c == '*' || c == '$') && mayFollowMany scope { cursor with rest } then
        some (.many, { cursor with rest })
      else none
    | [] => none

def classChar : List Char → Option (Char × List Char)
  | '\\' :: c :: rest => if c == '[' || c == ']' || c == '-' then some (c, rest) else none
  | c :: rest =>
    if c == '[' || c == ']' || c == '-' || c == '\\' then none else some (c, rest)
  | [] => none

def classItems : Nat → List Char → List (Char × Char) × List Char
  | 0, rest => ([], rest)
  | fuel + 1, rest =>
    match classChar rest with
    | none => ([], rest)
    | some (first, left) =>
      let single := fun _ : Unit =>
        let (items, left) := classItems fuel left
        ((first, first) :: items, left)
      match left with
      | '-' :: more =>
        match classChar more with
        | some (last, left) =>
          let (items, left) := classItems fuel left
          ((first, last) :: items, left)
        | none => single ()
      | _ => single ()

def oneOf : List Char → Option (Token × List Char)
  | '[' :: rest =>
    let (negated, rest) := match rest with
      | '!' :: rest => (true, rest)
      | rest => (false, rest)
    match classItems rest.length rest with
    | ([], _) => none
    | (items, ']' :: left) => some (.oneOf negated items, left)
    | _ => none
  | _ => none

def number (rest : List Char) : Option (Nat × List Char) :=
  let digits := rest.takeWhile Char.isDigit
  let value := digits.foldl (fun n d => n * 10 + (d.toNat - '0'.toNat)) 0
  if digits.isEmpty || value ≥ Nat.pow 2 64 then none else some (value, rest.dropWhile Char.isDigit)

/-- The bounds of a repetition and the rest behind its closing bracket. -/
def repetitionBounds : List Char → Option ((Nat × Option Nat) × List Char)
  | '>' :: rest => some ((0, none), rest)
  | ':' :: '>' :: rest => some ((1, none), rest)
  | ':' :: rest =>
    match number rest with
    | some (lower, '>' :: rest) => some ((lower, some lower), rest)
    | some (lower, ',' :: '>' :: rest) => some ((lower, none), rest)
    | some (lower, ',' :: rest) =>
      match number rest with
      | some (upper, '>' :: rest) => some ((lower, some upper), rest)
      | _ => none
    | _ => none
  | _ => none

mutual

def tokens (fuel : Nat) (scope : Scope) (atStart : Bool) (cursor : Cursor) :
    List Token × Cursor :=
  match fuel with
  | 0 => ([], cursor)
  | fuel + 1 =>
    let here := skipSwitches cursor.rest.length cursor
    let atStart := atStart && here.rest.length == cursor.rest.length
    let found : Option (Token × Cursor) :=
      match literal here.rest with
      | (c :: text, rest) => some (.literal (c :: text) here.caseless, { here with rest })
      | ([], _) =>
        match here.rest with
        | '\x7b' :: rest =>
          match branches fuel { here with rest } with
          | some (branches, next) => some (.alternatives branches, next)
          | none => none
        | '<' :: rest =>
          match tokens fuel .body true { here with rest } with
          | ([], _) => none
          | (body, next) =>
            match repetitionBounds next.rest with
            | some ((lower, upper), rest) =>
              some (.repetition body lower upper, { next with rest })
            | none => none
        | rest =>
          match wildcard scope atStart here with
          | some found => some found
          | none =>
            match oneOf rest with
            | some (token, rest) => some (token, { here with rest })
            | none =>
              match rest with
              | '/' :: rest => some (.separator, { here with rest })
              | _ => none
    match found with
    | none => ([], cursor)
    | some (token, next) =>
      let (more, last) := tokens fuel scope false next
      (token :: more, last)

def branches (fuel : Nat) (cursor : Cursor) : Option (List (List Token) × Cursor) :=
  match fuel with
  | 0 => none
  | fuel + 1 =>
    match tokens fuel .branch true cursor with
    | ([], _) => none
    | (branch, next) =>
      match next.rest with
      | '\x7d' :: rest => some ([branch], { next with rest })
      | ',' :: rest =>
        match branches fuel { next with rest } with
        | some (more, last) => some (branch :: more, last)
        | none => none
      | _ => none

end

end Parser

def parse (pattern : List Char) : Except Fault (List Token) :=
  match Parser.tokens (3 * pattern.length + 3) .whole true ⟨pattern, false⟩ with
  | (tokens, ⟨[], _⟩) => .ok tokens
  | _ => .error .unreadable

end HeaderRename.Glob
