import HeaderRename.Toml.Node
import HeaderRename.Toml.Scalar

/-!
# Documents

A document is a sequence of lines: blank, a key with a value, or a header that says which table
the keys after it belong to. The fuel of the readers bounds their depth, which is at most twice
the length of the text; nested lists and tables are read to a depth of eighty.
-/
set_option autoImplicit false

namespace HeaderRename.Toml

def depthLimit : Nat := 80

/-- Blanks, comments and line ends inside a list or an inline table. -/
def skipInside? (text : Chars) : Option Chars :=
  skipLines? text.length text

mutual

def value? (origin : Origin) (fuel depth : Nat) (text : Chars) : Option (Setting × Chars) :=
  match fuel with
  | 0 => none
  | fuel + 1 =>
    match text with
    | '[' :: rest =>
      if depthLimit ≤ depth then none
      else (items? origin fuel (depth + 1) rest).map fun (items, rest) => (.list origin items, rest)
    | '\x7b' :: rest =>
      if depthLimit ≤ depth then none
      else
        (pairs? origin fuel (depth + 1) [] rest).map fun (entries, rest) =>
          (.table origin (Node.entriesToSettings origin entries), rest)
    | text =>
      match string? text with
      | some (found, rest) => some (.scalar origin (.text (String.ofList found)), rest)
      | none =>
        (scalar? text).map fun (found, rest) => (.scalar origin found, rest)

/-- The items of a list up to its closing bracket; a comma may follow the last. -/
def items? (origin : Origin) (fuel depth : Nat) (text : Chars) : Option (List Setting × Chars) :=
  match fuel with
  | 0 => none
  | fuel + 1 =>
    match skipInside? text with
    | none => none
    | some (']' :: rest) => some ([], rest)
    | some text =>
      match value? origin fuel depth text with
      | none => none
      | some (item, rest) =>
        match skipInside? rest with
        | some (']' :: rest) => some ([item], rest)
        | some (',' :: rest) =>
          (items? origin fuel depth rest).map fun (items, rest) => (item :: items, rest)
        | _ => none

/-- The pairs of an inline table up to its closing brace; a comma may follow the last. -/
def pairs? (origin : Origin) (fuel depth : Nat) (entries : Entries) (text : Chars) :
    Option (Entries × Chars) :=
  match fuel with
  | 0 => none
  | fuel + 1 =>
    match skipInside? text with
    | none => none
    | some ('\x7d' :: rest) => some (entries, rest)
    | some text =>
      match key? text.length text with
      | some (keys, '=' :: rest) =>
        match value? origin fuel depth (skipBlanks rest) with
        | none => none
        | some (item, rest) =>
          match Node.insertDotted? item keys entries, skipInside? rest with
          | some entries, some ('\x7d' :: rest) => some (entries, rest)
          | some entries, some (',' :: rest) => pairs? origin fuel depth entries rest
          | _, _ => none
      | _ => none

end

/-- The document so far, and the header whose table is being filled. -/
structure State where
  root : Entries
  header : List String

/-- A header behind its brackets, up to the closing ones. -/
def header? (close : Chars) (text : Chars) : Option (List String × Chars) := do
  let (keys, rest) ← key? (text.length + 1) (skipBlanks text)
  if close.isPrefixOf rest then return (keys, rest.drop close.length) else none

/-- One line without its end: the state after it and what is left. -/
def line? (origin : Origin) (state : State) (text : Chars) : Option (State × Chars) :=
  match text with
  | '[' :: '[' :: rest => do
    let (keys, rest) ← header? [']', ']'] rest
    return (⟨← Node.appendTable? keys state.root, keys⟩, rest)
  | '[' :: rest => do
    let (keys, rest) ← header? [']'] rest
    return (⟨← Node.defineTable? keys state.root, keys⟩, rest)
  | text => do
    let (keys, rest) ← key? text.length text
    match rest with
    | '=' :: rest =>
      let rest := skipBlanks rest
      let (value, rest) ← value? origin (2 * rest.length + 2) 0 rest
      let root ← Node.within? (Node.insertDotted? value keys) state.header state.root
      return ({ state with root }, rest)
    | _ => none

def lines? (origin : Origin) : Nat → State → Chars → Option State
  | 0, state, text => if text.isEmpty then some state else none
  | fuel + 1, state, text =>
    let text := skipBlanks text
    let afterLine : Option (State × Chars) :=
      match text with
      | [] => some (state, [])
      | '#' :: _ => some (state, text)
      | text => if (newline? text).isSome then some (state, text) else line? origin state text
    match afterLine with
    | none => none
    | some (state, rest) =>
      match skipComment? (skipBlanks rest) with
      | none => none
      | some [] => some state
      | some rest =>
        match newline? rest with
        | some rest => lines? origin fuel state rest
        | none => none

/-- The entries of a document, each value with its origin; nothing if it is malformed. -/
def parse? (origin : Origin) (text : Chars) : Option (List (String × Setting)) :=
  let text := match text with
    | '\uFEFF' :: rest => rest
    | text => text
  (lines? origin (text.length + 1) ⟨[], []⟩ text).map fun state =>
    Node.entriesToSettings origin state.root

end HeaderRename.Toml
