/-!
# Blanks, comments, keys and strings

The readers take a text and give what they read with the rest, or nothing when the text is not of
their form. A line ends with a line feed, which a carriage return may precede; a carriage return is
found nowhere else. Control characters other than the tab stand neither in comments nor in strings.
-/
set_option autoImplicit false

namespace HeaderRename.Toml

abbrev Chars := List Char

def isBlank (c : Char) : Bool :=
  c == ' ' || c == '\t'

def isControl (c : Char) : Bool :=
  (c.toNat < 0x20 && c != '\t') || c.toNat == 0x7F

def skipBlanks (text : Chars) : Chars :=
  text.dropWhile isBlank

/-- The rest behind a line end. -/
def newline? : Chars → Option Chars
  | '\n' :: rest => some rest
  | '\r' :: '\n' :: rest => some rest
  | _ => none

/-- The rest behind a comment, if there is one; the line end is left. -/
def skipComment? : Chars → Option Chars
  | '#' :: rest =>
    let left := rest.dropWhile (!isControl ·)
    if left.isEmpty || (newline? left).isSome then some left else none
  | text => some text

/-- The rest behind blanks, comments and line ends. -/
def skipLines? : Nat → Chars → Option Chars
  | 0, text => some text
  | fuel + 1, text =>
    match skipComment? (skipBlanks text) with
    | none => none
    | some left =>
      match newline? left with
      | some rest => skipLines? fuel rest
      | none => some left

def hexValue? (c : Char) : Option Nat :=
  if '0' ≤ c && c ≤ '9' then some (c.toNat - '0'.toNat)
  else if 'a' ≤ c && c ≤ 'f' then some (c.toNat - 'a'.toNat + 10)
  else if 'A' ≤ c && c ≤ 'F' then some (c.toNat - 'A'.toNat + 10)
  else none

/-- A number of exactly so many hexadecimal digits. -/
def hexNumber? : Nat → Nat → Chars → Option (Nat × Chars)
  | 0, value, rest => some (value, rest)
  | _ + 1, _, [] => none
  | count + 1, value, c :: rest =>
    match hexValue? c with
    | some digit => hexNumber? count (value * 16 + digit) rest
    | none => none

def charOf? (n : Nat) : Option Char :=
  if n < 0xD800 || (0xE000 ≤ n && n < 0x110000) then some (Char.ofNat n) else none

def numbered? (count : Nat) (text : Chars) : Option (Char × Chars) := do
  let (n, rest) ← hexNumber? count 0 text
  return (← charOf? n, rest)

/-- The character that an escape stands for, behind its backslash. -/
def escape? : Chars → Option (Char × Chars)
  | 'b' :: rest => some ('\x08', rest)
  | 't' :: rest => some ('\t', rest)
  | 'n' :: rest => some ('\n', rest)
  | 'f' :: rest => some ('\x0C', rest)
  | 'r' :: rest => some ('\r', rest)
  | 'e' :: rest => some ('\x1B', rest)
  | '"' :: rest => some ('"', rest)
  | '\\' :: rest => some ('\\', rest)
  | 'x' :: rest => numbered? 2 rest
  | 'u' :: rest => numbered? 4 rest
  | 'U' :: rest => numbered? 8 rest
  | _ => none

/-- The inside of a string in double quotes; the fuel is the length. -/
def basic? : Nat → Chars → Option (Chars × Chars)
  | 0, _ => none
  | _ + 1, [] => none
  | fuel + 1, c :: rest =>
    if c = '"' then some ([], rest)
    else if c = '\\' then
      match escape? rest with
      | none => none
      | some (d, rest) => (basic? fuel rest).map fun (text, rest) => (d :: text, rest)
    else if isControl c then none
    else (basic? fuel rest).map fun (text, rest) => (c :: text, rest)

def literal? : Chars → Option (Chars × Chars)
  | [] => none
  | c :: rest =>
    if c = '\'' then some ([], rest)
    else if isControl c then none
    else (literal? rest).map fun (text, rest) => (c :: text, rest)

/-- Three quotes end a long string; one or two more before them belong to it. -/
def closing? (quote : Char) (text : Chars) : Option (Chars × Chars) :=
  match text.span (· == quote) with
  | (quotes, rest) =>
    if quotes.length = 3 then some ([], rest)
    else if quotes.length = 4 then some ([quote], rest)
    else if quotes.length = 5 then some ([quote, quote], rest)
    else none

/-- The rest behind a backslash at the end of a line: the blanks and line ends that follow. -/
def skipTrimmed : Nat → Chars → Chars
  | 0, text => text
  | fuel + 1, text =>
    let left := skipBlanks text
    match newline? left with
    | some rest => skipTrimmed fuel rest
    | none => left

/-- A line end inside a long string, kept as it is written. -/
def longNewline? : Chars → Option (Chars × Chars)
  | '\n' :: rest => some (['\n'], rest)
  | '\r' :: '\n' :: rest => some (['\r', '\n'], rest)
  | _ => none

/-- The inside of a long string; only with double quotes does a backslash mean anything. -/
def long? (quote : Char) : Nat → Chars → Option (Chars × Chars)
  | 0, _ => none
  | _ + 1, [] => none
  | fuel + 1, c :: rest =>
    let keep := fun (taken rest : Chars) =>
      (long? quote fuel rest).map fun (text, rest) => (taken ++ text, rest)
    if c = quote then
      match closing? quote (c :: rest) with
      | some found => some found
      | none => if [quote, quote].isPrefixOf rest then none else keep [c] rest
    else if c = '\\' && quote = '"' then
      match escape? rest with
      | some (d, rest) => keep [d] rest
      | none =>
        match newline? (skipBlanks rest) with
        | some left => keep [] (skipTrimmed left.length left)
        | none => none
    else
      match longNewline? (c :: rest) with
      | some (taken, rest) => keep taken rest
      | none => if isControl c then none else keep [c] rest

/-- A line end right behind the opening quotes is not part of the string. -/
def dropFirstNewline (text : Chars) : Chars :=
  (newline? text).getD text

def string? : Chars → Option (Chars × Chars)
  | '"' :: '"' :: '"' :: rest =>
    let rest := dropFirstNewline rest
    long? '"' (rest.length + 1) rest
  | '\'' :: '\'' :: '\'' :: rest =>
    let rest := dropFirstNewline rest
    long? '\'' (rest.length + 1) rest
  | '"' :: rest => basic? (rest.length + 1) rest
  | '\'' :: rest => literal? rest
  | _ => none

def isBare (c : Char) : Bool :=
  ('a' ≤ c && c ≤ 'z') || ('A' ≤ c && c ≤ 'Z') || ('0' ≤ c && c ≤ '9') || c == '_' || c == '-'

/-- One key: bare, or a string on one line. -/
def simpleKey? : Chars → Option (String × Chars)
  | '"' :: rest => (basic? (rest.length + 1) rest).map fun (k, rest) => (String.ofList k, rest)
  | '\'' :: rest => (literal? rest).map fun (k, rest) => (String.ofList k, rest)
  | text =>
    let name := text.takeWhile isBare
    if name.isEmpty then none else some (String.ofList name, text.dropWhile isBare)

/-- Keys joined by points, with blanks around the points; blanks behind the last are skipped. -/
def key? : Nat → Chars → Option (List String × Chars)
  | 0, _ => none
  | fuel + 1, text => do
    let (name, rest) ← simpleKey? text
    match skipBlanks rest with
    | '.' :: rest =>
      let (names, rest) ← key? fuel (skipBlanks rest)
      return (name :: names, rest)
    | rest => return ([name], rest)

end HeaderRename.Toml
