import HeaderRename.Number.Decimal
import HeaderRename.Settings.Setting
import HeaderRename.Toml.Lexical

/-!
# Numbers, booleans and dates

A bare value is a word. Underscores stand between digits only, a decimal integer has no leading
zero, and all numbers must fit their range. Dates and times become text in normal form: a capital
`T` between date and time, no zeros at the end of a fraction of at most nine digits, an offset in
hours and minutes or `Z`.
-/
set_option autoImplicit false

namespace HeaderRename.Toml

/-- Digits with underscores between them, without the underscores. -/
def digits? (isDigit : Char → Bool) : Chars → Option Chars
  | [] => none
  | [c] => if isDigit c then some [c] else none
  | c :: '_' :: d :: rest =>
    if isDigit c && isDigit d then (digits? isDigit (d :: rest)).map (c :: ·) else none
  | c :: rest => if isDigit c then (digits? isDigit rest).map (c :: ·) else none

/-- Digits without a leading zero. -/
def wholeDigits? (word : Chars) : Option Chars := do
  let digits ← digits? Char.isDigit word
  match digits with
  | '0' :: _ :: _ => none
  | digits => return digits

def inBase (base : Nat) (digits : Chars) : Nat :=
  digits.foldl (fun n c => n * base + (hexValue? c).getD 0) 0

def isBaseDigit (base : Nat) (c : Char) : Bool :=
  ((hexValue? c).map fun n => decide (n < base)).getD false

def signedInt? (negative : Bool) (n : Nat) : Option Scalar :=
  let value := if negative then -Int.ofNat n else Int.ofNat n
  if Decimal.fitsSigned value then some (.int value) else none

def int? (word : Chars) : Option Scalar :=
  match word with
  | '0' :: 'x' :: rest =>
    (digits? (isBaseDigit 16) rest).bind fun d => signedInt? false (inBase 16 d)
  | '0' :: 'o' :: rest => (digits? (isBaseDigit 8) rest).bind fun d => signedInt? false (inBase 8 d)
  | '0' :: 'b' :: rest => (digits? (isBaseDigit 2) rest).bind fun d => signedInt? false (inBase 2 d)
  | word =>
    let (negative, rest) := Decimal.signOf word
    (wholeDigits? rest).bind fun d => signedInt? negative (Decimal.ofDigits d)

def exponent? (word : Chars) : Option Int := do
  let (negative, rest) := Decimal.signOf word
  let digits ← digits? Char.isDigit rest
  let value := Int.ofNat (Decimal.ofDigits digits)
  return if negative then -value else value

/-- A number with a point or an exponent, or a word for infinity or no number. -/
def float? (word : Chars) : Option Scalar := do
  let (negative, rest) := Decimal.signOf word
  if rest = ['i', 'n', 'f'] then return .float (.infinite negative)
  else if rest = ['n', 'a', 'n'] then return .float .nan
  else
    let isMark := fun c => c == '.' || c == 'e' || c == 'E'
    let whole ← wholeDigits? (rest.takeWhile (!isMark ·))
    let (part, left) ← match rest.dropWhile (!isMark ·) with
      | '.' :: rest =>
        let isPower := fun c => c == 'e' || c == 'E'
        match digits? Char.isDigit (rest.takeWhile (!isPower ·)) with
        | some part => some (part, rest.dropWhile (!isPower ·))
        | none => none
      | [] => none
      | left => some ([], left)
    let power ← match left with
      | [] => some 0
      | _ :: rest => exponent? rest
    let value := Decimal.toBinary64 negative (Decimal.ofDigits (whole ++ part))
      (power - part.length)
    if value.isFinite then return .float value else none

/-- A number of exactly so many digits. -/
def fixed? (count : Nat) (word : Chars) : Option (Nat × Chars) :=
  let digits := word.take count
  if digits.length = count && digits.all Char.isDigit then
    some (Decimal.ofDigits digits, word.drop count)
  else none

def isLeap (year : Nat) : Bool :=
  year % 4 == 0 && (year % 100 != 0 || year % 400 == 0)

def daysIn (year month : Nat) : Nat :=
  match month with
  | 2 => if isLeap year then 29 else 28
  | 4 => 30
  | 6 => 30
  | 9 => 30
  | 11 => 30
  | _ => 31

def padded (width n : Nat) : Chars :=
  let digits := Nat.toDigits 10 n
  List.replicate (width - digits.length) '0' ++ digits

/-- A date and the rest of the word. -/
def date? (word : Chars) : Option (Chars × Chars) := do
  let (year, rest) ← fixed? 4 word
  let '-' :: rest := rest | none
  let (month, rest) ← fixed? 2 rest
  let '-' :: rest := rest | none
  let (day, rest) ← fixed? 2 rest
  if 1 ≤ month && month ≤ 12 && 1 ≤ day && day ≤ daysIn year month then
    return (padded 4 year ++ '-' :: padded 2 month ++ '-' :: padded 2 day, rest)
  else none

/-- A fraction of a second without the zeros at its end, but with one digit at least. -/
def fraction (digits : Chars) : Chars :=
  let kept := ((digits.take 9).reverse.dropWhile (· == '0')).reverse
  if kept.isEmpty then ['.', '0'] else '.' :: kept

/-- A time of day; the seconds may be left out. -/
def time? (word : Chars) : Option (Chars × Chars) := do
  let (hour, rest) ← fixed? 2 word
  let ':' :: rest := rest | none
  let (minute, rest) ← fixed? 2 rest
  if 24 ≤ hour || 60 ≤ minute then none
  else
    let text := padded 2 hour ++ ':' :: padded 2 minute
    match rest with
    | ':' :: rest =>
      let (second, rest) ← fixed? 2 rest
      if 60 < second then none
      else
        let text := text ++ ':' :: padded 2 second
        match rest with
        | '.' :: rest =>
          let digits := rest.takeWhile Char.isDigit
          if digits.isEmpty then none
          else return (text ++ fraction digits, rest.dropWhile Char.isDigit)
        | rest => return (text, rest)
    | rest => return (text, rest)

def offset? (word : Chars) : Option Chars :=
  match word with
  | [] => some []
  | ['Z'] => some ['Z']
  | ['z'] => some ['Z']
  | sign :: rest =>
    if sign == '+' || sign == '-' then do
      let (hour, rest) ← fixed? 2 rest
      let ':' :: rest := rest | none
      let (minute, rest) ← fixed? 2 rest
      if rest.isEmpty && hour < 24 && minute < 60 then
        let shown := if hour == 0 && minute == 0 then '+' else sign
        return shown :: padded 2 hour ++ ':' :: padded 2 minute
      else none
    else none

def dateTime? (word : Chars) : Option Chars :=
  match date? word with
  | some (date, []) => some date
  | some (date, sep :: rest) =>
    if sep == 'T' || sep == 't' || sep == ' ' then do
      let (time, rest) ← time? rest
      let offset ← offset? rest
      return date ++ 'T' :: time ++ offset
    else none
  | none =>
    match time? word with
    | some (time, []) => some time
    | _ => none

def isWordChar (c : Char) : Bool :=
  isBare c || c == '+' || c == '.' || c == ':'

/-- The word at the start of a text; a blank between a date and a digit belongs to it. -/
def word (text : Chars) : Chars × Chars :=
  let first := text.takeWhile isWordChar
  let rest := text.dropWhile isWordChar
  match rest with
  | ' ' :: c :: _ =>
    if first.length = 10 && (date? first).isSome && c.isDigit then
      let more := rest.drop 1
      (first ++ ' ' :: more.takeWhile isWordChar, more.dropWhile isWordChar)
    else (first, rest)
  | _ => (first, rest)

def scalarOf? (word : Chars) : Option Scalar :=
  if word = "true".toList then some (.bool true)
  else if word = "false".toList then some (.bool false)
  else
    ((int? word).or (float? word)).or
      ((dateTime? word).map fun text => .text (String.ofList text))

def scalar? (text : Chars) : Option (Scalar × Chars) :=
  let (found, rest) := word text
  (scalarOf? found).map (·, rest)

end HeaderRename.Toml
