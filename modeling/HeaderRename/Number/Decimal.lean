import HeaderRename.Number.Binary64

/-!
# Reading numbers

Decimal numbers are read exactly and then rounded once. Integers take an optional sign and must fit
the range asked for.
-/
set_option autoImplicit false

namespace HeaderRename

namespace Decimal

def digitValue (c : Char) : Nat :=
  c.toNat - '0'.toNat

def ofDigits (digits : List Char) : Nat :=
  digits.foldl (fun n c => n * 10 + digitValue c) 0

/-- The value of `digits * 10 ^ exponent`. Far outside the range only the side matters. -/
def toBinary64 (negative : Bool) (digits : Nat) (exponent : Int) : Binary64 :=
  let size := (Nat.toDigits 10 digits).length
  if digits = 0 then .zero negative
  else if 400 < exponent + size then .infinite negative
  else if exponent + size < -400 then .zero negative
  else if 0 ≤ exponent then .ofFraction negative (digits * Nat.pow 10 exponent.toNat) 1
  else .ofFraction negative digits (Nat.pow 10 (-exponent).toNat)

def signOf : List Char → Bool × List Char
  | '-' :: rest => (true, rest)
  | '+' :: rest => (false, rest)
  | rest => (false, rest)

/-- An exponent: a sign and at least one digit, to the end. -/
def exponent? (text : List Char) : Option Int :=
  let (negative, digits) := signOf text
  if digits.isEmpty || !digits.all Char.isDigit then none
  else some (if negative then -Int.ofNat (ofDigits digits) else Int.ofNat (ofDigits digits))

/-- A number without a sign: digits around an optional point, at least one, and an optional
exponent. -/
def unsigned? (negative : Bool) (text : List Char) : Option Binary64 := do
  let whole := text.takeWhile Char.isDigit
  let rest := text.dropWhile Char.isDigit
  let (part, rest) := match rest with
    | '.' :: rest => (rest.takeWhile Char.isDigit, rest.dropWhile Char.isDigit)
    | rest => ([], rest)
  if whole.isEmpty && part.isEmpty then none
  else
    let power ← match rest with
      | [] => some 0
      | c :: rest => if c == 'e' || c == 'E' then exponent? rest else none
    return toBinary64 negative (ofDigits (whole ++ part)) (power - part.length)

def parseFloat? (text : List Char) : Option Binary64 :=
  let (negative, rest) := signOf text
  let word := String.ofList (rest.map Char.toLower)
  if word == "inf" || word == "infinity" then some (.infinite negative)
  else if word == "nan" then some .nan
  else unsigned? negative rest

/-- An integer in decimal digits after an optional sign. -/
def parseInt? (text : List Char) : Option Int :=
  let (negative, digits) := signOf text
  if digits.isEmpty || !digits.all Char.isDigit then none
  else some (if negative then -Int.ofNat (ofDigits digits) else Int.ofNat (ofDigits digits))

def fitsSigned (n : Int) : Bool :=
  -(Nat.pow 2 63 : Int) ≤ n && n < (Nat.pow 2 63 : Int)

def parseSigned? (text : List Char) : Option Int :=
  (parseInt? text).filter fitsSigned

/-- A natural number of 64 bits; no minus sign is taken. -/
def parseUnsigned? (text : List Char) : Option Nat :=
  if text.head? == some '-' then none
  else (parseInt? text).bind fun n => if n < Nat.pow 2 64 then some n.toNat else none

end Decimal

end HeaderRename
