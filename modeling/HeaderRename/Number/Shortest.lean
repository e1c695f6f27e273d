import HeaderRename.Number.Binary64

/-!
# Shortest decimal text

The text of a value has the fewest digits that read back as the value, and of those the nearest to
it. It is written without an exponent.
-/
set_option autoImplicit false

namespace HeaderRename.Binary64

/-- The reals that round to a value, over a common denominator: the value and its two margins. -/
structure Interval where
  num : Nat
  den : Nat
  below : Nat
  above : Nat
  closed : Bool

/-- Below a power of two the values lie twice as dense. -/
def interval (mantissa : Nat) (exponent : Int) : Interval :=
  let unit := if 0 ≤ exponent then Nat.pow 2 exponent.toNat else 1
  let den := if 0 ≤ exponent then 4 else 4 * Nat.pow 2 (-exponent).toNat
  let narrow := mantissa = Nat.pow 2 52 && leastExponent < exponent
  { num := 4 * mantissa * unit, den, below := if narrow then unit else 2 * unit
    above := 2 * unit, closed := mantissa % 2 = 0 }

def decimalDigits (n : Nat) : Nat :=
  (Nat.toDigits 10 n).length

/-- How many zeros follow the point of a fraction below one. -/
def leadingZeros (num den : Nat) : Nat → Nat
  | 0 => 0
  | fuel + 1 => if den ≤ num * 10 then 0 else leadingZeros (num * 10) den fuel + 1

/-- The power of ten just above the fraction. -/
def magnitude (num den : Nat) : Int :=
  if den ≤ num then decimalDigits (num / den) else -Int.ofNat (leadingZeros num den 400)

/-- A point of the decimal grid `10 ^ place` that lies in the interval, the nearest to its middle;
of two as near the upper one. -/
def gridPoint? (i : Interval) (place : Int) : Option Nat :=
  let up := if 0 ≤ place then Nat.pow 10 place.toNat else 1
  let down := if 0 ≤ place then 1 else Nat.pow 10 (-place).toNat
  let step := up * i.den
  let middle := i.num * down
  let low := middle / step
  let lowGap := middle - low * step
  let highGap := (low + 1) * step - middle
  let within := fun gap margin : Nat =>
    if i.closed then gap ≤ margin * down else gap < margin * down
  let lowOk := within lowGap i.below
  let highOk := within highGap i.above
  if lowOk && (!highOk || lowGap < highGap) then some low
  else if highOk then some (low + 1)
  else none

/-- Digits and the place of the last of them, with the fewest digits. -/
def shortestFrom (i : Interval) (top : Int) : Nat → Nat → Nat × Int
  | 0, count => ((gridPoint? i (top - count)).getD 0, top - count)
  | fuel + 1, count =>
    match gridPoint? i (top - count) with
    | some digits => (digits, top - count)
    | none => shortestFrom i top fuel (count + 1)

def shortest (mantissa : Nat) (exponent : Int) : Nat × Int :=
  let i := interval mantissa exponent
  shortestFrom i (magnitude i.num i.den) 17 1

/-- A decimal number without an exponent, no digit behind the last that counts. -/
def positional (digits : Nat) (place : Int) : List Char :=
  let text := Nat.toDigits 10 digits
  if 0 ≤ place then text ++ List.replicate place.toNat '0'
  else
    let behind := (-place).toNat
    let padded := List.replicate (behind + 1 - text.length) '0' ++ text
    let whole := padded.take (padded.length - behind)
    let part := padded.drop (padded.length - behind)
    let part := (part.reverse.dropWhile (· == '0')).reverse
    if part.isEmpty then whole else whole ++ '.' :: part

/-- The text of a value; a negative zero keeps its sign. -/
def display : Binary64 → String
  | .nan => "NaN"
  | .infinite negative => if negative then "-inf" else "inf"
  | .finite negative mantissa exponent =>
    let digits :=
      if mantissa = 0 then ['0']
      else
        let (digits, place) := shortest mantissa exponent
        positional digits place
    String.ofList (if negative then '-' :: digits else digits)

/-- The text of a value that shows it to be no integer type. -/
def displayPointed (x : Binary64) : String :=
  if x.isWhole then x.display ++ ".0" else x.display

end HeaderRename.Binary64
