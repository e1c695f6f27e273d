/-!
# Times in log files

A time is written in universal time, by date, clock and microseconds.
-/
set_option autoImplicit false

namespace HeaderRename

/-- A time by the seconds since the start of 1970 and the nanoseconds after them. -/
structure Timestamp where
  seconds : Nat
  nanoseconds : Nat
deriving DecidableEq, Repr

namespace Timestamp

structure Date where
  year : Nat
  month : Nat
  day : Nat
deriving DecidableEq, Repr

/-- The date of a day counted from the start of 1970. Years run from March, so that a leap day is
the last of its year, and four centuries have 146097 days. -/
def Date.ofDay (day : Nat) : Date :=
  let shifted := day + 719468
  let inEra := shifted % 146097
  let yearInEra := (inEra - inEra / 1460 + inEra / 36524 - inEra / 146096) / 365
  let inYear := inEra - (365 * yearInEra + yearInEra / 4 - yearInEra / 100)
  let marchMonth := (5 * inYear + 2) / 153
  let month := if marchMonth < 10 then marchMonth + 3 else marchMonth - 9
  let year := yearInEra + shifted / 146097 * 400
  { year := if month ≤ 2 then year + 1 else year
    month
    day := inYear - (153 * marchMonth + 2) / 5 + 1 }

/-- A number in at least `width` digits. -/
def padded (width n : Nat) : String :=
  let digits := toString n
  String.ofList (List.replicate (width - digits.length) '0') ++ digits

def format (time : Timestamp) : String :=
  let date := Date.ofDay (time.seconds / 86400)
  let clock := time.seconds % 86400
  s!"{padded 4 date.year}-{padded 2 date.month}-{padded 2 date.day}T" ++
    s!"{padded 2 (clock / 3600)}:{padded 2 (clock / 60 % 60)}:{padded 2 (clock % 60)}." ++
    s!"{padded 6 (time.nanoseconds / 1000)}Z"

end Timestamp

end HeaderRename
