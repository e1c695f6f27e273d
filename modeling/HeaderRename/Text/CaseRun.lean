/-!
# Runs of case mappings

A run maps each `step`-th number from `first` to `last` by adding `delta`. A table of runs is a map
on characters, the identity outside its runs.
-/
set_option autoImplicit false

namespace HeaderRename

structure CaseRun where
  first : Nat
  last : Nat
  step : Nat
  delta : Int
deriving DecidableEq, Repr

namespace CaseRun

def covers (run : CaseRun) (n : Nat) : Bool :=
  run.first ≤ n && n ≤ run.last && (n - run.first) % run.step == 0

def apply (table : List CaseRun) (c : Char) : Char :=
  match table.find? (·.covers c.toNat) with
  | some run => Char.ofNat (Int.ofNat c.toNat + run.delta).toNat
  | none => c

/-- The characters that a table maps to `c`, other than `c` itself. -/
def sources (table : List CaseRun) (c : Char) : List Char :=
  table.filterMap fun run =>
    let source := Int.ofNat c.toNat - run.delta
    if 0 ≤ source && run.covers source.toNat then some (Char.ofNat source.toNat) else none

end CaseRun

end HeaderRename
