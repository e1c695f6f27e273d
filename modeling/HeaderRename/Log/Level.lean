import HeaderRename.Error

/-!
# Log levels

A level lets through the events that are at least as severe; `silent` lets none through.
-/
set_option autoImplicit false

namespace HeaderRename

inductive Level where
  | silent
  | error
  | warn
  | info
  | debug
  | trace
deriving DecidableEq, Repr

namespace Level

def toNat : Level → Nat
  | silent => 0
  | error => 1
  | warn => 2
  | info => 3
  | debug => 4
  | trace => 5

def ofNat? : Nat → Option Level
  | 0 => some silent
  | 1 => some error
  | 2 => some warn
  | 3 => some info
  | 4 => some debug
  | 5 => some trace
  | _ => none

def ofConfig (value : Nat) : Except ConfigError Level :=
  match ofNat? value with
  | some level => .ok level
  | none => .error (.invalidValue "global" "log_level" (.level value))

def name : Level → String
  | silent => "off"
  | error => "error"
  | warn => "warn"
  | info => "info"
  | debug => "debug"
  | trace => "trace"

/-- The filter that a level stands for. -/
def directive : Level → String
  | silent => "off"
  | level => s!"incfix={level.name}"

/-- More than the summary of a run is shown. -/
def isVerbose (level : Level) : Bool :=
  info.toNat < level.toNat

/-- Whether an event of severity `event` passes the filter `level`. -/
def admits (level event : Level) : Bool :=
  event ≠ silent && event.toNat ≤ level.toNat

end Level

end HeaderRename
