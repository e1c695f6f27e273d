import HeaderRename.Log.Level
import HeaderRename.Text.Quoted

/-!
# Log events

An event has a severity, the part of the program it comes from, a message and named fields. A line
shows the severity in a column of five, then the message, then the fields in order.
-/
set_option autoImplicit false

namespace HeaderRename

structure Event where
  level : Level
  source : String
  message : String
  fields : List (String × String)
deriving DecidableEq, Repr

namespace Event

def label : Level → String
  | .silent => ""
  | .error => "ERROR"
  | .warn => " WARN"
  | .info => " INFO"
  | .debug => "DEBUG"
  | .trace => "TRACE"

def fieldsText (event : Event) : String :=
  String.join (event.fields.map fun (name, value) => s!" {name}={value}")

def consoleLine (event : Event) : String :=
  s!"{label event.level} {event.message}{event.fieldsText}"

/-- A line of a log file also tells where the event comes from, after the time. -/
def fileLine (time : String) (event : Event) : String :=
  s!"{time} {label event.level} incfix::{event.source}: {event.message}{event.fieldsText}"

/-- The lines of the events that a level lets through. -/
def linesAt (level : Level) (line : Event → String) (events : List Event) : List String :=
  (events.filter fun event => level.admits event.level).map line

end Event

end HeaderRename
