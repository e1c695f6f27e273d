import HeaderRename.Arguments.Grammar
import HeaderRename.Arguments.Word

/-!
# Reading words

What a word adds is kept open until the next option or the end: only then is it known that an option
has its value, and only then is the value checked. So a word that nothing stands for is reported
before a wrong value that precedes it.
-/
set_option autoImplicit false

namespace HeaderRename

/-- What is still open. -/
inductive Pending where
  | nothing
  | awaiting (option : OptionName)
  | value (option : OptionName) (text : String)
  | roots (paths : List String)
  | table (name : String)
deriving DecidableEq, Repr

structure Scan where
  draft : Draft
  pending : Pending
  /-- Options are over: every word is a plain one. -/
  plainOnly : Bool
deriving DecidableEq, Repr

namespace Scan

def start : Scan := ⟨.empty, .nothing, false⟩

/-- What the words have said, once nothing is open any more. -/
def close (scan : Scan) : Except UsageError Draft :=
  match scan.pending with
  | .nothing => .ok scan.draft
  | .awaiting _ => .error .invalidValue
  | .value option text => scan.draft.give option text
  | .roots paths => scan.draft.addRoots paths
  | .table name => scan.draft.addTable name

/-- An option whose value is the next word. -/
def await (scan : Scan) (option : OptionName) : Except UsageError Scan := do
  return { scan with draft := ← scan.close, pending := .awaiting option }

/-- An option with a value written to it. -/
def give (scan : Scan) (option : OptionName) (text : String) : Except UsageError Scan := do
  return { scan with draft := ← (← scan.close).give option text, pending := .nothing }

def flag (scan : Scan) (option : OptionName) : Except UsageError Scan := do
  return { scan with draft := ← (← scan.close).flag option, pending := .nothing }

def long (grammar : Grammar) (scan : Scan) (name : String) (value : Option String) :
    Except UsageError Scan :=
  match grammar.long? name, value with
  | none, _ => .error .unknownArgument
  | some option, some text =>
    if option.takesValue then scan.give option text else .error .tooManyValues
  | some option, none => if option.takesValue then scan.await option else scan.flag option

/-- The letters of a cluster are flags; the first that takes a value takes all behind it, less an
`=` in front. -/
def cluster (grammar : Grammar) (scan : Scan) : List Char → Except UsageError Scan
  | [] => .ok scan
  | letter :: rest =>
    match grammar.short? letter with
    | none => .error .unknownArgument
    | some option =>
      if option.takesValue then
        match rest with
        | [] => scan.await option
        | '=' :: value => scan.give option (String.ofList value)
        | value => scan.give option (String.ofList value)
      else do cluster grammar (← scan.flag option) rest

/-- Roots are gathered; a table is named once. -/
def operand (grammar : Grammar) (scan : Scan) (text : String) : Except UsageError Scan :=
  match grammar.operand, scan.pending with
  | some .roots, .roots paths => .ok { scan with pending := .roots (paths ++ [text]) }
  | some .roots, _ => do return { scan with draft := ← scan.close, pending := .roots [text] }
  | some .table, .table _ => .error .unknownArgument
  | some .table, _ =>
    if scan.draft.table.isSome then .error .unknownArgument
    else do return { scan with draft := ← scan.close, pending := .table text }
  | none, _ => .error .unknownArgument

def step (grammar : Grammar) (scan : Scan) (text : String) : Except UsageError Scan :=
  if scan.plainOnly then scan.operand grammar text
  else
    match Word.ofString text, scan.pending with
    | .endOfOptions, _ => .ok { scan with plainOnly := true }
    | .long name value, _ => scan.long grammar name value
    | .cluster letters, _ => scan.cluster grammar letters
    | .plain text, .awaiting option => .ok { scan with pending := .value option text }
    | .plain text, _ => scan.operand grammar text

/-- All words of one grammar. -/
def readAll (grammar : Grammar) (words : List String) : Except UsageError Draft := do
  (← words.foldlM (step grammar) start).close

/-- A word may name a command: options are not over, and none waits for a value. -/
def isFree (scan : Scan) : Bool :=
  !scan.plainOnly &&
    match scan.pending with
    | .awaiting _ => false
    | _ => true

end Scan

end HeaderRename
