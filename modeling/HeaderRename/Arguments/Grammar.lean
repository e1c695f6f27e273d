import HeaderRename.Arguments.Options
import HeaderRename.Arguments.Usage
import HeaderRename.Number.Decimal

/-!
# Options and their values

The options by name, and what a value of each adds to a command line read so far. An option that
holds one value is not given twice. A grammar tells which options are known and what plain words
stand for.
-/
set_option autoImplicit false

namespace HeaderRename

inductive OptionName where
  | ini
  | dry
  | logLevel
  | fileLogLevel
  | logFile
  | backend
  | set
  | noDefaultInis
  | pattern
  | help
  | version
deriving DecidableEq, Repr

/-- What plain words stand for, where they stand for anything. -/
inductive Operand where
  | roots
  | table
deriving DecidableEq, Repr

structure Grammar where
  options : List OptionName
  operand : Option Operand
deriving DecidableEq, Repr

/-- What a command line has said so far. -/
structure Draft where
  global : GlobalOptions
  tool : ToolOptions
  table : Option TableName
deriving DecidableEq, Repr

namespace TableName

def name : TableName → String
  | limits => "limits"
  | lib => "lib"

def ofName? (text : String) : Option TableName :=
  [limits, lib].find? (·.name == text)

end TableName

namespace Backend

/-- The case of ASCII letters does not count. -/
def ofName? (text : String) : Option Backend :=
  [walk, find].find? (·.name == String.ofList (text.toList.map Char.toLower))

end Backend

namespace OptionName

def long : OptionName → String
  | ini => "ini"
  | dry => "dry"
  | logLevel => "log-level"
  | fileLogLevel => "file-log-level"
  | logFile => "log-file"
  | backend => "backend"
  | set => "set"
  | noDefaultInis => "no-default-inis"
  | pattern => "pattern"
  | help => "help"
  | version => "version"

def short? : OptionName → Option Char
  | ini => some 'i'
  | logLevel => some 'l'
  | backend => some 'b'
  | set => some 's'
  | pattern => some 'p'
  | help => some 'h'
  | version => some 'V'
  | dry | fileLogLevel | logFile | noDefaultInis => none

def takesValue : OptionName → Bool
  | dry | noDefaultInis | help | version => false
  | ini | logLevel | fileLogLevel | logFile | backend | set | pattern => true

end OptionName

namespace Grammar

def long? (grammar : Grammar) (name : String) : Option OptionName :=
  grammar.options.find? (·.long == name)

def short? (grammar : Grammar) (letter : Char) : Option OptionName :=
  grammar.options.find? (·.short? == some letter)

def globals : List OptionName :=
  [.ini, .dry, .logLevel, .fileLogLevel, .logFile, .backend, .set, .noDefaultInis]

def program : Grammar := ⟨globals ++ [.help, .version], none⟩

def tool : Grammar := ⟨[.pattern, .help], some .roots⟩

def rules : Grammar := ⟨[.help], some .table⟩

def plain : Grammar := ⟨[.help], none⟩

/-- The grammar of a program that runs one table only. -/
def standalone : Grammar := ⟨globals ++ [.pattern, .help, .version], some .roots⟩

end Grammar

namespace Draft

def empty : Draft := ⟨.empty, ⟨[], none⟩, none⟩

/-- The value of an option that is given once. -/
def once {α : Type} (old : Option α) (value : Except UsageError α) : Except UsageError α :=
  if old.isSome then .error .argumentConflict else value

def level (text : String) : Except UsageError Nat :=
  match Decimal.parseSigned? text.toList with
  | some n => if 0 ≤ n ∧ n ≤ 5 then .ok n.toNat else .error .valueValidation
  | none => .error .valueValidation

def path (text : String) : Except UsageError String :=
  if text.isEmpty then .error .invalidValue else .ok text

def backend (text : String) : Except UsageError Backend :=
  match Backend.ofName? text with
  | some backend => .ok backend
  | none => .error .valueValidation

/-- Adds an option with its value. -/
def give (draft : Draft) (option : OptionName) (text : String) : Except UsageError Draft :=
  let g := draft.global
  match option with
  | .ini => do return { draft with global.inis := g.inis ++ [← path text] }
  | .logLevel => do return { draft with global.logLevel := some (← once g.logLevel (level text)) }
  | .fileLogLevel => do
    return { draft with global.fileLogLevel := some (← once g.fileLogLevel (level text)) }
  | .logFile => do return { draft with global.logFile := some (← once g.logFile (path text)) }
  | .backend => do return { draft with global.backend := some (← once g.backend (backend text)) }
  | .set => .ok { draft with global.options := g.options ++ [text] }
  | .pattern => do
    return { draft with tool.pattern := some (← once draft.tool.pattern (.ok text)) }
  | .dry | .noDefaultInis | .help | .version => .error .tooManyValues

/-- Adds an option that takes no value. -/
def flag (draft : Draft) (option : OptionName) : Except UsageError Draft :=
  match option with
  | .dry =>
    if draft.global.dry then .error .argumentConflict
    else .ok { draft with global.dry := true }
  | .noDefaultInis =>
    if draft.global.noDefaultInis then .error .argumentConflict
    else .ok { draft with global.noDefaultInis := true }
  | .help => .error .displayHelp
  | .version => .error .displayVersion
  | .ini | .logLevel | .fileLogLevel | .logFile | .backend | .set | .pattern => .error .invalidValue

def addRoots (draft : Draft) (roots : List String) : Except UsageError Draft :=
  if roots.any (·.isEmpty) then .error .invalidValue
  else .ok { draft with tool.roots := draft.tool.roots ++ roots }

def addTable (draft : Draft) (text : String) : Except UsageError Draft :=
  match TableName.ofName? text with
  | some table => .ok { draft with table := some table }
  | none => .error .invalidValue

end Draft

end HeaderRename
