import HeaderRename.Arguments.Scan

/-!
# Reading a command line

The words up to the first that names a command are global options; the rest is read by the grammar
of the command. A wrong word behind the command is reported before a wrong value in front of it.
-/
set_option autoImplicit false

namespace HeaderRename

inductive CommandName where
  | version
  | options
  | inis
  | rules
  | fixLimits
  | updateIncludes
deriving DecidableEq, Repr

namespace CommandName

def all : List CommandName :=
  [version, options, inis, rules, fixLimits, updateIncludes]

/-- The words that name a command. -/
def words : CommandName → List String
  | version => ["version", "-v"]
  | options => ["options"]
  | inis => ["inis"]
  | rules => ["rules"]
  | fixLimits => ["fix-limits"]
  | updateIncludes => ["update-includes"]

def ofWord? (word : String) : Option CommandName :=
  all.find? (·.words.contains word)

def grammar : CommandName → Grammar
  | version | options | inis => .plain
  | rules => .rules
  | fixLimits | updateIncludes => .tool

/-- The command that the words behind its name ask for. -/
def command (name : CommandName) (draft : Draft) : Command :=
  match name with
  | version => .version
  | options => .options
  | inis => .inis
  | rules => .rules draft.table
  | fixLimits => .fixLimits draft.tool
  | updateIncludes => .updateIncludes draft.tool

def read (name : CommandName) (rest : List String) : Except UsageError Command :=
  (Scan.readAll name.grammar rest).map name.command

end CommandName

namespace Arguments

/-- A word that starts a command, help being one that is answered at once. -/
def startsCommand (word : String) : Bool :=
  word == "help" || (CommandName.ofWord? word).isSome

/-- Help is given on the whole program or on one command; no command has commands of its own. -/
def helpOn : List String → UsageError
  | [] => .displayHelp
  | [word] => if startsCommand word then .displayHelp else .invalidSubcommand
  | _ :: _ :: _ => .invalidSubcommand

/-- A plain word where a command should be; behind the end of the options the name of one is out of
place. -/
def strayWord (scan : Scan) (word : String) : UsageError :=
  if scan.plainOnly && startsCommand word then .unknownArgument else .invalidSubcommand

/-- Whether a word is no option and no value of one, where `scan` has come. -/
def isStray (scan : Scan) (word : String) : Bool :=
  match Word.ofString word with
  | .plain _ => scan.plainOnly || scan.isFree
  | _ => scan.plainOnly

def readFrom (scan : Scan) : List String → Except UsageError Arguments
  | [] => do return ⟨(← scan.close).global, none⟩
  | word :: rest =>
    if scan.isFree && startsCommand word then
      match CommandName.ofWord? word with
      | none => .error (helpOn rest)
      | some name => do
        let command ← name.read rest
        return ⟨(← scan.close).global, some command⟩
    else if isStray scan word then .error (strayWord scan word)
    else do readFrom (← scan.step .program word) rest

def read (words : List String) : Except UsageError Arguments :=
  readFrom .start words

end Arguments

namespace ToolArguments

def read (words : List String) : Except UsageError ToolArguments := do
  let draft ← Scan.readAll .standalone words
  return ⟨draft.global, draft.tool⟩

end ToolArguments

end HeaderRename
