import HeaderRename.Discovery.Discover

/-!
# Options and commands

What a command line asks for. The global options that set a configuration field are written as
overrides, after those given as such, so that they win.
-/
set_option autoImplicit false

namespace HeaderRename

structure GlobalOptions where
  inis : List String
  dry : Bool
  logLevel : Option Nat
  fileLogLevel : Option Nat
  logFile : Option String
  backend : Option Backend
  options : List String
  noDefaultInis : Bool
deriving DecidableEq, Repr

namespace GlobalOptions

def empty : GlobalOptions where
  inis := []
  dry := false
  logLevel := none
  fileLogLevel := none
  logFile := none
  backend := none
  options := []
  noDefaultInis := false

/-- The log level counts for the log file too, unless that has a level of its own. -/
def overrides (g : GlobalOptions) : List String :=
  g.options ++
    (g.logLevel.map fun level => s!"global/output_log_level={level}").toList ++
    ((g.fileLogLevel.or g.logLevel).map fun level => s!"global/file_log_level={level}").toList ++
    (g.logFile.map fun file => s!"global/log_file={file}").toList ++
    (if g.dry then ["global/dry=true"] else []) ++
    (g.backend.map fun backend => s!"discovery/backend={backend.name}").toList

end GlobalOptions

structure ToolOptions where
  roots : List String
  pattern : Option String
deriving DecidableEq, Repr

inductive TableName where
  | limits
  | lib
deriving DecidableEq, Repr

inductive Command where
  | version
  | options
  | inis
  | rules (table : Option TableName)
  | fixLimits (tool : ToolOptions)
  | updateIncludes (tool : ToolOptions)
deriving DecidableEq, Repr

structure Arguments where
  global : GlobalOptions
  command : Option Command
deriving DecidableEq, Repr

/-- The command line of a program that runs one table only. -/
structure ToolArguments where
  global : GlobalOptions
  tool : ToolOptions
deriving DecidableEq, Repr

end HeaderRename
