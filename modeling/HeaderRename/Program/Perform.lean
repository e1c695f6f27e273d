import HeaderRename.Program.Basic
import HeaderRename.Run.Table
import HeaderRename.Settings.Listing
import HeaderRename.Settings.Loader

/-!
# Performing a command

What a command prints, logs and changes under a configuration. Roots and pattern of a command line
take the place of those of the configuration.
-/
set_option autoImplicit false

namespace HeaderRename

/-- What a command has done; the fault is the chain of its causes. -/
structure Performed where
  disk : Disk
  output : List String
  events : List Event
  notes : List String
  fault : Option (List String)

namespace Performed

def printing (disk : Disk) (output : List String) : Performed :=
  ⟨disk, output, [], [], none⟩

def failing (disk : Disk) (fault : List String) : Performed :=
  ⟨disk, [], [], [], some fault⟩

end Performed

namespace Command

def runTable (host : Host) (config : Config) (table : Except Error Table)
    (roots : List String) (pattern : String) (tool : ToolOptions) : Performed :=
  match table with
  | .error error => .failing host.disk error.chain
  | .ok table =>
    let search : Search :=
      { roots := if tool.roots.isEmpty then roots else tool.roots
        pattern := tool.pattern.getD pattern
        backend := config.discovery.backend
        options := config.walkOptions
        command := host.finder? }
    let outcome := Run.execute { table, search, options := config.rewriteOptions } host.disk
    let fault := match outcome.result with
      | .ok _ => none
      | .error error => some error.chain
    ⟨outcome.progress.disk, outcome.progress.report, outcome.progress.events, [], fault⟩

def tables (config : Config) : Option TableName → List (Except Error Table)
  | some .limits => [config.limitsTable]
  | some .lib => [config.libTable]
  | none => [config.limitsTable, config.libTable]

/-- The tables one below the other, with a blank line between them. -/
def tableLines (tables : List Table) : List String :=
  [""].intercalate (tables.map Table.listing)

def listRules (host : Host) (config : Config) (table : Option TableName) : Performed :=
  match (tables config table).mapM id with
  | .error error => .failing host.disk error.chain
  | .ok tables => .printing host.disk (tableLines tables)

def listFiles (host : Host) (global : GlobalOptions) : Performed :=
  match Loader.ofOptions host.disk global with
  | .error fault => .failing host.disk fault.chain
  | .ok loader =>
    .printing host.disk
      (if loader.listed.isEmpty then ["No configuration files loaded"] else loader.listing)

def missing (host : Host) : Performed where
  disk := host.disk
  output := []
  events := []
  notes := ["No command specified. Use --help for usage information."]
  fault := some ["No command specified"]

def perform (host : Host) (config : Config) (arguments : Arguments) : Performed :=
  match arguments.command with
  | none => missing host
  | some .version => .printing host.disk [Program.versionText]
  | some .options => .printing host.disk config.optionLines
  | some .inis => listFiles host arguments.global
  | some (.rules table) => listRules host config table
  | some (.fixLimits tool) =>
    runTable host config config.limitsTable config.limits.roots config.limits.pattern tool
  | some (.updateIncludes tool) =>
    runTable host config config.libTable config.lib.roots config.lib.pattern tool

end Command

end HeaderRename
