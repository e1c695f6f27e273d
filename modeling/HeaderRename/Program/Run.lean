import HeaderRename.Log.File
import HeaderRename.Program.Perform

/-!
# Running a program

A run reads the command line, loads the configuration, opens the log file if one is set, and
performs the command. Exit code 2 tells of a wrong command line, 1 of any later fault. What is
logged at the level of the console comes before the fault that ends the run.
-/
set_option autoImplicit false

namespace HeaderRename.Program

def causes (chain : List String) : String :=
  ": ".intercalate chain

def failed (disk : Disk) (line : String) : Outcome :=
  ⟨1, [], [line], disk⟩

/-- The answer to a command line that asks for no work. -/
def answerUsage (program : Program) (host : Host) : UsageError → Outcome
  | .displayHelp => ⟨0, [program.usage], [], host.disk⟩
  | .displayVersion => ⟨0, [s!"incfix {versionText}"], [], host.disk⟩
  | error => ⟨2, [], [error.message, program.usage], host.disk⟩

def openLog (disk : Disk) (config : Config) : Disk × Except LogFile.Fault (Option Place) :=
  match config.global.logFile with
  | none => (disk, .ok none)
  | some path =>
    let (disk, place) := LogFile.create disk path
    (disk, place.map some)

/-- What is left of a command: its output, the log and its fault. -/
def finish (host : Host) (config : Config) (log : Option Place) (done : Performed) : Outcome where
  code := if done.fault.isSome then 1 else 0
  output := done.output
  errors := Event.linesAt config.global.outputLevel Event.consoleLine done.events ++ done.notes ++
    (done.fault.map fun chain => "Error: " ++ causes chain).toList
  disk :=
    match log with
    | none => done.disk
    | some place =>
      LogFile.append done.disk place
        (Event.linesAt config.global.fileLevel (Event.fileLine host.time) done.events)

def runWith (host : Host) (arguments : Arguments) : Outcome :=
  match loadConfig host.disk host.vars arguments.global with
  | .error fault => failed host.disk s!"Failed to load config: {causes fault.chain}"
  | .ok config =>
    match openLog host.disk config with
    | (disk, .error fault) => failed disk s!"Failed to initialize logging: {fault.message}"
    | (disk, .ok log) =>
      finish host config log (Command.perform { host with disk } config arguments)

def run (program : Program) (host : Host) (words : List String) : Outcome :=
  match program.read words with
  | .error error => program.answerUsage host error
  | .ok arguments => runWith host arguments

end HeaderRename.Program
