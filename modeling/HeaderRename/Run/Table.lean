import HeaderRename.Discovery.Discover
import HeaderRename.Run.Rewrite

/-!
# Running a table over files

A run warns of the table's hazards, discovers the files, and rewrites them one after another in
the order found, so that a file listed twice is rewritten twice. It ends at the first file that
cannot be read; what was done before stays done, by the search as well.
-/
set_option autoImplicit false

namespace HeaderRename

structure Run where
  table : Table
  search : Search
  options : RewriteOptions

structure Summary where
  scanned : Nat
  updated : Nat
deriving DecidableEq, Repr

/-- What a run has done so far. -/
structure Progress where
  disk : Disk
  report : List String
  written : List Place
  events : List Event
  updated : Nat

structure RunOutcome where
  progress : Progress
  result : Except Error Summary

namespace Run

def hazardEvent (run : Run) (hazard : Table.Hazard) : Event :=
  ⟨.warn, "cmd::rewrite", s!"chained rename: {hazard.message}",
    [("table", Quoted.quote run.table.name)]⟩

def scanningEvent (path : String) : Event :=
  ⟨.debug, "cmd::rewrite", "scanning", [("path", path)]⟩

def ruleEvent (rule : Rule) : Event :=
  ⟨.trace, "rewrite", "rule matched", [("pattern", Quoted.quote (String.ofList rule.pattern))]⟩

def dryEvent (path : String) : Event :=
  ⟨.debug, "rewrite", "dry run, not writing", [("path", path)]⟩

def completeEvent (run : Run) (summary : Summary) : Event :=
  ⟨.info, "cmd::rewrite", "run complete",
    [("table", Quoted.quote run.table.name), ("scanned", toString summary.scanned),
      ("updated", toString summary.updated), ("dry", toString run.options.dry)]⟩

def reportLine (run : Run) (path : String) : String :=
  s!"Updating {run.table.description} in {path}" ++
    (if run.options.dry then " (dry run)" else "")

def visit (run : Run) (progress : Progress) (path : String) : Except Error Progress :=
  match progress.disk.rewriteFile run.table.rules run.options path with
  | .error error => .error (.file error)
  | .ok outcome =>
    let events := progress.events ++ [scanningEvent path] ++ outcome.matched.map ruleEvent ++
      (if outcome.updated && run.options.dry then [dryEvent path] else [])
    .ok
      { disk := outcome.disk
        report := progress.report ++ (if outcome.updated then [run.reportLine path] else [])
        written := progress.written ++ outcome.written
        events
        updated := progress.updated + (if outcome.updated then 1 else 0) }

/-- Visits the files in order; the error is that of the first file that cannot be rewritten. -/
def visitAll (run : Run) (progress : Progress) : List String → Progress × Option Error
  | [] => (progress, none)
  | path :: paths =>
    match run.visit progress path with
    | .error error =>
      ({ progress with events := progress.events ++ [scanningEvent path] }, some error)
    | .ok progress => visitAll run progress paths

/-- What has been done before the first file is visited. -/
def start (run : Run) (found : Discovered) : Progress where
  disk := found.disk
  report := []
  written := []
  events := run.table.hazards.map run.hazardEvent ++ found.events
  updated := 0

def execute (run : Run) (disk : Disk) : RunOutcome :=
  let found := run.search.run disk
  match found.result with
  | .error error => ⟨run.start found, .error error⟩
  | .ok files =>
    match run.visitAll (run.start found) files with
    | (progress, some error) => ⟨progress, .error error⟩
    | (progress, none) =>
      let summary := { scanned := files.length, updated := progress.updated }
      ⟨{ progress with events := progress.events ++ [run.completeEvent summary] }, .ok summary⟩

end Run

end HeaderRename
