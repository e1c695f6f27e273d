import HeaderRename.Arguments.Reading
import HeaderRename.Discovery.Listing
import HeaderRename.Settings.Environment

/-!
# The programs

One program has a command for each job; two more do the job of one command each and take the global
options and the command's own side by side.
-/
set_option autoImplicit false

namespace HeaderRename

inductive Program where
  | full
  | limitsOnly
  | libOnly
deriving DecidableEq, Repr

/-- What a program finds where it runs: the files, the variables, which paths outside the files can
be executed, what the listing command does with arguments that make no query, and the time that log
lines show. -/
structure Host where
  disk : Disk
  vars : Variables
  executable : String → Bool
  listing : Disk → List String → Listing.Answer
  time : String

def Host.finder? (host : Host) : Option Finder :=
  (Listing.locate? (host.vars.lookup "PATH") host.executable).map fun program =>
    ⟨program, host.listing⟩

/-- What a run of a program leaves. -/
structure Outcome where
  code : Nat
  output : List String
  errors : List String
  disk : Disk

namespace Program

def versionText : String := "0.1.0"

def read (program : Program) (words : List String) : Except UsageError Arguments :=
  match program with
  | full => Arguments.read words
  | limitsOnly =>
    (ToolArguments.read words).map fun a => ⟨a.global, some (.fixLimits a.tool)⟩
  | libOnly =>
    (ToolArguments.read words).map fun a => ⟨a.global, some (.updateIncludes a.tool)⟩

def usage : Program → String
  | full =>
    "Usage: incfix [OPTIONS] [version|options|inis|rules|fix-limits|update-includes|help]"
  | limitsOnly => "Usage: fix-limits-include [OPTIONS] [ROOT]..."
  | libOnly => "Usage: update-lib-includes [OPTIONS] [ROOT]..."

end Program

end HeaderRename
