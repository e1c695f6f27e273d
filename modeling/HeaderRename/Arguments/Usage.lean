/-!
# Usage errors

The ways in which a command line does not say what to run. A request for help or for the version is
one of them: it ends the reading too.
-/
set_option autoImplicit false

namespace HeaderRename

inductive UsageError where
  | unknownArgument
  | invalidSubcommand
  | invalidValue
  | valueValidation
  | argumentConflict
  | tooManyValues
  | displayHelp
  | displayVersion
deriving DecidableEq, Repr

namespace UsageError

def message : UsageError → String
  | unknownArgument => "error: unexpected argument"
  | invalidSubcommand => "error: unrecognized subcommand"
  | invalidValue => "error: invalid or missing value"
  | valueValidation => "error: value out of range"
  | argumentConflict => "error: argument given more than once"
  | tooManyValues => "error: unexpected value for a flag"
  | displayHelp => "help"
  | displayVersion => "version"

end UsageError

end HeaderRename
