import HeaderRename.Rename.Table

/-!
# Errors

Each error is a cause; its wording is in one function per kind. `Error.chain` lists the wording of
an error followed by that of each cause below it.
-/
set_option autoImplicit false

namespace HeaderRename

/-- Why an operation on a file failed. -/
inductive FileFault where
  | notFound
  | notADirectory
  | isADirectory
  | tooManyLinks
  | other (text : String)
deriving DecidableEq, Repr

namespace FileFault

def message : FileFault → String
  | notFound => "No such file or directory (os error 2)"
  | notADirectory => "Not a directory (os error 20)"
  | isADirectory => "Is a directory (os error 21)"
  | tooManyLinks => "Too many levels of symbolic links (os error 40)"
  | other text => text

end FileFault

inductive DiscoveryError where
  | noRoots
  | rootNotFound (path : String)
  | notADirectory (path : String)
  | invalidPattern (pattern message : String)
  | walk (root message : String)
deriving DecidableEq, Repr

namespace DiscoveryError

def message : DiscoveryError → String
  | noRoots => "no search roots given"
  | rootNotFound path => s!"search root does not exist: {path}"
  | notADirectory path => s!"search root is not a directory: {path}"
  | invalidPattern pattern message => s!"invalid file pattern '{pattern}': {message}"
  | walk root message => s!"failed to walk '{root}': {message}"

end DiscoveryError

inductive ProcessError where
  | executableNotFound (name : String)
  | spawnFailed (command : String) (fault : FileFault)
  | nonZeroExit (command : String) (code : Int) (stderr : String)
deriving DecidableEq, Repr

namespace ProcessError

def message : ProcessError → String
  | executableNotFound name => s!"executable not found: '{name}' (not in PATH)"
  | spawnFailed command fault => s!"failed to spawn process '{command}': {fault.message}"
  | nonZeroExit command code stderr => s!"process '{command}' exited with code {code}: {stderr}"

def causes : ProcessError → List String
  | spawnFailed _ fault => [fault.message]
  | _ => []

end ProcessError

/-- What is wrong with a value of the configuration. -/
inductive ValueFault where
  | table (fault : Table.Fault)
  | noRoots
  | level (value : Nat)
  | other (text : String)
deriving DecidableEq, Repr

namespace ValueFault

def message : ValueFault → String
  | table fault => fault.message
  | noRoots => "at least one root directory is required"
  | level value => s!"log level must be 0-5, got {value}"
  | other text => text

end ValueFault

inductive ConfigError where
  | parse (path message : String)
  | invalidValue (section_ key : String) (fault : ValueFault)
deriving DecidableEq, Repr

namespace ConfigError

def message : ConfigError → String
  | parse path message => s!"failed to parse config file '{path}': {message}"
  | invalidValue section_ key fault =>
    s!"invalid value for '{key}' in section '[{section_}]': {fault.message}"

end ConfigError

inductive FileError where
  | readFailed (path : String) (fault : FileFault)
  | writeFailed (path : String) (fault : FileFault)
deriving DecidableEq, Repr

namespace FileError

def fault : FileError → FileFault
  | readFailed _ fault => fault
  | writeFailed _ fault => fault

def message : FileError → String
  | readFailed path fault => s!"failed to read '{path}': {fault.message}"
  | writeFailed path fault => s!"failed to write '{path}': {fault.message}"

end FileError

inductive Error where
  | discovery (error : DiscoveryError)
  | process (error : ProcessError)
  | config (error : ConfigError)
  | file (error : FileError)
  | other (message : String)
deriving DecidableEq, Repr

namespace Error

def message : Error → String
  | discovery error => s!"discovery error: {error.message}"
  | process error => s!"process error: {error.message}"
  | config error => s!"config error: {error.message}"
  | file error => s!"filesystem error: {error.message}"
  | other message => message

def causes : Error → List String
  | discovery error => [error.message]
  | process error => error.message :: error.causes
  | config error => [error.message]
  | file error => [error.message, error.fault.message]
  | other _ => []

def chain (error : Error) : List String :=
  error.message :: error.causes

/-- The rejection of the renames of the named table. -/
def ofTableFault (table : String) (fault : Table.Fault) : Error :=
  .config (.invalidValue table "mappings" (.table fault))

end Error

end HeaderRename
