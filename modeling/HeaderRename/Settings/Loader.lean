import HeaderRename.Arguments.Options
import HeaderRename.Settings.Config
import HeaderRename.Settings.Environment
import HeaderRename.Settings.Source
import HeaderRename.Text.Blank

/-!
# Loading the configuration

The layers are merged from the lowest up: the sources in the order added, the environment, the
overrides. Of two overrides of one key the last counts. The merged settings are then read as a
configuration, which must be valid.
-/
set_option autoImplicit false

namespace HeaderRename

inductive LoadFault where
  | source (fault : SourceFault)
  | setting (fault : SettingFault)
  | keyPath (key : String)
  | invalid (error : Error)
deriving DecidableEq, Repr

namespace SourceFault

def message : SourceFault → String
  | malformed none => "TOML parse error"
  | malformed (some path) => s!"TOML parse error in {path}"
  | missing path => s!"configuration file \"{path}\" not found"

end SourceFault

namespace LoadFault

def chain : LoadFault → List String
  | source fault => [fault.message]
  | setting fault => [fault.text]
  | keyPath key => [s!"Config error: invalid key path {Quoted.quote key}"]
  | invalid error => error.chain

end LoadFault

structure Loader where
  sources : List Source
  variablesOf : Option String
  overrides : List (KeyPath × Setting)
  listed : List (String × String)

namespace Loader

def empty : Loader where
  sources := []
  variablesOf := none
  overrides := []
  listed := []

def addText (loader : Loader) (content : String) : Loader :=
  { loader with
    sources := loader.sources ++ [.text content]
    listed := loader.listed ++ [("string", "<string>")] }

def addFile (loader : Loader) (path : String) : Loader :=
  { loader with
    sources := loader.sources ++ [.file path]
    listed := loader.listed ++ [("file", path)] }

/-- An optional file is listed only if there is something under its path. -/
def addOptionalFile (loader : Loader) (disk : Disk) (path : String) : Loader :=
  { loader with
    sources := loader.sources ++ [.optionalFile path]
    listed := loader.listed ++ (if disk.pathExists path then [("optional", path)] else []) }

def withEnvironment (loader : Loader) (start : String) : Loader :=
  { loader with variablesOf := some start }

/-- Sets the value of an override, in its place if the key has one already. -/
def putOverride (key : KeyPath) (value : Setting) :
    List (KeyPath × Setting) → List (KeyPath × Setting)
  | [] => [(key, value)]
  | (k, v) :: rest => if k = key then (k, value) :: rest else (k, v) :: putOverride key value rest

def set (loader : Loader) (key : String) (value : Setting) : Except LoadFault Loader :=
  match KeyPath.parse? key with
  | none => .error (.keyPath key)
  | some path => .ok { loader with overrides := putOverride path value loader.overrides }

/-- Both sides of the first occurrence of a character. -/
def splitOnce (sep : Char) : List Char → Option (List Char × List Char)
  | [] => none
  | c :: rest =>
    if c = sep then some ([], rest)
    else (splitOnce sep rest).map fun (left, right) => (c :: left, right)

/-- The key and the value of an override of the form `section/key=value`. -/
def parseOverride (raw : String) : Except LoadFault (String × String) :=
  let malformed : LoadFault := .invalid (.config (.parse "<command line>"
    s!"expected 'section/key=value', got '{raw}'"))
  match splitOnce '=' raw.toList with
  | none => .error malformed
  | some (path, value) =>
    match splitOnce '/' (Blank.trim path) with
    | none => .error malformed
    | some (section_, key) =>
      if section_.isEmpty || key.isEmpty then .error malformed
      else .ok (String.ofList (section_ ++ '.' :: key), String.ofList (Blank.trim value))

def applyOverrides (loader : Loader) : List String → Except LoadFault Loader
  | [] => .ok loader
  | raw :: rest => do
    let (key, value) ← parseOverride raw
    applyOverrides (← loader.set key (.ofText value)) rest

/-- The merged settings of all layers. -/
def merged (loader : Loader) (disk : Disk) (vars : Variables) :
    Except LoadFault Setting := do
  let root ← (loader.sources.foldlM (Source.apply disk) Setting.emptyTable).mapError .source
  let root := match loader.variablesOf with
    | some start => Environment.apply start vars root
    | none => root
  return loader.overrides.foldl
    (fun root (path, value) => Setting.setAt value path (some root)) root

def build (loader : Loader) (disk : Disk) (vars : Variables) : Except LoadFault Config := do
  let root ← loader.merged disk vars
  let config ← (Config.ofSetting root).mapError .setting
  (config.validate).mapError .invalid
  return config

/-- The files read, numbered from one. -/
def listing (loader : Loader) : List String :=
  loader.listed.zipIdx.map fun ((kind, path), i) => s!"{i + 1}. [{kind}] {path}"

def defaultIni : String := "incfix.toml"

def variableStart : String := "INCFIX"

/-- The layers that a command line asks for. -/
def ofOptions (disk : Disk) (global : GlobalOptions) : Except LoadFault Loader :=
  let loader :=
    if global.noDefaultInis then empty else empty.addOptionalFile disk defaultIni
  let loader := global.inis.foldl addFile loader
  (loader.withEnvironment variableStart).applyOverrides global.overrides

end Loader

/-- The configuration of a command line. -/
def loadConfig (disk : Disk) (vars : Variables) (global : GlobalOptions) :
    Except LoadFault Config := do
  (← Loader.ofOptions disk global).build disk vars

/-- The configuration in a text alone. -/
def Config.parse (content : String) : Except LoadFault Config :=
  (Loader.empty.addText content).build .empty []

end HeaderRename
