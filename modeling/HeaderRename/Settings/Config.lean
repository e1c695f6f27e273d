import HeaderRename.Discovery.Discover
import HeaderRename.Rename.Builtin
import HeaderRename.Run.Rewrite
import HeaderRename.Settings.Convert

/-!
# The configuration

The configuration has five sections with fixed fields; a field that no layer sets has its default,
and a field that is not there is refused. A configuration is valid when both root lists are not
empty and both tables of renames are accepted.
-/
set_option autoImplicit false

namespace HeaderRename

structure GlobalConfig where
  dry : Bool
  outputLevel : Level
  fileLevel : Level
  logFile : Option String
deriving DecidableEq, Repr

structure DiscoveryConfig where
  backend : Backend
  followLinks : Bool
  includeHidden : Bool
  respectGitignore : Bool
  skipDirs : List String
deriving DecidableEq, Repr

structure EncodingConfig where
  encoding : Encoding
  onInvalid : DecodePolicy
deriving DecidableEq, Repr

structure LimitsConfig where
  roots : List String
  pattern : String
  old : String
  new : String
deriving DecidableEq, Repr

structure RenameEntry where
  old : String
  new : String
  quoted : Bool
  angle : Bool
deriving DecidableEq, Repr

/-- The rename that an entry asks for. -/
def RenameEntry.toRename (entry : RenameEntry) : Rename :=
  ⟨entry.old, entry.new, ⟨entry.quoted, entry.angle⟩⟩

structure LibConfig where
  roots : List String
  pattern : String
  replaceDefaults : Bool
  renames : List RenameEntry
deriving DecidableEq, Repr

structure Config where
  global : GlobalConfig
  discovery : DiscoveryConfig
  encoding : EncodingConfig
  limits : LimitsConfig
  lib : LibConfig
deriving DecidableEq, Repr

namespace Config

def defaultPattern : String := "*.[ch]"

def default : Config where
  global := { dry := false, outputLevel := .info, fileLevel := .trace, logFile := none }
  discovery :=
    { backend := .walk, followLinks := false, includeHidden := true, respectGitignore := false
      skipDirs := [] }
  encoding := { encoding := .utf8, onInvalid := .ignore }
  limits :=
    { roots := ["src", "lib"], pattern := defaultPattern, old := "limits.h", new := "llimits.h" }
  lib := { roots := ["lib"], pattern := defaultPattern, replaceDefaults := false, renames := [] }

open Setting

def backends : List (String × Backend) := [("walk", .walk), ("find", .find)]

def encodings : List (String × Encoding) := [("utf8", .utf8), ("acp", .acp), ("oem", .oem)]

def policies : List (String × DecodePolicy) := [("ignore", .ignore), ("replace", .replace)]

def toLevel (value : Setting) : Result Level := do
  let n ← value.toByte
  match Level.ofConfig n with
  | .ok level => return level
  | .error error => throw (.message error.message none)

def globalFields : List (FieldReader GlobalConfig) :=
  [.of "dry" toBool fun s v => { s with dry := v },
    .of "output_log_level" toLevel fun s v => { s with outputLevel := v },
    .of "file_log_level" toLevel fun s v => { s with fileLevel := v },
    .of "log_file" (toOption toText) fun s v => { s with logFile := v }]

def discoveryFields : List (FieldReader DiscoveryConfig) :=
  [.of "backend" (toVariant "Backend" backends) fun s v => { s with backend := v },
    .of "follow_links" toBool fun s v => { s with followLinks := v },
    .of "include_hidden" toBool fun s v => { s with includeHidden := v },
    .of "respect_gitignore" toBool fun s v => { s with respectGitignore := v },
    .of "skip_dirs" (toList toText) fun s v => { s with skipDirs := v }]

def encodingFields : List (FieldReader EncodingConfig) :=
  [.of "encoding" (toVariant "Encoding" encodings) fun s v => { s with encoding := v },
    .of "on_invalid" (toVariant "DecodePolicy" policies) fun s v => { s with onInvalid := v }]

def limitsFields : List (FieldReader LimitsConfig) :=
  [.of "roots" (toList toText) fun s v => { s with roots := v },
    .of "pattern" toText fun s v => { s with pattern := v },
    .of "from" toText fun s v => { s with old := v },
    .of "to" toText fun s v => { s with new := v }]

/-- A rename entry being read; its names have no default. -/
structure RenameDraft where
  old : Option String
  new : Option String
  quoted : Bool
  angle : Bool

def renameFields : List (FieldReader RenameDraft) :=
  [.of "from" toText fun s v => { s with old := some v },
    .of "to" toText fun s v => { s with new := some v },
    .of "quoted" toBool fun s v => { s with quoted := v },
    .of "angle" toBool fun s v => { s with angle := v }]

/-- A missing name is told by its field in a table, by the number of items in a list. -/
def missingName {α : Type} (value : Setting) (field : String) (count : Nat) : Result α :=
  match value with
  | .list .. =>
    .error (.message s!"invalid length {count}, expected struct MappingEntry with 4 elements" none)
  | _ => .error (.missing field)

def toRenameEntry (value : Setting) : Result RenameEntry := do
  let draft ← readStruct "MappingEntry" renameFields ⟨none, none, true, true⟩ value
  match draft.old, draft.new with
  | some old, some new => return { old, new, quoted := draft.quoted, angle := draft.angle }
  | none, _ => missingName value "from" 0
  | _, none => missingName value "to" 1

def libFields : List (FieldReader LibConfig) :=
  [.of "roots" (toList toText) fun s v => { s with roots := v },
    .of "pattern" toText fun s v => { s with pattern := v },
    .of "replace_defaults" toBool fun s v => { s with replaceDefaults := v },
    .of "mappings" (toList toRenameEntry) fun s v => { s with renames := v }]

def sections : List (FieldReader Config) :=
  [.of "global" (readStruct "GlobalConfig" globalFields default.global)
      fun s v => { s with global := v },
    .of "discovery" (readStruct "DiscoveryConfig" discoveryFields default.discovery)
      fun s v => { s with discovery := v },
    .of "encoding" (readStruct "EncodingConfig" encodingFields default.encoding)
      fun s v => { s with encoding := v },
    .of "limits" (readStruct "LimitsConfig" limitsFields default.limits)
      fun s v => { s with limits := v },
    .of "lib" (readStruct "LibConfig" libFields default.lib) fun s v => { s with lib := v }]

def ofSetting (value : Setting) : Result Config :=
  readStruct "Config" sections default value

def ofTexts (texts : List String) : Setting :=
  .list none (texts.map Setting.ofText)

def ofLevel (level : Level) : Setting :=
  .ofInt level.toNat

def nameOf {α : Type} [DecidableEq α] (variants : List (String × α)) (value : α) : String :=
  ((variants.find? (·.2 = value)).map (·.1)).getD ""

def ofRenameEntry (entry : RenameEntry) : Setting :=
  .table none [("from", .ofText entry.old), ("to", .ofText entry.new),
    ("quoted", .ofBool entry.quoted), ("angle", .ofBool entry.angle)]

def ofGlobal (c : GlobalConfig) : Setting :=
  .table none ([("dry", .ofBool c.dry), ("output_log_level", ofLevel c.outputLevel),
    ("file_log_level", ofLevel c.fileLevel)] ++
    (c.logFile.map fun file => ("log_file", Setting.ofText file)).toList)

def ofDiscovery (c : DiscoveryConfig) : Setting :=
  .table none ([("backend", .ofText (nameOf backends c.backend)),
    ("follow_links", .ofBool c.followLinks), ("include_hidden", .ofBool c.includeHidden),
    ("respect_gitignore", .ofBool c.respectGitignore)] ++
    (if c.skipDirs.isEmpty then [] else [("skip_dirs", ofTexts c.skipDirs)]))

def ofEncoding (c : EncodingConfig) : Setting :=
  .table none [("encoding", .ofText (nameOf encodings c.encoding)),
    ("on_invalid", .ofText (nameOf policies c.onInvalid))]

def ofLimits (c : LimitsConfig) : Setting :=
  .table none [("roots", ofTexts c.roots), ("pattern", .ofText c.pattern),
    ("from", .ofText c.old), ("to", .ofText c.new)]

def ofLib (c : LibConfig) : Setting :=
  .table none ([("roots", ofTexts c.roots), ("pattern", .ofText c.pattern),
    ("replace_defaults", .ofBool c.replaceDefaults)] ++
    (if c.renames.isEmpty then [] else [("mappings", .list none (c.renames.map ofRenameEntry))]))

/-- The settings that give the configuration; empty lists and an absent log file are left out. -/
def toSetting (config : Config) : Setting :=
  .table none [("global", ofGlobal config.global), ("discovery", ofDiscovery config.discovery),
    ("encoding", ofEncoding config.encoding), ("limits", ofLimits config.limits),
    ("lib", ofLib config.lib)]

def limitsTable (config : Config) : Except Error Table :=
  (Table.ofRenames? "limits" "limits include"
    [⟨config.limits.old, config.limits.new, ⟨true, false⟩⟩]).mapError (Error.ofTableFault "limits")

/-- The built-in renames come first, unless they are replaced. -/
def libTable (config : Config) : Except Error Table :=
  if !config.lib.replaceDefaults && config.lib.renames.isEmpty then .ok Table.lib
  else
    let builtin := if config.lib.replaceDefaults then [] else Table.lib.renames
    (Table.ofRenames? "lib" "includes"
      (builtin ++ config.lib.renames.map RenameEntry.toRename)).mapError (Error.ofTableFault "lib")

def requireRoots (section_ : String) (roots : List String) : Except Error Unit :=
  if roots.isEmpty then .error (.config (.invalidValue section_ "roots" .noRoots)) else .ok ()

def validate (config : Config) : Except Error Unit := do
  requireRoots "limits" config.limits.roots
  requireRoots "lib" config.lib.roots
  let _ ← config.limitsTable
  let _ ← config.libTable
  return ()

def walkOptions (config : Config) : WalkOptions where
  followLinks := config.discovery.followLinks
  includeHidden := config.discovery.includeHidden
  respectGitignore := config.discovery.respectGitignore
  skipDirs := config.discovery.skipDirs

def rewriteOptions (config : Config) : RewriteOptions where
  encoding := config.encoding.encoding
  policy := config.encoding.onInvalid
  dry := config.global.dry

end Config

end HeaderRename
