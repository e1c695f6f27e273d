import HeaderRename.Settings.Config
import HeaderRename.Text.Column

/-!
# The listing of options

One line per option, sorted by name, the names padded to the longest.
-/
set_option autoImplicit false

namespace HeaderRename.Config

def joined (texts : List String) : String :=
  ", ".intercalate texts

def options (c : Config) : List (String × String) :=
  [("discovery.backend", c.discovery.backend.name),
    ("discovery.follow_links", toString c.discovery.followLinks),
    ("discovery.include_hidden", toString c.discovery.includeHidden),
    ("discovery.respect_gitignore", toString c.discovery.respectGitignore)] ++
  (if c.discovery.skipDirs.isEmpty then []
    else [("discovery.skip_dirs", joined c.discovery.skipDirs)]) ++
  [("encoding.encoding", nameOf encodings c.encoding.encoding),
    ("encoding.on_invalid", nameOf policies c.encoding.onInvalid),
    ("global.dry", toString c.global.dry),
    ("global.file_log_level", toString c.global.fileLevel.toNat)] ++
  (c.global.logFile.map fun file => ("global.log_file", file)).toList ++
  [("global.output_log_level", toString c.global.outputLevel.toNat),
    ("lib.mappings", toString c.lib.renames.length),
    ("lib.pattern", c.lib.pattern),
    ("lib.replace_defaults", toString c.lib.replaceDefaults),
    ("lib.roots", joined c.lib.roots),
    ("limits.from", c.limits.old),
    ("limits.pattern", c.limits.pattern),
    ("limits.roots", joined c.limits.roots),
    ("limits.to", c.limits.new)]

def optionLines (c : Config) : List String :=
  let options := c.options
  let width := (options.map (·.1.length)).foldl max 0
  options.map fun (name, value) => padRight width name ++ " = " ++ value

end HeaderRename.Config
