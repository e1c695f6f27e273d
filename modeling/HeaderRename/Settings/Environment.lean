import HeaderRename.Number.Decimal
import HeaderRename.Settings.KeyPath
import HeaderRename.Text.Lowercase
import HeaderRename.Text.Replace

/-!
# Settings from the environment

A variable whose lower-case name starts with the prefix gives one setting; two underscores in the
rest of its name stand for a point. Its value is a boolean, an integer or a number if it reads as
one, else text.
-/
set_option autoImplicit false

namespace HeaderRename

/-- The variables of the environment with their values. -/
abbrev Variables := List (String × String)

namespace Environment

def originName : Origin := some "the environment"

def scalarOf (value : String) : Scalar :=
  let lowered := Lowercase.lower value
  if lowered == "true" then .bool true
  else if lowered == "false" then .bool false
  else
    match Decimal.parseSigned? value.toList with
    | some n => .int n
    | none =>
      match Decimal.parseFloat? value.toList with
      | some x => .float x
      | none => .text value

/-- The name of the setting that a variable gives under a prefix, if it gives one. -/
def settingName? (start variable_ : String) : Option String :=
  let start := (Lowercase.lower (start ++ "_")).toList
  let name := (Lowercase.lower variable_).toList
  if start.isPrefixOf name then
    some (String.ofList (Text.replace ['_', '_'] ['.'] (name.drop start.length)))
  else none

/-- Sets all settings of a prefix, in the order of the variables. -/
def apply (start : String) (vars : Variables) (root : Setting) : Setting :=
  vars.foldl (fun root (name, value) =>
    match settingName? start name with
    | some key => root.setNamed key (.scalar originName (scalarOf value))
    | none => root) root

end Environment

end HeaderRename
