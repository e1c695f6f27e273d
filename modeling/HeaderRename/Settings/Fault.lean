import HeaderRename.Number.Shortest
import HeaderRename.Settings.Setting
import HeaderRename.Text.Quoted

/-!
# Faults of settings

A fault is what is wrong with a value, and the key of the value as far as it is known: each table or
list around it puts its own key in front. A point stands between two keys, but not behind an index.
-/
set_option autoImplicit false

namespace HeaderRename

inductive SettingFault where
  | type (origin : Origin) (found expected : String) (key : Option String)
  | message (text : String) (key : Option String)
  | missing (key : String)
deriving DecidableEq, Repr

namespace SettingFault

def keyInFront (outer : String) (inner : String) : String :=
  if inner.isEmpty || inner.toList.head? == some '[' then outer ++ inner
  else outer ++ "." ++ inner

def mapKey (change : String → String) : SettingFault → SettingFault
  | type origin found expected key => type origin found expected (some (change (key.getD "")))
  | message text key => message text (some (change (key.getD "")))
  | missing key => missing (change key)

def underKey (outer : String) (fault : SettingFault) : SettingFault :=
  fault.mapKey (keyInFront outer)

def underIndex (position : Nat) (fault : SettingFault) : SettingFault :=
  fault.mapKey fun inner => s!"[{position}]" ++ inner

def keyText (key : Option String) : String :=
  match key with
  | some key => s!" for key `{key}`"
  | none => ""

def text : SettingFault → String
  | type origin found expected key =>
    let origin := match origin with
      | some origin => s!" in {origin}"
      | none => ""
    s!"invalid type: {found}, expected {expected}" ++ keyText key ++ origin
  | message text key => text ++ keyText key
  | missing key => s!"missing configuration field {Quoted.quote key}"

/-- How a value is named that could not be converted. -/
def describe : Setting → String
  | .table .. => "map"
  | .list .. => "sequence"
  | .scalar _ .nil => "unit value"
  | .scalar _ (.bool value) => s!"boolean `{value}`"
  | .scalar _ (.int value) => s!"64-bit integer `{value}`"
  | .scalar _ (.float value) => s!"floating point `{value.display}`"
  | .scalar _ (.text value) => s!"string {Quoted.quote value}"

/-- How a scalar is named where a sequence or a structure was wanted. -/
def describeShape : Setting → String
  | .scalar _ (.int value) => s!"integer `{value}`"
  | .scalar _ (.float value) => s!"floating point `{value.displayPointed}`"
  | other => describe other

end SettingFault

end HeaderRename
