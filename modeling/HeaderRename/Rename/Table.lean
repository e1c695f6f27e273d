import HeaderRename.Rename.Header
import HeaderRename.Text.Column

/-!
# Tables of renames

A table accepts a list of renames when every name in it is a header name and no header is renamed
twice; otherwise the first fault in the order of the list is reported. A rename whose result is
renamed again by a later one, in a shared style, is a hazard: it is listed, never reordered.
-/
set_option autoImplicit false

namespace HeaderRename

/-- The result of the first is what the second renames, in a style that both have. -/
def Rename.feeds (earlier later : Rename) : Bool :=
  earlier.new == later.old && earlier.styles.intersects later.styles

structure Table where
  name : String
  description : String
  renames : List Rename
  valid : ∀ r ∈ renames, HeaderName.isValid r.old = true ∧ HeaderName.isValid r.new = true
  nodup : (renames.map (·.old)).Nodup

namespace Table

inductive Fault where
  | invalidName (name : String)
  | duplicate (name : String)
deriving DecidableEq, Repr

namespace Fault

def message : Fault → String
  | invalidName name => s!"'{name}' is not a valid header name"
  | duplicate name => s!"duplicate header '{name}'"

end Fault

/-- The first fault among the renames, `seen` holding the headers renamed before them. -/
def fault? (seen : List String) : List Rename → Option Fault
  | [] => none
  | r :: rest =>
    if !HeaderName.isValid r.old then some (.invalidName r.old)
    else if !HeaderName.isValid r.new then some (.invalidName r.new)
    else if r.old ∈ seen then some (.duplicate r.old)
    else fault? (r.old :: seen) rest

theorem fault?_eq_none_iff (seen : List String) (renames : List Rename) :
    fault? seen renames = none ↔
      (∀ r ∈ renames, HeaderName.isValid r.old = true ∧ HeaderName.isValid r.new = true) ∧
      (renames.map (·.old)).Nodup ∧ ∀ r ∈ renames, r.old ∉ seen := by
  induction renames generalizing seen with
  | nil => simp [fault?]
  | cons r rest ih =>
    cases hOld : HeaderName.isValid r.old <;> cases hNew : HeaderName.isValid r.new <;>
      by_cases hSeen : r.old ∈ seen <;> simp [fault?, hOld, hNew, hSeen, ih]
    grind

def ofRenames? (name description : String) (renames : List Rename) : Except Fault Table :=
  match h : fault? [] renames with
  | some fault => .error fault
  | none =>
    let accepted := (fault?_eq_none_iff [] renames).1 h
    .ok { name, description, renames, valid := accepted.1, nodup := accepted.2.1 }

def rules (table : Table) : List Rule :=
  table.renames.flatMap Rename.rules

structure Hazard where
  earlier : Rename
  later : Rename
deriving DecidableEq, Repr

namespace Hazard

def message (hazard : Hazard) : String :=
  s!"'{hazard.earlier.old}' -> '{hazard.earlier.new}' is rewritten again by " ++
    s!"'{hazard.later.old}' -> '{hazard.later.new}'"

end Hazard

def hazardsOf : List Rename → List Hazard
  | [] => []
  | earlier :: rest =>
    (rest.filter (Rename.feeds earlier)).map (Hazard.mk earlier) ++ hazardsOf rest

def hazards (table : Table) : List Hazard :=
  hazardsOf table.renames

/-- One line per rename, the old names padded to the longest of them in bytes. -/
def format (table : Table) : List String :=
  let width := (table.renames.map (·.old.utf8ByteSize)).foldl max 0
  table.renames.map fun r =>
    padRight width r.old ++ s!" -> {r.new}  [{r.styles.display}]"

/-- What is printed of a table: a title, the renames, the hazards. -/
def listing (table : Table) : List String :=
  s!"[{table.name}] {table.renames.length} mapping(s), {table.rules.length} rule(s)" ::
    (table.format.map fun line => "  " ++ line) ++
    table.hazards.map fun hazard => "  warning: " ++ hazard.message

end Table

end HeaderRename
