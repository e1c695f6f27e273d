import HeaderRename.Settings.Setting

/-!
# Tables under construction

While a document is read, each table remembers how it came to be. A header may not define a table
again, nor one that dotted keys have made; a dotted key may not reach into a table that a header
defines, into a list of tables or into a value.
-/
set_option autoImplicit false

namespace HeaderRename.Toml

inductive Making where
  | onTheWay
  | byHeader
  | byDots
deriving DecidableEq, Repr

inductive Node where
  | value (setting : Setting)
  | table (making : Making) (entries : List (String × Node))
  | tables (items : List (List (String × Node)))

abbrev Entries := List (String × Node)

namespace Node

/-- Changes the entry of a key, or adds one; nothing if the change refuses. -/
def alter? (key : String) (change : Option Node → Option Node) : Entries → Option Entries
  | [] => (change none).map fun node => [(key, node)]
  | (k, node) :: rest =>
    if k = key then (change (some node)).map fun node => (k, node) :: rest
    else (alter? key change rest).map ((k, node) :: ·)

def changeLast? (change : Entries → Option Entries) : List Entries → Option (List Entries)
  | [] => none
  | [last] => (change last).map fun last => [last]
  | item :: items => (changeLast? change items).map (item :: ·)

/-- Goes down a header's keys, making tables on the way, and changes the entry of the last key. -/
def underHeader? (change : Option Node → Option Node) : List String → Entries → Option Entries
  | [], _ => none
  | [key], entries => alter? key change entries
  | key :: keys, entries =>
    alter? key (fun node =>
      match node with
      | none => (underHeader? change keys []).map (.table .onTheWay)
      | some (.table making inner) => (underHeader? change keys inner).map (.table making)
      | some (.tables items) => (changeLast? (underHeader? change keys) items).map .tables
      | some (.value _) => none) entries

def defineTable? (keys : List String) (entries : Entries) : Option Entries :=
  underHeader? (fun node =>
    match node with
    | none => some (.table .byHeader [])
    | some (.table .onTheWay inner) => some (.table .byHeader inner)
    | _ => none) keys entries

def appendTable? (keys : List String) (entries : Entries) : Option Entries :=
  underHeader? (fun node =>
    match node with
    | none => some (.tables [[]])
    | some (.tables items) => some (.tables (items ++ [[]]))
    | _ => none) keys entries

def insertDotted? (value : Setting) : List String → Entries → Option Entries
  | [], _ => none
  | [key], entries =>
    alter? key (fun node => if node.isNone then some (.value value) else none) entries
  | key :: keys, entries =>
    alter? key (fun node =>
      match node with
      | none => (insertDotted? value keys []).map (.table .byDots)
      | some (.table making inner) =>
        if making = .byHeader then none
        else (insertDotted? value keys inner).map (.table making)
      | _ => none) entries

/-- Changes the table that a header's keys lead to. -/
def within? (change : Entries → Option Entries) : List String → Entries → Option Entries
  | [], entries => change entries
  | key :: keys, entries =>
    alter? key (fun node =>
      match node with
      | some (.table making inner) => (within? change keys inner).map (.table making)
      | some (.tables items) => (changeLast? (within? change keys) items).map .tables
      | _ => none) entries

mutual

def toSetting (origin : Origin) : Node → Setting
  | .value setting => setting
  | .table _ entries => .table origin (entriesToSettings origin entries)
  | .tables items => .list origin (itemsToSettings origin items)

def entriesToSettings (origin : Origin) : Entries → List (String × Setting)
  | [] => []
  | (key, node) :: rest => (key, toSetting origin node) :: entriesToSettings origin rest

def itemsToSettings (origin : Origin) : List Entries → List Setting
  | [] => []
  | entries :: items =>
    .table origin (entriesToSettings origin entries) :: itemsToSettings origin items

end

end Node

end HeaderRename.Toml
