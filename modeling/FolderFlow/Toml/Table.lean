import FolderFlow.Json.Basic

/-!
# TOML tables

The tables that the lines of a document build up. A table is made by a header of its own, by a
header of a table inside it, or by dotted keys, and what may still be added to it depends on that.
Entries keep the order in which they come; a table that first came about inside a header and then
gets its own goes to the end.
-/

namespace FolderFlow.Toml

/-- How a table came to be. -/
inductive Origin where
  | header
  | implied
  | dotted
  deriving DecidableEq, Repr

inductive Node where
  | value (j : Json)
  | table (origin : Origin) (entries : List (String × Node))
  | tables (items : List (List (String × Node)))

abbrev Entries := List (String × Node)

namespace Entries

def find? (entries : Entries) (key : String) : Option Node :=
  List.lookup key entries

def replace (entries : Entries) (key : String) (node : Node) : Entries :=
  entries.map fun (k, n) => if k = key then (k, node) else (k, n)

def append (entries : Entries) (key : String) (node : Node) : Entries :=
  entries ++ [(key, node)]

def erase (entries : Entries) (key : String) : Entries :=
  entries.filter fun entry => entry.1 != key

/-- Changes the table at a path, which goes through the last table of an array of tables. Missing
tables are made on the way. Dotted keys do not go through a table that has its own header. -/
def update (dotted : Bool) (change : Origin → Entries → Option Entries) (origin : Origin)
    (path : List String) (entries : Entries) : Option Entries :=
  match path with
  | [] => change origin entries
  | key :: path =>
    match find? entries key with
    | none =>
      let made := if dotted then .dotted else .implied
      (update dotted change made path []).map fun inner => append entries key (.table made inner)
    | some (.value _) => none
    | some (.table o inner) =>
      if dotted && o == .header then none
      else
        (update dotted change o path inner).map fun inner => replace entries key (.table o inner)
    | some (.tables items) =>
      (update dotted change .header path (items.getLastD [])).map fun inner =>
        replace entries key (.tables (items.dropLast ++ [inner]))

/-- A value under a key, which must be new. Behind a dotted path the table must be one that dotted
keys have made. -/
def assign (path : List String) (key : String) (j : Json) (entries : Entries) : Option Entries :=
  update true
    (fun origin entries =>
      if !path.isEmpty && origin != .dotted then none
      else if (find? entries key).isSome then none
      else some (append entries key (.value j)))
    .header path entries

/-- Opens the table of a header. It must be new, or made by the headers of tables inside it. -/
def openTable (path : List String) (key : String) (entries : Entries) : Option Entries :=
  update false
    (fun _ entries =>
      match find? entries key with
      | none => some (append entries key (.table .header []))
      | some (.table .implied inner) => some (append (erase entries key) key (.table .header inner))
      | some _ => none)
    .header path entries

/-- Adds a table to an array of tables. -/
def openItem (path : List String) (key : String) (entries : Entries) : Option Entries :=
  update false
    (fun _ entries =>
      match find? entries key with
      | none => some (append entries key (.tables [[]]))
      | some (.tables items) => some (replace entries key (.tables (items ++ [[]])))
      | some _ => none)
    .header path entries

end Entries

/-! ## JSON form -/

mutual

def Node.toJson : Node → Json
  | .value j => j
  | .table _ entries => .object (Node.toMembers entries)
  | .tables items => .array (Node.toItems items)

def Node.toMembers : List (String × Node) → Members
  | [] => []
  | (key, node) :: rest => (key, node.toJson) :: Node.toMembers rest

def Node.toItems : List (List (String × Node)) → List Json
  | [] => []
  | entries :: rest => .object (Node.toMembers entries) :: Node.toItems rest

end

/-! ## Documents -/

/-- A dotted key, cut at its last part. -/
structure Key where
  path : List String
  last : String
  deriving DecidableEq, Repr

def Key.parts (k : Key) : List String :=
  k.path ++ [k.last]

/-- A line of a document. -/
inductive Statement where
  | assign (key : Key) (value : Json)
  | openTable (key : Key)
  | openItem (key : Key)

/-- The tables so far, and the one to which assignments go. -/
structure Document where
  entries : Entries
  current : List String

namespace Document

def empty : Document :=
  ⟨[], []⟩

def add (d : Document) : Statement → Option Document
  | .assign key value =>
    (d.entries.update false (fun _ entries => Entries.assign key.path key.last value entries)
      .header d.current).map fun entries => { d with entries }
  | .openTable key =>
    (d.entries.openTable key.path key.last).map fun entries => ⟨entries, key.parts⟩
  | .openItem key =>
    (d.entries.openItem key.path key.last).map fun entries => ⟨entries, key.parts⟩

/-- The document that the statements make, in order; nothing when one of them is refused. -/
def ofStatements (statements : List Statement) : Option Document :=
  statements.foldlM add empty

def toJson (d : Document) : Json :=
  .object (Node.toMembers d.entries)

end Document

/-- The object of an inline table, nothing when one of the pairs is refused. -/
def inlineTable (pairs : List (Key × Json)) : Option Json :=
  let add (entries : Entries) (pair : Key × Json) : Option Entries :=
    Entries.assign pair.1.path pair.1.last pair.2 entries
  (pairs.foldlM add []).map fun entries => .object (Node.toMembers entries)

end FolderFlow.Toml
