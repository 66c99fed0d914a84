/-!
# Nodes of a document

What a TOML document holds: values, and tables of them under keys.  A table that is only on the way
to another one may be opened later, and each key is given once; `Entries.extend` and
`Entries.openTable` hold these rules.
-/

namespace LexStream.Toml

/-- How a `Node.table` came to be. -/
inductive Origin where
  /-- By a header of its own, as an element of an array of tables, or as the whole document. -/
  | header
  /-- On the way to a table with a header. -/
  | passed
  /-- On the way to a value with a dotted key. -/
  | dotted
deriving DecidableEq

/-- What a document holds under a key.  A `float` and a `dateTime` are known by their `spelling`
alone. -/
inductive Node where
  | string (text : String)
  | integer (n : Int)
  | float (spelling : List Char)
  | boolean (b : Bool)
  | dateTime (spelling : List Char)
  | array (elements : List Node)
  | inlineTable (entries : List (String × Node))
  | table (origin : Origin) (entries : List (String × Node))
  | tables (rows : List (List (String × Node)))

/-- The keys of a table with the nodes that they hold, in the order of the document. -/
abbrev Entries := List (String × Node)

namespace Entries

/-- Puts `node` under `key`, in place of what it holds. -/
def put (key : String) (node : Node) : Entries → Entries
  | [] => [(key, node)]
  | (k, old) :: rest => if k = key then (k, node) :: rest else (k, old) :: put key node rest

/-- Adds a value under a dotted key to a table of the given origin; `nested` tells whether a part of
the key lies behind.  A key is given once, and a dotted key adds to no table with a header and ends
in no table but one of its own kind. -/
def extend (value : Node) (key : String) (origin : Origin) (nested : Bool) :
    List String → Entries → Option Entries
  | [], entries =>
    if nested && origin ≠ .dotted then none
    else
      match entries.lookup key with
      | none => some (entries ++ [(key, value)])
      | some _ => none
  | step :: path, entries =>
    match entries.lookup step with
    | none => do
      let inner ← extend value key .dotted true path []
      return entries ++ [(step, .table .dotted inner)]
    | some (.table origin inner) => do
      if origin = .header then none
      let inner ← extend value key origin true path inner
      return entries.put step (.table origin inner)
    | some (.tables rows) =>
      match rows.getLast? with
      | some row => do
        let row ← extend value key .header true path row
        return entries.put step (.tables (rows.dropLast ++ [row]))
      | none => none
    | some _ => none

/-- Changes by `f` the table that a row of keys leads to, by way of the last elements of arrays of
tables.  A table that is not there is made on the way, as `passed`. -/
def modifyAt (f : Entries → Option Entries) : List String → Entries → Option Entries
  | [], entries => f entries
  | step :: path, entries =>
    match entries.lookup step with
    | none => do
      let inner ← modifyAt f path []
      return entries ++ [(step, .table .passed inner)]
    | some (.table origin inner) => do
      let inner ← modifyAt f path inner
      return entries.put step (.table origin inner)
    | some (.tables rows) =>
      match rows.getLast? with
      | some row => do
        let row ← modifyAt f path row
        return entries.put step (.tables (rows.dropLast ++ [row]))
      | none => none
    | some _ => none

/-- Opens the table `key` by its header: a new one, or one that was only passed. -/
def openTable (key : String) (entries : Entries) : Option Entries :=
  match entries.lookup key with
  | none => some (entries ++ [(key, .table .header [])])
  | some (.table .passed inner) => some (entries.put key (.table .header inner))
  | some _ => none

/-- Opens another element of the array of tables `key` by its header. -/
def openRow (key : String) (entries : Entries) : Option Entries :=
  match entries.lookup key with
  | none => some (entries ++ [(key, .tables [[]])])
  | some (.tables rows) => some (entries.put key (.tables (rows ++ [[]])))
  | some _ => none

end Entries

end LexStream.Toml
