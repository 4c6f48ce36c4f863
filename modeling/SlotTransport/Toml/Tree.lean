/-
Tables of a TOML document under construction. A table may be extended later or
not, depending on how it came about; a key is never given a value twice.
-/
import SlotTransport.Toml.Value

namespace SlotTransport.Toml

/-- How a table came about. -/
inductive Origin where
  /-- A header names it. -/
  | header
  /-- A header names a table inside it. -/
  | passed
  /-- A dotted key leads through it. -/
  | dotted
  deriving DecidableEq, Repr

/-- A part of a document under construction. -/
inductive Node where
  | value (v : Value)
  | table (origin : Origin) (entries : List (String × Node))
  /-- The tables of headers in double brackets, latest first. -/
  | tables (latest : List (String × Node)) (earlier : List (List (String × Node)))
  deriving Inhabited

/-- The entries of a table under construction. -/
abbrev Entries := List (String × Node)

namespace Entries

def get? (entries : Entries) (key : String) : Option Node :=
  List.lookup key entries

/-- Puts a part under a key, in place of any other. -/
def put (entries : Entries) (key : String) (node : Node) : Entries :=
  match entries with
  | [] => [(key, node)]
  | (k, n) :: rest => if k = key then (key, node) :: rest else (k, n) :: put rest key node

/-- Gives a value to a dotted key. The key's path leads through tables that
dotted keys made, or that headers passed on the way to the last of them. -/
def assign? (entries : Entries) (path : List String) (key : String) (v : Value)
    (isDotted : Bool) : Option Entries :=
  match path with
  | [] => if isDotted ∧ (entries.get? key).isNone then some (entries.put key (.value v)) else none
  | step :: path =>
    match entries.get? step with
    | none => do
      let inner ← assign? [] path key v true
      some (entries.put step (.table .dotted inner))
    | some (.table origin inner) =>
      if origin = .header then none
      else do
        let inner ← assign? inner path key v (origin = .dotted)
        some (entries.put step (.table origin inner))
    | some (.tables latest earlier) => do
      let latest ← assign? latest path key v false
      some (entries.put step (.tables latest earlier))
    | some (.value _) => none

/-- Changes the table that a path of header keys leads to, which passes the
tables on its way or makes them. -/
def descend? (entries : Entries) (path : List String) (change : Entries → Option Entries) :
    Option Entries :=
  match path with
  | [] => change entries
  | step :: path =>
    match entries.get? step with
    | none => do
      let inner ← descend? [] path change
      some (entries.put step (.table .passed inner))
    | some (.table origin inner) => do
      let inner ← descend? inner path change
      some (entries.put step (.table origin inner))
    | some (.tables latest earlier) => do
      let latest ← descend? latest path change
      some (entries.put step (.tables latest earlier))
    | some (.value _) => none

/-- Opens the table of a header: a new one, or one that headers have only
passed so far. -/
def openTable? (entries : Entries) (path : List String) (key : String) : Option Entries :=
  entries.descend? path fun entries =>
    match entries.get? key with
    | none => some (entries.put key (.table .header []))
    | some (.table .passed inner) => some (entries.put key (.table .header inner))
    | some _ => none

/-- Opens the next table of a header in double brackets. -/
def openNext? (entries : Entries) (path : List String) (key : String) : Option Entries :=
  entries.descend? path fun entries =>
    match entries.get? key with
    | none => some (entries.put key (.tables [] []))
    | some (.tables latest earlier) => some (entries.put key (.tables [] (latest :: earlier)))
    | some _ => none

end Entries

mutual

/-- The value of a part that is complete. -/
def Node.close : Node → Value
  | .value v => v
  | .table _ entries => .table (closeEntries entries)
  | .tables latest earlier =>
    .array (closeTables earlier ++ [.table (closeEntries latest)])

/-- The table of entries that are complete. -/
def closeEntries : List (String × Node) → List (String × Value)
  | [] => []
  | (key, node) :: rest => (key, node.close) :: closeEntries rest

/-- The tables of a list that holds the latest first, in their order. -/
def closeTables : List (List (String × Node)) → List Value
  | [] => []
  | entries :: rest => closeTables rest ++ [.table (closeEntries entries)]

end

end SlotTransport.Toml
