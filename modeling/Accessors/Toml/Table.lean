import Accessors.Toml.Value
/-!
# Tables under construction

The rules by which statements build tables.  A table may be written only once; how a table came about decides what may
still be added to it, so that is kept with it until the document is complete.
-/
namespace Accessors
namespace Toml

/-- How a table came about. -/
inductive Birth where
  /-- It was written, by a header of its own or as an item of an array of tables. -/
  | written
  /-- A header names something below it. -/
  | implied
  /-- It is a part of a dotted key. -/
  | dotted
deriving DecidableEq

inductive Node where
  | leaf (v : Value)
  | table (birth : Birth) (entries : List (String × Node))
  /-- The items are tables that were written. -/
  | tables (items : List (List (String × Node)))

abbrev Entries := List (String × Node)

namespace Entries

/-- Changes the entry of a key, or adds one behind all others. -/
def update (key : String) (f : Option Node → Option Node) : Entries → Option Entries
  | [] => (f none).map fun n => [(key, n)]
  | (k, n) :: rest =>
    if k = key then (f (some n)).map fun n' => (k, n') :: rest
    else (update key f rest).map ((k, n) :: ·)

/-- Changes the last item of an array of tables. -/
def updateLast (f : Entries → Option Entries) (items : List Entries) : Option (List Entries) :=
  match items.getLast? with
  | some last => (f last).map fun last' => items.dropLast ++ [last']
  | none => none

/-- Adds a value under a dotted key, the last part of which must be new.  The parts before it name tables that dotted
keys made, except that an array of tables may be passed through. -/
def addPair : (path : List String) → Value → Entries → Option Entries
  | [], _, _ => none
  | [key], v, es => es.update key fun
    | none => some (.leaf v)
    | some _ => none
  | part :: next :: path, v, es => es.update part fun
    | none => (addPair (next :: path) v []).map (.table .dotted)
    | some (.table birth es') =>
      if birth = .written ∨ (birth ≠ .dotted ∧ path.isEmpty) then none
      else (addPair (next :: path) v es').map (.table birth)
    | some (.tables items) =>
      if path.isEmpty then none else (updateLast (addPair (next :: path) v) items).map .tables
    | some (.leaf _) => none

/-- Changes the table at a path of a header.  Parts that do not exist are implied; in an array of tables the last item
is meant. -/
def within (f : Entries → Option Entries) : (path : List String) → Entries → Option Entries
  | [], es => f es
  | part :: path, es => es.update part fun
    | none => (within f path []).map (.table .implied)
    | some (.table birth es') => (within f path es').map (.table birth)
    | some (.tables items) => (updateLast (within f path) items).map .tables
    | some (.leaf _) => none

/-- What a path of a header leads to. -/
def at? : (path : List String) → Entries → Option Node
  | [], _ => none
  | [key], es => es.lookup key
  | part :: path, es =>
    match es.lookup part with
    | some (.table _ es') => at? path es'
    | some (.tables items) => items.getLast?.elim none (at? path)
    | _ => none

end Entries

mutual

def Node.value : Node → Value
  | .leaf v => v
  | .table _ entries => .table (entryValues entries)
  | .tables items => .array (itemValues items)

def entryValues : List (String × Node) → List (String × Value)
  | [] => []
  | (key, n) :: rest => (key, n.value) :: entryValues rest

def itemValues : List (List (String × Node)) → List Value
  | [] => []
  | entries :: rest => .table (entryValues entries) :: itemValues rest

end

/-- The entries of a table that is complete. -/
def Entries.values (es : Entries) : List (String × Value) := entryValues es

end Toml
end Accessors
