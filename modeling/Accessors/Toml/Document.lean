import Accessors.Toml.Statement
/-!
# TOML documents

`Toml.parse?` reads a document.  Its entries are in the order in which the statements made them; a table that a header
opens late, after another header implied it, moves behind those made in between.
-/
namespace Accessors
namespace Toml

/-- A document under construction: the entries that are done, and the table that the last header opened. -/
structure Builder where
  done : Entries
  path : List String
  isItem : Bool
  openEntries : Entries

namespace Builder

def start : Builder := ⟨[], [], false, []⟩

/-- Puts the open table where its header says. -/
def close (b : Builder) : Option Entries :=
  match b.path.getLast? with
  | none => some b.openEntries
  | some key =>
    Entries.within
      (fun es => es.update key fun
        | none => if b.isItem then some (.tables [b.openEntries]) else some (.table .written b.openEntries)
        | some (.tables items) => if b.isItem then some (.tables (items ++ [b.openEntries])) else none
        | some _ => none)
      b.path.dropLast b.done

/-- Opens the table of a header.  One that other headers implied goes on with what it has; any other one must be new. -/
def openTable (b : Builder) (path : List String) : Option Builder := do
  let done ← b.close
  match Entries.at? path done with
  | none => return ⟨← Entries.within some path.dropLast done, path, false, []⟩
  | some (.table .implied es) =>
    let erase (parent : Entries) : Option Entries := some (parent.filter fun e => some e.1 ≠ path.getLast?)
    return ⟨← Entries.within erase path.dropLast done, path, false, es⟩
  | some _ => none

/-- Opens the next item of the array of tables of a header. -/
def openItem (b : Builder) (path : List String) : Option Builder := do
  let done ← b.close
  match Entries.at? path done with
  | none => return ⟨done, path, true, []⟩
  | some (.tables _) => return ⟨done, path, true, []⟩
  | some _ => none

def add (b : Builder) : Statement → Option Builder
  | .header path => b.openTable path
  | .arrayHeader path => b.openItem path
  | .pair path v => (Entries.addPair path v b.openEntries).map fun es => { b with openEntries := es }

end Builder

/-- The entries of a document; absent where the text is not TOML. -/
def parse? (text : String) : Option (List (String × Value)) := do
  let b ← (← Statement.parse? text).foldlM Builder.add Builder.start
  return (← b.close).values

end Toml
end Accessors
