import Accessors.Graph
/-!
# The supertypes of a type

`Graph.ancestry` goes from a type up to all of its supertypes, depth first, each type's supertypes in search order, and
enters every type once.  It notes the path by which each type was first reached, and every edge that leads back to the
path it is on.

A path has no repeats, so none is longer than the graph has types; that bounds the depth of the search.
-/
namespace Accessors

/-- An edge that leads from the end of a path back onto it. -/
structure Cycle where
  /-- The types on the way round, the first of them again at the end. -/
  types : List TypeId
  /-- The type whose edge closes the cycle. -/
  closedBy : TypeId
deriving DecidableEq

/-- What a search has seen: paths from the start to each type entered, in order of entry, and the cycles met. -/
structure Ancestry where
  paths : List (List TypeId)
  cycles : List Cycle

namespace Ancestry

/-- The types entered so far. -/
def entered (a : Ancestry) : List TypeId := a.paths.filterMap List.getLast?

def enter (a : Ancestry) (path : List TypeId) : Ancestry := { a with paths := a.paths ++ [path] }

def note (a : Ancestry) (c : Cycle) : Ancestry := { a with cycles := a.cycles ++ [c] }

end Ancestry

namespace Graph

/-- Goes on with a search at type `t`, which was reached over the types `above` it and not entered before. -/
def search (g : Graph) : (depth : Nat) → (above : List TypeId) → TypeId → Ancestry → Ancestry
  | 0, _, _, a => a
  | depth + 1, above, t, a =>
    let path := above ++ [t]
    (g.parents t).foldl
      (fun a parent =>
        if parent ∈ path then a.note ⟨path.dropWhile (· ≠ parent) ++ [parent], t⟩
        else if parent ∈ a.entered then a
        else g.search depth path parent a)
      (a.enter path)

/-- The type itself and all of its supertypes. -/
def ancestry (g : Graph) (t : TypeId) : Ancestry := g.search (g.size + 1) [] t ⟨[], []⟩

end Graph
end Accessors
