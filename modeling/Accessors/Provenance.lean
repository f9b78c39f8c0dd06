import Accessors.Graph
/-!
# Provenance

Where a role of a type comes from: the trails along which it reaches the type, and the alternatives that another
declaration of the role won over.  Provenance is reported and never decides anything.
-/
namespace Accessors

/-- The way from a type up to the holder of a role, both included, and how the role came to its holder. -/
structure Trail where
  types : List TypeId
  origin : Origin
deriving DecidableEq

namespace Trail

/-- The type at the far end, which holds the role. -/
def holder? (t : Trail) : Option TypeId := t.types.getLast?

/-- Whether the type holds the role itself. -/
def isDirect (t : Trail) : Bool := t.types.length = 1

/-- The names along the way, with a note for a role that another type's body implies. -/
def describe (g : Graph) (t : Trail) : String :=
  let chain := " -> ".intercalate (t.types.map g.name)
  match t.origin with
  | .declared => chain
  | .oppositeEnd writtenIn => chain ++ " (opposite end of association in " ++ g.name writtenIn ++ ")"

end Trail

/-- A declaration of a role that gave way to another one of different multiplicity. -/
structure Discarded where
  trail : Trail
  bounds : Bounds
deriving DecidableEq

def Discarded.multiplicity (d : Discarded) : Multiplicity := d.bounds.multiplicity

/-- A list with an element put behind it, unless the list has the element already. -/
def pushNew {α : Type} [DecidableEq α] (xs : List α) (x : α) : List α := if x ∈ xs then xs else xs ++ [x]

structure Provenance where
  trails : List Trail
  discarded : List Discarded
deriving DecidableEq

namespace Provenance

def empty : Provenance := ⟨[], []⟩

def ofTrail (t : Trail) : Provenance := ⟨[t], []⟩

def addTrail (p : Provenance) (t : Trail) : Provenance := { p with trails := pushNew p.trails t }

/-- Everything of both, the first one's own order first and nothing of the second that is there already. -/
def merge (p q : Provenance) : Provenance :=
  ⟨q.trails.foldl pushNew p.trails, q.discarded.foldl pushNew p.discarded⟩

def describe (g : Graph) (p : Provenance) : List String := p.trails.map (Trail.describe g)

end Provenance
end Accessors
