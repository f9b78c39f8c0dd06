import Accessors.Method
/-!
# One method for each key

Several declarations may ask for a method of the same key.  Where they agree on its shape they are merged into one method
with the provenance of all; where they do not, the role is in conflict and has no method at all.
-/
namespace Accessors

/-- Two methods of one key and of different shape: the one kept so far, with the provenance merged into it so far, and
the one that disagrees. -/
structure Conflict where
  first : Method
  second : Method

namespace Conflict

def side (g : Graph) (m : Method) : Side :=
  ⟨", ".intercalate (m.provenance.describe g), m.shape.describe g⟩

def diagnostic (g : Graph) (owner : TypeId) (c : Conflict) : Diagnostic :=
  ⟨g.name owner, .structuralConflict c.second.role c.second.kind.text (side g c.first) (side g c.second),
    some c.second.span⟩

end Conflict

namespace Method

/-- Methods of pairwise different keys, and the conflicts met among the others, one a role. -/
structure Merged where
  kept : List Method
  conflicts : List Conflict

namespace Merged

def empty : Merged := ⟨[], []⟩

/-- The roles that are in conflict. -/
def conflicted (m : Merged) : List String := m.conflicts.map (·.second.role)

/-- Puts the provenance of `m` into the method of the same key. -/
def absorb (m : Method) (kept : List Method) : List Method :=
  kept.map fun k => if k.key = m.key then { k with provenance := k.provenance.merge m.provenance } else k

/-- Takes in one more method. -/
def add (acc : Merged) (m : Method) : Merged :=
  match acc.kept.find? (·.key = m.key) with
  | none => { acc with kept := acc.kept ++ [m] }
  | some k =>
    if k.shape = m.shape then { acc with kept := absorb m acc.kept }
    else if m.role ∈ acc.conflicted then acc
    else { acc with conflicts := acc.conflicts ++ [⟨k, m⟩] }

/-- Whether every role got its methods. -/
def isClean (m : Merged) : Bool := m.conflicts.isEmpty

end Merged

/-- The place of a role: its last one among the names given, and behind all of them where it is not given. -/
def rolePlace (order : List String) (role : String) : Nat :=
  match order.reverse.idxOf? role with
  | some i => order.length - 1 - i
  | none => order.length

/-- The methods role by role, and those of one role kind by kind.  Methods that have the same place stay in the order in
which they were met. -/
def arrange (order : List String) (ms : List Method) : List Method :=
  let placed := ms.map fun m => (rolePlace order m.role, m)
  (List.range (order.length + 1)).flatMap fun place =>
    Kind.all.flatMap fun kind => (placed.filter fun (p, m) => p = place && m.kind = kind).map Prod.snd

/-- One method for each key of the roles that are not in conflict, in order of roles and kinds. -/
def merge (order : List String) (ms : List Method) : Merged :=
  let all := ms.foldl Merged.add Merged.empty
  { all with kept := arrange order (all.kept.filter fun m => m.role ∉ all.conflicted) }

end Method
end Accessors
