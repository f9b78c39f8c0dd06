import Accessors.Ancestry
import Accessors.Diagnostic
import Accessors.Provenance
/-!
# Resolution of roles

All roles that one type must support: its own and those of every supertype.  Roles of one name and one target are one
association seen several times.  Those held by the type's own family (a class and its superclasses, or all supertypes of
an interface) are merged into one declaration, of which the first one found sets the multiplicity.  What a class takes on
from an interface is a contract; contracts stay apart, to be compared with what the class does.
-/
namespace Accessors

/-- A role, and the trail along which the type in question has it. -/
structure Candidate where
  role : Role
  trail : Trail
deriving DecidableEq

/-- A declaration of a role that was kept. -/
structure Declaration where
  role : Role
  provenance : Provenance
  /-- Whether it stands on an interface and is seen from a class. -/
  isContract : Bool

/-- A candidate that was kept over another one of different multiplicity. -/
structure TieBreak where
  kept : Candidate
  lost : Candidate

structure ResolvedRole where
  name : String
  target : TypeId
  /-- The merged declaration of the type's own family, if there is one, then the contracts. -/
  declarations : List Declaration
  tieBreaks : List TieBreak

structure Resolution where
  owner : TypeId
  cycles : List Cycle
  /-- In the order in which the search meets them. -/
  roles : List ResolvedRole

namespace Resolution

/-- The roles met on the way through the supertypes, in order. -/
def candidates (g : Graph) (a : Ancestry) : List Candidate :=
  a.paths.flatMap fun path =>
    (path.getLast?.elim [] g.roles).map fun role => ⟨role, ⟨path, role.origin⟩⟩

/-- Whether a candidate is a contract of the type `owner`. -/
def isContract (g : Graph) (owner : TypeId) (c : Candidate) : Bool :=
  g.isClass owner && c.trail.holder?.any g.isInterface

/-- The first candidate of a family with all others merged into it, and the ties that were broken. -/
def merged (kept : Candidate) (others : List Candidate) : Declaration × List TieBreak :=
  let lost := others.filter fun c => c.role.multiplicity ≠ kept.role.multiplicity
  let provenance : Provenance :=
    ⟨others.foldl (fun trails c => pushNew trails c.trail) [kept.trail],
      lost.map fun c => ⟨c.trail, c.role.bounds⟩⟩
  (⟨kept.role, provenance, false⟩, lost.map fun c => ⟨kept, c⟩)

/-- One association from its candidates. -/
def resolveRole (g : Graph) (owner : TypeId) (name : String) (target : TypeId) (cs : List Candidate) : ResolvedRole :=
  let contracts := (cs.filter (isContract g owner)).map fun c => ⟨c.role, .ofTrail c.trail, true⟩
  match cs.filter (fun c => !isContract g owner c) with
  | [] => ⟨name, target, contracts, []⟩
  | kept :: others => ⟨name, target, (merged kept others).1 :: contracts, (merged kept others).2⟩

/-- The names in order, a name that several roles share once. -/
def roleOrder (r : Resolution) : List String := (r.roles.map ResolvedRole.name).eraseDups

/-- How a diagnostic shows a candidate. -/
def side (g : Graph) (c : Candidate) : Side :=
  ⟨c.trail.describe g, c.role.multiplicity.text ++ " (" ++ c.role.bounds.text ++ ")"⟩

def cycleDiagnostic (g : Graph) (owner : TypeId) (c : Cycle) : Diagnostic :=
  ⟨g.name owner, .cyclicInheritance (c.types.map g.name), (g.node? c.closedBy).map TypeNode.nameSpan⟩

def tieBreakDiagnostic (g : Graph) (owner : TypeId) (t : TieBreak) : Diagnostic :=
  ⟨g.name owner, .multiplicityTieBreak t.kept.role.name (side g t.kept) (side g t.lost), some t.lost.role.span⟩

/-- The cycles, then the ties that were broken, role by role. -/
def diagnostics (g : Graph) (r : Resolution) : List Diagnostic :=
  r.cycles.map (cycleDiagnostic g r.owner) ++
    r.roles.flatMap fun role => role.tieBreaks.map (tieBreakDiagnostic g r.owner)

end Resolution

/-- All roles of a type. -/
def Graph.resolve (g : Graph) (owner : TypeId) : Resolution :=
  let ancestry := g.ancestry owner
  let cs := Resolution.candidates g ancestry
  let keys := (cs.map fun c => (c.role.name, c.role.target)).eraseDups
  ⟨owner, ancestry.cycles, keys.map fun (name, target) =>
    Resolution.resolveRole g owner name target
      (cs.filter fun c => c.role.name = name && c.role.target = target)⟩

end Accessors
