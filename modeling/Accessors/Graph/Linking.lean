import Accessors.Graph
import Accessors.Graph.Fault
import Accessors.Name
import Accessors.Source.Grammar
/-!
# From a source to its graph

`Graph.ofSource` looks up every name.  A source is refused where a name is defined twice or not at all, and where a
supertype is not allowed; cycles of supertypes and roles that disagree are no reason to refuse one.
-/
namespace Accessors

/-- What looking up the names of a source comes to. -/
abbrev Linked := Except (Located ModelFault)

namespace Graph

/-- The type that a name is defined for, and what it is defined as. -/
def definedAs? (ds : List Definition) (name : String) : Option (TypeId × DefinitionKind) :=
  (ds.zipIdx.find? (·.1.name.value = name)).map fun (d, i) => (⟨i⟩, d.kind)

/-- Refuses a name that was defined before. -/
def checkDistinct (seen : List String) : List Definition → Linked Unit
  | [] => .ok ()
  | d :: rest =>
    if d.name.value ∈ seen then .error ⟨.duplicateType d.name.value, d.name.span⟩
    else checkDistinct (d.name.value :: seen) rest

/-- The supertypes of a definition that were looked up so far. -/
structure Lineage where
  superclass : Option (TypeId × String)
  interfaces : List TypeId

namespace Lineage

def contains (l : Lineage) (t : TypeId) : Bool := l.superclass.any (·.1 = t) || l.interfaces.contains t

/-- Adds the next supertype of the definition `d`: an interface to any type, a class to a class that has no superclass
yet. -/
def add (ds : List Definition) (d : Definition) (l : Lineage) (parent : Located String) : Linked Lineage :=
  match definedAs? ds parent.value with
  | none => .error ⟨.unknownSupertype parent.value d.name.value, parent.span⟩
  | some (t, kind) =>
    if l.contains t then .error ⟨.repeatedSupertype parent.value d.name.value, parent.span⟩
    else
      match d.kind, kind with
      | _, .ofInterface => .ok { l with interfaces := l.interfaces ++ [t] }
      | .ofInterface, .ofClass => .error ⟨.classUnderInterface d.name.value parent.value, parent.span⟩
      | .ofClass, .ofClass =>
        match l.superclass with
        | none => .ok { l with superclass := some (t, parent.value) }
        | some (_, first) => .error ⟨.secondSuperclass d.name.value first parent.value, parent.span⟩

end Lineage

def heritage (ds : List Definition) (d : Definition) : Linked Heritage :=
  (d.supertypes.foldlM (Lineage.add ds d) ⟨none, []⟩).map fun l =>
    match d.kind with
    | .ofClass => .ofClass (l.superclass.map Prod.fst) l.interfaces
    | .ofInterface => .ofInterface l.interfaces

/-- The name that is written for a role, or else the one made from its target. -/
def roleName (written : Option (Located String)) (target : String) (bounds : Bounds) : String :=
  match written with
  | some name => name.value
  | none => Name.ofRole target bounds.multiplicity

/-- The role that an association in the body of `d`, the type `holder`, gives to that type. -/
def declaredRole (ds : List Definition) (holder : TypeId) (d : Definition) (a : Located Association) : Linked Role :=
  match definedAs? ds a.value.target.value with
  | none => .error ⟨.unknownTarget a.value.target.value d.name.value, a.value.target.span⟩
  | some (target, _) =>
    .ok {
      name := roleName a.value.targetRole a.value.target.value a.value.targetBounds.value
      target
      bounds := a.value.targetBounds.value
      navigable := a.value.direction.reachesTarget
      holder
      origin := .declared
      span := a.span }

/-- The role that an association in the body of `d`, the type `owner`, gives to its target.  Only a class that can reach
back gets one. -/
def oppositeRole? (ds : List Definition) (owner : TypeId) (d : Definition) (a : Located Association) : Option Role :=
  match definedAs? ds a.value.target.value with
  | some (holder, .ofClass) =>
    if a.value.direction.reachesOwner then
      some {
        name := roleName a.value.ownerRole d.name.value a.value.ownerBounds.value
        target := owner
        bounds := a.value.ownerBounds.value
        navigable := true
        holder
        origin := .oppositeEnd owner
        span := a.span }
    else none
  | _ => none

/-- The far ends of all associations, in the order in which these are written. -/
def oppositeRoles (ds : List Definition) : List Role :=
  ds.zipIdx.flatMap fun (d, i) => d.associations.filterMap (oppositeRole? ds ⟨i⟩ d)

/-- The graph of a source, or the first name that is at fault: the definitions' own names come first, then all names of
supertypes, then all targets. -/
def ofSource (s : Source) : Linked Graph := do
  let ds := s.definitions.map Located.value
  checkDistinct [] ds
  let heritages ← ds.mapM (heritage ds)
  let declared ← ds.zipIdx.mapM fun (d, i) => d.associations.mapM (declaredRole ds ⟨i⟩ d)
  let opposite := oppositeRoles ds
  let types := (s.definitions.zip (heritages.zip declared)).zipIdx.map fun ((d, heritage, roles), i) =>
    { id := ⟨i⟩
      name := d.value.name.value
      heritage
      roles := roles ++ opposite.filter (·.holder = ⟨i⟩)
      span := d.span
      nameSpan := d.value.name.span }
  return ⟨s.namespaceName.map Located.value, types⟩

end Graph
end Accessors
