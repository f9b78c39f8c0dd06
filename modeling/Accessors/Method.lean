import Accessors.Resolution
/-!
# Accessor methods

Which methods the declaration of a role asks for, and what they take and give: a single-valued role has a getter and a
setter, a many-valued one a getter and methods that add and remove a partner.  A role that cannot be reached from its
holder has none.
-/
namespace Accessors

namespace Method

/-- The kinds of methods, in the order in which those of one role are written. -/
inductive Kind where
  | get
  | set
  | add
  | remove
deriving DecidableEq

namespace Kind

def text : Kind → String
  | get => "get"
  | set => "set"
  | add => "add"
  | remove => "remove"

def all : List Kind := [get, set, add, remove]

/-- Whether the method deals with a single partner of a many-valued role. -/
def isPerPartner : Kind → Bool
  | add | remove => true
  | get | set => false

/-- The methods that a role asks for. -/
def needed (m : Multiplicity) (navigable : Bool) : List Kind :=
  if navigable then
    match m with
    | .one => [get, set]
    | .many => [get, add, remove]
  else []

end Kind

/-- The type of what is passed or returned. -/
inductive ValueShape where
  | bool
  | one (t : TypeId)
  | many (t : TypeId)
deriving DecidableEq

def ValueShape.describe (g : Graph) : ValueShape → String
  | bool => "bool"
  | one t => "one " ++ g.name t
  | many t => "many " ++ g.name t

structure Shape where
  params : List ValueShape
  returns : ValueShape
deriving DecidableEq

namespace Shape

/-- A getter returns the partner or all partners; every other method takes one and says whether it did its work. -/
def of (k : Kind) (m : Multiplicity) (target : TypeId) : Shape :=
  match k with
  | .get =>
    match m with
    | .one => ⟨[], .one target⟩
    | .many => ⟨[], .many target⟩
  | .set | .add | .remove => ⟨[.one target], .bool⟩

def describe (g : Graph) (s : Shape) : String :=
  "(" ++ ", ".intercalate (s.params.map (ValueShape.describe g)) ++ ") -> " ++ s.returns.describe g

end Shape

/-- What makes a method one method of its owner, whatever trails lead to it. -/
structure Key where
  owner : TypeId
  role : String
  kind : Kind
deriving DecidableEq

end Method

structure Method where
  owner : TypeId
  kind : Method.Kind
  role : String
  target : TypeId
  multiplicity : Multiplicity
  shape : Method.Shape
  provenance : Provenance
  /-- Where the role is written that first asked for the method. -/
  span : Span
deriving DecidableEq

def Method.key (m : Method) : Method.Key := ⟨m.owner, m.role, m.kind⟩

/-- The methods that a declaration asks for. -/
def Declaration.methods (owner : TypeId) (d : Declaration) : List Method :=
  (Method.Kind.needed d.role.multiplicity d.role.navigable).map fun kind =>
    { owner
      kind
      role := d.role.name
      target := d.role.target
      multiplicity := d.role.multiplicity
      shape := .of kind d.role.multiplicity d.role.target
      provenance := d.provenance
      span := d.role.span }

/-- The methods that all declarations ask for, some of them more than once. -/
def Resolution.methods (r : Resolution) : List Method :=
  r.roles.flatMap fun role => role.declarations.flatMap (Declaration.methods r.owner)

end Accessors
