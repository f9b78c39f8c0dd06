import Accessors.Bounds
import Accessors.Span
/-!
# Model graphs

Types, the edges to their supertypes, and the roles that they hold.  Types refer to each other by their positions, so a
graph may well hold a cycle of supertypes.
-/
namespace Accessors

/-- A type of a graph, by its position in it. -/
structure TypeId where
  index : Nat
deriving DecidableEq

def TypeId.text (t : TypeId) : String := "#" ++ toString t.index

/-- How a role came to the type that holds it. -/
inductive Origin where
  /-- It is written in the body of its holder. -/
  | declared
  /-- It is the far end of an association that another type's body holds. -/
  | oppositeEnd (writtenIn : TypeId)
deriving DecidableEq

/-- One end of an association, as the type at the other end sees it. -/
structure Role where
  name : String
  target : TypeId
  bounds : Bounds
  navigable : Bool
  /-- The type that holds the role; its subtypes have the role through it. -/
  holder : TypeId
  origin : Origin
  span : Span
deriving DecidableEq

def Role.multiplicity (r : Role) : Multiplicity := r.bounds.multiplicity

/-- Whether a type is a class or an interface, and its supertypes. -/
inductive Heritage where
  | ofClass (superclass : Option TypeId) (interfaces : List TypeId)
  | ofInterface (extended : List TypeId)
deriving DecidableEq

namespace Heritage

/-- The supertypes in the order in which they are searched: the superclass before all interfaces. -/
def parents : Heritage → List TypeId
  | ofClass superclass interfaces => superclass.toList ++ interfaces
  | ofInterface extended => extended

def isClass : Heritage → Bool
  | ofClass .. => true
  | ofInterface _ => false

def isInterface (h : Heritage) : Bool := !h.isClass

/-- The word for this kind of type. -/
def word : Heritage → String
  | ofClass .. => "class"
  | ofInterface _ => "interface"

end Heritage

structure TypeNode where
  id : TypeId
  name : String
  heritage : Heritage
  /-- The roles written in the body, then the far ends of other types' associations. -/
  roles : List Role
  span : Span
  nameSpan : Span
deriving DecidableEq

structure Graph where
  namespaceName : Option String
  types : List TypeNode
deriving DecidableEq

namespace Graph

def size (g : Graph) : Nat := g.types.length

def node? (g : Graph) (t : TypeId) : Option TypeNode := g.types[t.index]?

/-- The name of a type; a position outside the graph has the empty name. -/
def name (g : Graph) (t : TypeId) : String := (g.node? t).elim "" TypeNode.name

/-- The edges that lead from a type to its supertypes, in search order. -/
def parents (g : Graph) (t : TypeId) : List TypeId := (g.node? t).elim [] fun n => n.heritage.parents

/-- The roles that a type holds itself. -/
def roles (g : Graph) (t : TypeId) : List Role := (g.node? t).elim [] TypeNode.roles

def isClass (g : Graph) (t : TypeId) : Bool := (g.node? t).any (·.heritage.isClass)

def isInterface (g : Graph) (t : TypeId) : Bool := (g.node? t).any (·.heritage.isInterface)

/-- Every type of the graph, in order. -/
def ids (g : Graph) : List TypeId := g.types.map TypeNode.id

/-- The type with this name. -/
def find? (g : Graph) (name : String) : Option TypeId := (g.types.find? (·.name = name)).map TypeNode.id

end Graph
end Accessors
