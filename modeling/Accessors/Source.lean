import Accessors.Bounds
import Accessors.Span
/-!
# Model sources

What a model text says, before any name in it is looked up: an optional namespace and the definitions of types, each with
the names of its supertypes and with the associations written in its body.
-/
namespace Accessors

/-- Whether a definition is of a class or of an interface. -/
inductive DefinitionKind where
  | ofClass
  | ofInterface
deriving DecidableEq

def DefinitionKind.text : DefinitionKind → String
  | ofClass => "class"
  | ofInterface => "interface"

/-- Which ends of an association can be reached from the other end. -/
inductive Direction where
  | both
  | forward
  | backward
deriving DecidableEq

namespace Direction

/-- The writing type reaches the target. -/
def reachesTarget : Direction → Bool
  | both | forward => true
  | backward => false

/-- The target reaches back to the writing type. -/
def reachesOwner : Direction → Bool
  | both | backward => true
  | forward => false

theorem reachesTarget_iff {d : Direction} : d.reachesTarget = true ↔ d ≠ backward := by cases d <;> decide

theorem reachesOwner_iff {d : Direction} : d.reachesOwner = true ↔ d ≠ forward := by cases d <;> decide

end Direction

/-- An association as written in the body of its owner: `0..1 student -- * Course courses;`.  Either role name may be
left out. -/
structure Association where
  ownerBounds : Located Bounds
  ownerRole : Option (Located String)
  direction : Direction
  targetBounds : Located Bounds
  target : Located String
  targetRole : Option (Located String)
deriving DecidableEq

structure Definition where
  kind : DefinitionKind
  name : Located String
  /-- The names of all `isA` clauses, in order. -/
  supertypes : List (Located String)
  associations : List (Located Association)
deriving DecidableEq

structure Source where
  namespaceName : Option (Located String)
  definitions : List (Located Definition)
deriving DecidableEq

/-- The source that says nothing. -/
def Source.empty : Source := ⟨none, []⟩

end Accessors
