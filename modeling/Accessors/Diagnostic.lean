import Accessors.Span
/-!
# Diagnostics

What is worth saying about one type whose model is well formed: its cause, the type, and the place in the text to point
at.  Warnings let the type be generated, errors do not.
-/
namespace Accessors

inductive Severity where
  | warning
  | error
deriving DecidableEq

def Severity.text : Severity → String
  | warning => "warning"
  | error => "error"

/-- One side of a disagreement: the trails it came by and what it says there. -/
structure Side where
  chain : String
  content : String
deriving DecidableEq

namespace Diagnostic

inductive Cause where
  /-- A path of supertypes comes back to a type that is on it. -/
  | cyclicInheritance (cycle : List String)
  /-- Two declarations of one role disagree on its multiplicity, and the first one was kept. -/
  | multiplicityTieBreak (role : String) (kept discarded : Side)
  /-- Two declarations of one role ask for methods of different shape. -/
  | structuralConflict (role method : String) (first second : Side)
  /-- Two roles would give one name to their methods. -/
  | nameCollision (backend method firstRole secondRole : String)
deriving DecidableEq

namespace Cause

def severity : Cause → Severity
  | cyclicInheritance .. | multiplicityTieBreak .. => .warning
  | structuralConflict .. | nameCollision .. => .error

/-- The word by which reports name this kind of cause. -/
def kind : Cause → String
  | cyclicInheritance .. => "cyclic-inheritance"
  | multiplicityTieBreak .. => "multiplicity-tie-break"
  | structuralConflict .. => "structural-conflict"
  | nameCollision .. => "name-collision"

/-- The role that is at fault, if it is one role. -/
def role? : Cause → Option String
  | cyclicInheritance _ => none
  | multiplicityTieBreak role .. => some role
  | structuralConflict role .. => some role
  | nameCollision _ _ _ second => some second

def message : Cause → String
  | cyclicInheritance cycle => "inheritance cycle " ++ " -> ".intercalate cycle
  | multiplicityTieBreak role kept discarded =>
    "role '" ++ role ++ "' is declared with multiplicity " ++ kept.content ++ " via " ++ kept.chain ++ " and "
      ++ discarded.content ++ " via " ++ discarded.chain ++ "; using " ++ kept.content
  | structuralConflict role method first second =>
    "conflicting declarations of role '" ++ role ++ "': method '" ++ method ++ "' is " ++ first.content ++ " via "
      ++ first.chain ++ " but " ++ second.content ++ " via " ++ second.chain
  | nameCollision backend method first second =>
    backend ++ " method '" ++ method ++ "' would be generated for both role '" ++ first ++ "' and role '" ++ second
      ++ "'"

/-- The trails of both sides of a disagreement. -/
def chains : Cause → List String
  | cyclicInheritance _ => []
  | multiplicityTieBreak _ kept discarded => [kept.chain, discarded.chain]
  | structuralConflict _ _ first second => [first.chain, second.chain]
  | nameCollision .. => []

end Cause
end Diagnostic

structure Diagnostic where
  /-- The name of the type that it is about. -/
  owner : String
  cause : Diagnostic.Cause
  span : Option Span
deriving DecidableEq

namespace Diagnostic

def severity (d : Diagnostic) : Severity := d.cause.severity

def isError (d : Diagnostic) : Bool := d.severity = .error

/-- The whole of it on one line. -/
def text (d : Diagnostic) : String :=
  d.severity.text ++ "[" ++ d.cause.kind ++ "] " ++ d.owner ++ ": " ++ d.cause.message

end Diagnostic
end Accessors
