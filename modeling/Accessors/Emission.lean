import Accessors.Backend
import Accessors.Path
import Accessors.Report
/-!
# Emission

The files that a backend makes of a report: one for each type that did not fail.  Distinct roles may still give their
methods one name (`course` and `courses` both give `add_course`); a type where that happens is reported and gets no file.
-/
namespace Accessors

/-- Two methods of different roles that a backend gives one name. -/
structure Collision where
  name : String
  first : Method
  second : Method

namespace Collision

def diagnostic (b : Backend) (n : TypeNode) (c : Collision) : Diagnostic :=
  ⟨n.name, .nameCollision b.name c.name c.first.role c.second.role, some c.second.span⟩

/-- The methods that take a name first, by name, and the collisions with them, one a name. -/
structure Scan where
  claims : List (String × Method)
  collisions : List Collision

/-- Looks at one more method. -/
def Scan.add (b : Backend) (s : Scan) (m : Method) : Scan :=
  let name := b.methodName m
  match s.claims.lookup name with
  | none => { s with claims := s.claims ++ [(name, m)] }
  | some first =>
    if first.role = m.role || s.collisions.any (·.name = name) then s
    else { s with collisions := s.collisions ++ [⟨name, first, m⟩] }

end Collision

/-- The names that methods of different roles claim, in the order in which the second claim is met. -/
def Backend.collisions (b : Backend) (ms : List Method) : List Collision :=
  (ms.foldl (Collision.Scan.add b) ⟨[], []⟩).collisions

structure GeneratedFile where
  backend : Backend
  /-- Below the output directory. -/
  path : String
  contents : String
deriving DecidableEq

structure Emission where
  files : List GeneratedFile
  /-- The collisions of the types that have no file for that. -/
  diagnostics : List Diagnostic

namespace Emission

def isClean (e : Emission) : Bool := e.diagnostics.isEmpty

def empty : Emission := ⟨[], []⟩

/-- One after the other. -/
def append (a b : Emission) : Emission := ⟨a.files ++ b.files, a.diagnostics ++ b.diagnostics⟩

end Emission

namespace Backend

/-- The file for one type, or what keeps it from being written. -/
def emitType (b : Backend) (g : Graph) (n : TypeNode) (ms : List Method) : Emission :=
  match b.collisions ms with
  | [] => ⟨[⟨b, Path.join b.directory (b.fileName n), b.render g n ms⟩], []⟩
  | collisions => ⟨[], collisions.map (Collision.diagnostic b n)⟩

/-- What a type contributes: nothing if it failed. -/
def emitReport (b : Backend) (g : Graph) (r : TypeReport) : Emission :=
  match r.methods?, g.node? r.owner with
  | some ms, some n => b.emitType g n ms
  | _, _ => .empty

def emit (b : Backend) (g : Graph) (r : Report) : Emission :=
  r.types.foldr (fun t e => (b.emitReport g t).append e) .empty

end Backend
end Accessors
