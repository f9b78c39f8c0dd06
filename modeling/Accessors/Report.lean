import Accessors.Method.Merge
/-!
# Reports

What generating a graph comes to, type by type.  A type in which roles are in conflict fails; the others are not touched
by that.
-/
namespace Accessors

structure TypeReport where
  owner : TypeId
  /-- The methods of the type; absent if it failed. -/
  methods? : Option (List Method)
  /-- Warnings from resolving its roles, then conflicts. -/
  diagnostics : List Diagnostic

namespace TypeReport

def failed (r : TypeReport) : Bool := r.methods?.isNone

def methods (r : TypeReport) : List Method := r.methods?.getD []

end TypeReport

structure Report where
  /-- One for each type, in order. -/
  types : List TypeReport

namespace Report

def diagnostics (r : Report) : List Diagnostic := r.types.flatMap TypeReport.diagnostics

def hasErrors (r : Report) : Bool := r.diagnostics.any fun d => d.severity = .error

def hasWarnings (r : Report) : Bool := r.diagnostics.any fun d => d.severity = .warning

/-- The types that failed. -/
def failed (r : Report) : List TypeId := (r.types.filter TypeReport.failed).map TypeReport.owner

end Report

namespace Graph

/-- Resolves the roles of one type and merges the methods that they ask for. -/
def reportOn (g : Graph) (owner : TypeId) : TypeReport :=
  let resolution := g.resolve owner
  let merged := Method.merge resolution.roleOrder resolution.methods
  { owner
    methods? := if merged.isClean then some merged.kept else none
    diagnostics := resolution.diagnostics g ++ merged.conflicts.map (Conflict.diagnostic g owner) }

def report (g : Graph) : Report := ⟨g.ids.map g.reportOn⟩

end Graph
end Accessors
