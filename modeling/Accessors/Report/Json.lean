import Accessors.Json
import Accessors.Report
/-!
# Reports as JSON

How the parts of a graph and of its report are encoded.  Types are numbers there, and a list or place that is absent is
left out of diagnostics and provenance.
-/
namespace Accessors

def TypeId.json (t : TypeId) : Json := .number t.index

def Span.json (s : Span) : Json := .object [("start", .number s.start), ("end", .number s.stop)]

def Bounds.json (b : Bounds) : Json :=
  .object [("lower", .number b.lower), ("upper", Json.ofOption .number b.upper)]

def Multiplicity.json (m : Multiplicity) : Json := .text m.text

def Origin.json : Origin → Json
  | declared => .text "declared"
  | oppositeEnd writtenIn => .object [("opposite-end", .object [("declared_in", writtenIn.json)])]

def Role.json (r : Role) : Json :=
  .object [
    ("name", .text r.name),
    ("target", r.target.json),
    ("bounds", r.bounds.json),
    ("multiplicity", r.multiplicity.json),
    ("navigability", .text (if r.navigable then "navigable" else "non-navigable")),
    ("declared_in", r.holder.json),
    ("origin", r.origin.json),
    ("span", r.span.json)]

def Heritage.json : Heritage → Json
  | ofClass superclass interfaces =>
    .object [
      ("kind", .text "class"),
      ("superclass", Json.ofOption TypeId.json superclass),
      ("interfaces", .array (interfaces.map TypeId.json))]
  | ofInterface extended =>
    .object [("kind", .text "interface"), ("extends", .array (extended.map TypeId.json))]

def Trail.json (t : Trail) : Json :=
  .object [("types", .array (t.types.map TypeId.json)), ("origin", t.origin.json)]

def Discarded.json (d : Discarded) : Json :=
  .object [("path", d.trail.json), ("bounds", d.bounds.json), ("multiplicity", d.multiplicity.json)]

def Provenance.json (p : Provenance) : Json :=
  .object (("paths", .array (p.trails.map Trail.json)) :: Json.nonemptyField "discarded" p.discarded Discarded.json)

namespace Method

def ValueShape.json : ValueShape → Json
  | bool => .object [("shape", .text "bool")]
  | one t => .object [("shape", .text "one"), ("type", t.json)]
  | many t => .object [("shape", .text "many"), ("type", t.json)]

def Shape.json (s : Shape) : Json :=
  .object [("params", .array (s.params.map ValueShape.json)), ("returns", s.returns.json)]

end Method

/-- A method without the place that it was read at. -/
def Method.json (m : Method) : Json :=
  .object [
    ("owner", m.owner.json),
    ("kind", .text m.kind.text),
    ("role", .text m.role),
    ("target", m.target.json),
    ("multiplicity", m.multiplicity.json),
    ("shape", m.shape.json),
    ("provenance", m.provenance.json)]

def Diagnostic.json (d : Diagnostic) : Json :=
  .object ([
    ("owner", .text d.owner),
    ("role", Json.ofOption .text d.cause.role?),
    ("kind", .text d.cause.kind),
    ("message", .text d.cause.message)] ++
      Json.optionalField "span" d.span Span.json ++ Json.nonemptyField "chains" d.cause.chains .text)

/-- A type with what generating it came to. -/
def TypeReport.json (n : TypeNode) (r : TypeReport) : Json :=
  .object [
    ("id", n.id.json),
    ("name", .text n.name),
    ("kind", n.heritage.json),
    ("roles", .array (n.roles.map Role.json)),
    ("span", n.span.json),
    ("name_span", n.nameSpan.json),
    ("failed", .bool r.failed),
    ("methods", .array (r.methods.map Method.json)),
    ("diagnostics", .array (r.diagnostics.map Diagnostic.json))]

def Report.json (g : Graph) (r : Report) : Json :=
  .object [
    ("namespace", Json.ofOption .text g.namespaceName),
    ("types", .array (r.types.filterMap fun t => (g.node? t.owner).map fun n => TypeReport.json n t))]

end Accessors
