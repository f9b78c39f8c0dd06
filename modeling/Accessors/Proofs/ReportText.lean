import Accessors.Proofs.Extension
import Accessors.Proofs.JsonText
import Accessors.Report.Json
/-!
# Reading reports

A report on all types of a graph (`Report.Covers`), as every graph that is built is given one (`covers_report`), tells
the graph, and of each type whether it failed, its methods and its diagnostics.  Only the places that methods were read
at are left out, and of a diagnostic the words of its message stand for its cause.  `Report.ofText?` reads all of this
from the text of a report, so two texts are the same only where all of this is.
-/
namespace Accessors

/-! ## Reading parts of values -/

namespace Json

variable {α β : Type}

def toText? : Json → Option String
  | text s => some s
  | _ => none

def toNat? : Json → Option Nat
  | number n => some n
  | _ => none

def toBool? : Json → Option Bool
  | bool b => some b
  | _ => none

def toList? (read : Json → Option α) : Json → Option (List α)
  | array items => items.mapM read
  | _ => none

/-- A value that `null` stands for the absence of. -/
def toOption? (read : Json → Option α) : Json → Option (Option α)
  | null => some none
  | j => (read j).map some

/-- The value of a field. -/
def field? (name : String) (read : Json → Option α) : Json → Option α
  | object fields => (fields.lookup name).bind read
  | _ => none

/-- The value of a field that may be left out. -/
def fieldIfAny? (name : String) (read : Json → Option α) : Json → Option (Option α)
  | object fields =>
    match fields.lookup name with
    | none => some none
    | some j => (read j).map some
  | _ => none

/-- The list of a field that is left out where the list is empty. -/
def listField? (name : String) (read : Json → Option α) (j : Json) : Option (List α) :=
  (j.fieldIfAny? name (toList? read)).map fun l => l.getD []

theorem toText?_text (s : String) : toText? (text s) = some s := rfl

@[simp] theorem field?_cons (name other : String) (read : Json → Option α) (value : Json)
    (fields : List (String × Json)) :
    field? name read (object ((other, value) :: fields)) =
      if name = other then read value else field? name read (object fields) := by
  unfold field?
  simp only [List.lookup_cons]
  by_cases h : name = other
  · simp [h]
  · simp [h, beq_false_of_ne h]

theorem toList?_array {read : Json → Option β} {encode : α → Json} {f : α → β} : ∀ {items : List α},
    (∀ a ∈ items, read (encode a) = some (f a)) → toList? read (array (items.map encode)) = some (items.map f)
  | [], _ => rfl
  | a :: items, h => by
    have hrest : (items.map encode).mapM read = some (items.map f) :=
      toList?_array (fun b hb => h b (List.mem_cons_of_mem _ hb))
    show ((a :: items).map encode).mapM read = _
    rw [List.map_cons, List.mapM_cons, h a List.mem_cons_self, hrest]
    rfl

/-- Items are read back if each of them is. -/
theorem toList?_map {read : Json → Option α} {encode : α → Json} (h : ∀ a, read (encode a) = some a) (items : List α) :
    toList? read (array (items.map encode)) = some items := by
  rw [toList?_array (f := id) (fun a _ => h a), List.map_id]

theorem toOption?_ofOption {read : Json → Option α} {encode : α → Json} (h : ∀ a, read (encode a) = some a)
    (hnull : read null = none) (o : Option α) : toOption? read (ofOption encode o) = some o := by
  cases o with
  | none => rfl
  | some a =>
    have hread := h a
    unfold ofOption
    cases he : encode a
    case null =>
      rw [he, hnull] at hread
      cases hread
    all_goals
      rw [he] at hread
      simp [toOption?, he, hread]

theorem lookup_optionalField {name other : String} (h : name ≠ other) (o : Option α) (encode : α → Json) :
    (optionalField other o encode).lookup name = none := by
  unfold optionalField
  cases o <;> simp [List.lookup_cons, beq_false_of_ne h]

theorem lookup_nonemptyField {name other : String} (h : name ≠ other) (items : List α) (encode : α → Json) :
    (nonemptyField other items encode).lookup name = none := by
  unfold nonemptyField
  cases items <;> simp [List.lookup_cons, beq_false_of_ne h]

theorem fieldIfAny?_optionalField {read : Json → Option α} {encode : α → Json} (h : ∀ a, read (encode a) = some a)
    {name : String} {before after : List (String × Json)} (hbefore : before.lookup name = none)
    (hafter : after.lookup name = none) (o : Option α) :
    fieldIfAny? name read (object (before ++ optionalField name o encode ++ after)) = some o := by
  unfold fieldIfAny? optionalField
  cases o <;> simp [List.lookup_append, hbefore, hafter, h]

theorem listField?_nonemptyField {read : Json → Option α} {encode : α → Json} (h : ∀ a, read (encode a) = some a)
    {name : String} (before : List (String × Json)) (hbefore : before.lookup name = none) (items : List α) :
    listField? name read (object (before ++ nonemptyField name items encode)) = some items := by
  unfold listField? fieldIfAny? nonemptyField
  cases items with
  | nil => simp [hbefore]
  | cons a items => simp [List.lookup_append, hbefore, toList?_map h, -List.map_cons]

end Json

open Json

/-! ## Parts of a graph -/

def TypeId.ofJson? (j : Json) : Option TypeId := j.toNat?.map TypeId.mk

theorem TypeId.ofJson?_json (t : TypeId) : ofJson? t.json = some t := rfl

def Span.ofJson? (j : Json) : Option Span := do
  return ⟨← j.field? "start" toNat?, ← j.field? "end" toNat?⟩

theorem Span.ofJson?_json (s : Span) : ofJson? s.json = some s := rfl

def Bounds.ofJson? (j : Json) : Option Bounds := do
  return ⟨← j.field? "lower" toNat?, ← j.field? "upper" (toOption? toNat?)⟩

theorem Bounds.ofJson?_json (b : Bounds) : ofJson? b.json = some b := by
  cases b with
  | mk lower upper => cases upper <;> rfl

def Multiplicity.ofJson? (j : Json) : Option Multiplicity :=
  j.toText?.bind fun s => [Multiplicity.one, .many].find? (·.text = s)

theorem Multiplicity.ofJson?_json (m : Multiplicity) : ofJson? m.json = some m := by
  cases m <;> rfl

def Origin.ofJson? : Json → Option Origin
  | .text "declared" => some declared
  | j => j.field? "opposite-end" fun i => (i.field? "declared_in" TypeId.ofJson?).map oppositeEnd

theorem Origin.ofJson?_json (o : Origin) : ofJson? o.json = some o := by
  cases o <;> rfl

def Role.navigable? (j : Json) : Option Bool :=
  j.toText?.bind fun s => if s = "navigable" then some true else if s = "non-navigable" then some false else none

def Role.ofJson? (j : Json) : Option Role := do
  return {
    name := ← j.field? "name" toText?
    target := ← j.field? "target" TypeId.ofJson?
    bounds := ← j.field? "bounds" Bounds.ofJson?
    navigable := ← j.field? "navigability" navigable?
    holder := ← j.field? "declared_in" TypeId.ofJson?
    origin := ← j.field? "origin" Origin.ofJson?
    span := ← j.field? "span" Span.ofJson? }

theorem Role.ofJson?_json (r : Role) : ofJson? r.json = some r := by
  have hnavigable : navigable? (.text (if r.navigable then "navigable" else "non-navigable")) = some r.navigable := by
    cases r.navigable <;> rfl
  simp [ofJson?, json, toText?, Bounds.ofJson?_json, Origin.ofJson?_json, TypeId.ofJson?_json,
    Span.ofJson?_json, hnavigable]

def Heritage.ofJson? (j : Json) : Option Heritage := do
  match ← j.field? "kind" toText? with
  | "class" =>
    return .ofClass (← j.field? "superclass" (toOption? TypeId.ofJson?))
      (← j.field? "interfaces" (toList? TypeId.ofJson?))
  | "interface" => return .ofInterface (← j.field? "extends" (toList? TypeId.ofJson?))
  | _ => none

theorem Heritage.ofJson?_json (her : Heritage) : ofJson? her.json = some her := by
  cases her <;>
    simp [ofJson?, json, toText?, toOption?_ofOption TypeId.ofJson?_json rfl,
      toList?_map TypeId.ofJson?_json]

def TypeNode.ofJson? (j : Json) : Option TypeNode := do
  return {
    id := ← j.field? "id" TypeId.ofJson?
    name := ← j.field? "name" toText?
    heritage := ← j.field? "kind" Heritage.ofJson?
    roles := ← j.field? "roles" (toList? Role.ofJson?)
    span := ← j.field? "span" Span.ofJson?
    nameSpan := ← j.field? "name_span" Span.ofJson? }

/-! ## Parts of a report -/

def Trail.ofJson? (j : Json) : Option Trail := do
  return ⟨← j.field? "types" (toList? TypeId.ofJson?), ← j.field? "origin" Origin.ofJson?⟩

theorem Trail.ofJson?_json (t : Trail) : ofJson? t.json = some t := by
  simp [ofJson?, json, toList?_map TypeId.ofJson?_json, Origin.ofJson?_json]

def Discarded.ofJson? (j : Json) : Option Discarded := do
  return ⟨← j.field? "path" Trail.ofJson?, ← j.field? "bounds" Bounds.ofJson?⟩

theorem Discarded.ofJson?_json (d : Discarded) : ofJson? d.json = some d := by
  simp [ofJson?, json, Trail.ofJson?_json, Bounds.ofJson?_json]

def Provenance.ofJson? (j : Json) : Option Provenance := do
  return ⟨← j.field? "paths" (toList? Trail.ofJson?), ← j.listField? "discarded" Discarded.ofJson?⟩

theorem Provenance.ofJson?_json (p : Provenance) : ofJson? p.json = some p := by
  have hdiscarded : p.json.listField? "discarded" Discarded.ofJson? = some p.discarded :=
    listField?_nonemptyField Discarded.ofJson?_json [_] rfl p.discarded
  unfold ofJson?
  rw [hdiscarded]
  simp [json, toList?_map Trail.ofJson?_json]

namespace Method

def Kind.ofJson? (j : Json) : Option Kind := j.toText?.bind fun s => Kind.all.find? (·.text = s)

theorem Kind.ofJson?_text (k : Kind) : ofJson? (.text k.text) = some k := by
  cases k <;> rfl

def ValueShape.ofJson? (j : Json) : Option ValueShape := do
  match ← j.field? "shape" toText? with
  | "bool" => return bool
  | "one" => return one (← j.field? "type" TypeId.ofJson?)
  | "many" => return many (← j.field? "type" TypeId.ofJson?)
  | _ => none

theorem ValueShape.ofJson?_json (v : ValueShape) : ofJson? v.json = some v := by
  cases v <;> rfl

def Shape.ofJson? (j : Json) : Option Shape := do
  return ⟨← j.field? "params" (toList? ValueShape.ofJson?), ← j.field? "returns" ValueShape.ofJson?⟩

theorem Shape.ofJson?_json (s : Shape) : ofJson? s.json = some s := by
  simp [ofJson?, json, toList?_map ValueShape.ofJson?_json, ValueShape.ofJson?_json]

/-- The method without the place that it was read at. -/
def unplaced (m : Method) : Method := { m with span := Span.zero }

def ofJson? (j : Json) : Option Method := do
  return {
    owner := ← j.field? "owner" TypeId.ofJson?
    kind := ← j.field? "kind" Kind.ofJson?
    role := ← j.field? "role" toText?
    target := ← j.field? "target" TypeId.ofJson?
    multiplicity := ← j.field? "multiplicity" Multiplicity.ofJson?
    shape := ← j.field? "shape" Shape.ofJson?
    provenance := ← j.field? "provenance" Provenance.ofJson?
    span := Span.zero }

theorem ofJson?_json (m : Method) : ofJson? m.json = some m.unplaced := by
  simp [ofJson?, json, toText?, TypeId.ofJson?_json, Kind.ofJson?_text, Multiplicity.ofJson?_json,
    Shape.ofJson?_json, Provenance.ofJson?_json, unplaced]

end Method

namespace Diagnostic

/-- What a report tells of a diagnostic. -/
structure Record where
  owner : String
  role? : Option String
  kind : String
  message : String
  span : Option Span
  chains : List String
deriving DecidableEq

def record (d : Diagnostic) : Record :=
  ⟨d.owner, d.cause.role?, d.cause.kind, d.cause.message, d.span, d.cause.chains⟩

def Record.ofJson? (j : Json) : Option Record := do
  return {
    owner := ← j.field? "owner" toText?
    role? := ← j.field? "role" (toOption? toText?)
    kind := ← j.field? "kind" toText?
    message := ← j.field? "message" toText?
    span := ← j.fieldIfAny? "span" Span.ofJson?
    chains := ← j.listField? "chains" toText? }

theorem ofJson?_json (d : Diagnostic) : Record.ofJson? d.json = some d.record := by
  have hspan : d.json.fieldIfAny? "span" Span.ofJson? = some d.span :=
    fieldIfAny?_optionalField Span.ofJson?_json rfl (lookup_nonemptyField (by decide) _ _) d.span
  have hchains : d.json.listField? "chains" toText? = some d.cause.chains := by
    refine listField?_nonemptyField toText?_text _ ?_ d.cause.chains
    rw [List.lookup_append, lookup_optionalField (by decide)]
    rfl
  unfold Record.ofJson?
  rw [hspan, hchains]
  simp [json, toText?_text, toOption?_ofOption toText?_text rfl, record]

end Diagnostic

/-- What a report tells of a type, besides the type itself. -/
structure TypeReport.Told where
  failed : Bool
  methods : List Method
  diagnostics : List Diagnostic.Record

namespace TypeReport

def told (t : TypeReport) : Told := ⟨t.failed, t.methods.map Method.unplaced, t.diagnostics.map Diagnostic.record⟩

def Told.ofJson? (j : Json) : Option Told := do
  return ⟨← j.field? "failed" toBool?, ← j.field? "methods" (toList? Method.ofJson?),
    ← j.field? "diagnostics" (toList? Diagnostic.Record.ofJson?)⟩

theorem ofJson?_json (n : TypeNode) (t : TypeReport) :
    TypeNode.ofJson? (json n t) = some n ∧ Told.ofJson? (json n t) = some t.told := by
  constructor
  · simp [TypeNode.ofJson?, json, toText?, TypeId.ofJson?_json, Heritage.ofJson?_json,
      toList?_map Role.ofJson?_json, Span.ofJson?_json]
  · simp [Told.ofJson?, json, toBool?, toList?_array (fun m _ => Method.ofJson?_json m),
      toList?_array (fun d _ => Diagnostic.ofJson?_json d), told]

end TypeReport

/-! ## Whole reports -/

namespace Report

/-- The report has one entry for each type of the graph, in order, and the types are numbered in that order. -/
structure Covers (r : Report) (g : Graph) : Prop where
  ids_eq : g.ids = (List.range g.size).map TypeId.mk
  owners_eq : r.types.map TypeReport.owner = g.ids

/-- **The report that a graph is given covers it.** -/
theorem covers_report {s : Source} {g : Graph} (h : Graph.ofSource s = .ok g) : g.report.Covers g where
  ids_eq := by
    refine List.ext_getElem? (fun i => ?_)
    unfold Graph.ids Graph.size
    rw [List.getElem?_map, List.getElem?_map]
    by_cases hi : i < g.types.length
    · have hn := List.getElem?_eq_getElem hi
      rw [hn, List.getElem?_range hi, Option.map_some, (Graph.wellFormed_of_ofSource h).id_eq i _ hn]
      rfl
    · simp [hi]
  owners_eq := by
    rw [Graph.types_report, List.map_map]
    rfl

variable {g g' : Graph} {r r' : Report}

theorem Covers.length_eq (h : r.Covers g) : r.types.length = g.types.length := by
  have := congrArg List.length h.owners_eq
  simpa [Graph.ids] using this

theorem Covers.map_node? (h : r.Covers g) : r.types.map (fun t => g.node? t.owner) = g.types.map some := by
  have howners : r.types.map (fun t => g.node? t.owner) = (r.types.map TypeReport.owner).map g.node? := by
    rw [List.map_map]
    rfl
  rw [howners, h.owners_eq, h.ids_eq, List.map_map]
  refine List.ext_getElem? (fun i => ?_)
  rw [List.getElem?_map, List.getElem?_map]
  by_cases hi : i < g.types.length
  · simp [Graph.size, Graph.node?, hi]
  · simp [Graph.size, hi]

theorem filterMap_eq_map_zip {α β γ : Type} (node? : α → Option β) (f : β → α → γ) : ∀ {ts : List α} {ns : List β},
    ts.map node? = ns.map some → ts.filterMap (fun t => (node? t).map fun n => f n t) =
      (ns.zip ts).map fun p => f p.1 p.2
  | [], [], _ => rfl
  | t :: ts, n :: ns, h => by
    rw [List.map_cons, List.map_cons, List.cons.injEq] at h
    rw [List.filterMap_cons_some (b := f n t) (by rw [h.1]; rfl), filterMap_eq_map_zip node? f h.2]
    rfl

/-- A type and what is told of it. -/
def typeOfJson? (j : Json) : Option (TypeNode × TypeReport.Told) := do
  return (← TypeNode.ofJson? j, ← TypeReport.Told.ofJson? j)

/-- The graph that a report is on, and what is told of its types. -/
def ofJson? (j : Json) : Option (Graph × List TypeReport.Told) := do
  let entries ← j.field? "types" (toList? typeOfJson?)
  return (⟨← j.field? "namespace" (toOption? toText?), entries.map Prod.fst⟩, entries.map Prod.snd)

def ofText? (s : String) : Option (Graph × List TypeReport.Told) := (Json.ofText? s).bind ofJson?

theorem typeOfJson?_json (n : TypeNode) (t : TypeReport) : typeOfJson? (TypeReport.json n t) = some (n, t.told) := by
  obtain ⟨hnode, htold⟩ := TypeReport.ofJson?_json n t
  simp [typeOfJson?, hnode, htold]

theorem ofJson?_json (h : r.Covers g) : ofJson? (json g r) = some (g, r.types.map TypeReport.told) := by
  have hlength : g.types.length = (r.types.map TypeReport.told).length := by rw [List.length_map, h.length_eq]
  have hentries : toList? typeOfJson? (array ((g.types.zip r.types).map fun p => TypeReport.json p.1 p.2)) =
      some (g.types.zip (r.types.map TypeReport.told)) := by
    rw [toList?_array (fun p _ => typeOfJson?_json p.1 p.2), List.zip_map_right]
    rfl
  unfold ofJson? json
  rw [filterMap_eq_map_zip (fun t => g.node? t.owner) TypeReport.json h.map_node?]
  simp [toOption?_ofOption toText?_text rfl, hentries, List.map_fst_zip hlength.le,
    List.map_snd_zip hlength.ge]

/-- **The text of a report loses nothing.**  From it the graph can be read back, and of each type whether it failed, its
methods but for where they were read, and its diagnostics; so two reports of one text agree on all of these. -/
theorem text_tells_report (h : r.Covers g) (h' : r'.Covers g') :
    ofText? (json g r).pretty = some (g, r.types.map TypeReport.told) ∧
    ((json g r).pretty = (json g' r').pretty →
      g = g' ∧ r.types.map TypeReport.told = r'.types.map TypeReport.told) := by
  have hread : ∀ {g : Graph} {r : Report}, r.Covers g →
      ofText? (json g r).pretty = some (g, r.types.map TypeReport.told) := by
    intro g r h
    unfold ofText?
    rw [Json.ofText?_pretty, Option.bind_some, ofJson?_json h]
  refine ⟨hread h, fun heq => ?_⟩
  have hsame := hread h
  rw [heq, hread h', Option.some.injEq, Prod.mk.injEq] at hsame
  exact ⟨hsame.1.symm, hsame.2.symm⟩

/-- The report on a graph with a cycle of interfaces is read back, and no other graph has its text. -/
theorem text_tells_report_enrolment : Graph.enrolment.report.Covers .enrolment ∧ Graph.faculty.report.Covers .faculty ∧
    ofText? (json .enrolment Graph.enrolment.report).pretty =
      some (.enrolment, Graph.enrolment.report.types.map TypeReport.told) ∧
    (json .enrolment Graph.enrolment.report).pretty ≠ (json .faculty Graph.faculty.report).pretty := by
  have henrolment := covers_report Graph.ofSource_enrolment
  have hfaculty : Graph.faculty.report.Covers .faculty := covers_report (s := .faculty) rfl
  obtain ⟨hread, hsame⟩ := text_tells_report henrolment hfaculty
  exact ⟨henrolment, hfaculty, hread, fun heq => absurd (hsame heq).1 (by decide)⟩

end Report
end Accessors
