import Accessors.Proofs.Erasure
import Accessors.Proofs.Extension
import Accessors.Proofs.Placement
/-!
# What is made of a graph does not depend on places

Roles, methods and diagnostics carry the places of what they are about, and nothing that is made of them looks there:
without the places of the graph, resolving, merging and writing files give the same without places
(`Graph.report_unplace`, `Backend.emit_unplace`).
-/
namespace Accessors

/-! ## Without places -/

def Candidate.unplace (c : Candidate) : Candidate := { c with role := c.role.unplace }

def Declaration.unplace (d : Declaration) : Declaration := { d with role := d.role.unplace }

def TieBreak.unplace (t : TieBreak) : TieBreak := ⟨t.kept.unplace, t.lost.unplace⟩

def ResolvedRole.unplace (r : ResolvedRole) : ResolvedRole :=
  { r with declarations := r.declarations.map Declaration.unplace, tieBreaks := r.tieBreaks.map TieBreak.unplace }

def Resolution.unplace (r : Resolution) : Resolution := { r with roles := r.roles.map ResolvedRole.unplace }

def Method.unplace (m : Method) : Method := { m with span := .zero }

def Diagnostic.unplace (d : Diagnostic) : Diagnostic := { d with span := d.span.map fun _ => .zero }

def TypeReport.unplace (r : TypeReport) : TypeReport :=
  { r with
    methods? := r.methods?.map (List.map Method.unplace)
    diagnostics := r.diagnostics.map Diagnostic.unplace }

def Report.unplace (r : Report) : Report := ⟨r.types.map TypeReport.unplace⟩

def Emission.unplace (e : Emission) : Emission := { e with diagnostics := e.diagnostics.map Diagnostic.unplace }

/-! ## Looking up types -/

namespace Graph

variable (g : Graph) (t : TypeId)

theorem node?_unplace : g.unplace.node? t = (g.node? t).map TypeNode.unplace := List.getElem?_map

theorem name_unplace : g.unplace.name t = g.name t := by
  unfold name
  rw [node?_unplace]
  cases g.node? t <;> rfl

theorem parents_unplace : g.unplace.parents t = g.parents t := by
  unfold parents
  rw [node?_unplace]
  cases g.node? t <;> rfl

theorem roles_unplace : g.unplace.roles t = (g.roles t).map Role.unplace := by
  unfold roles
  rw [node?_unplace]
  cases g.node? t <;> rfl

theorem isClass_unplace : g.unplace.isClass t = g.isClass t := by
  unfold isClass
  rw [node?_unplace]
  cases g.node? t <;> rfl

theorem isInterface_unplace : g.unplace.isInterface t = g.isInterface t := by
  unfold isInterface
  rw [node?_unplace]
  cases g.node? t <;> rfl

theorem ids_unplace : g.unplace.ids = g.ids := List.map_map

theorem ancestry_unplace : g.unplace.ancestry t = g.ancestry t := by
  have hmap : ∀ a : Ancestry, a.map id = a := by
    intro a
    have hcycle : Cycle.map id = id := funext fun c => congrArg (Cycle.mk · c.closedBy) (List.map_id c.types)
    unfold Ancestry.map
    rw [hcycle, List.map_id_fun, List.map_id_fun, List.map_id]
    rfl
  have hparents : ∀ t, g.unplace.parents (id t) = (g.parents t).map id := by
    intro t
    rw [List.map_id]
    exact g.parents_unplace t
  exact (ancestry_map Function.injective_id hparents t).trans (hmap _)

end Graph

/-! ## Resolving roles -/

namespace Resolution

variable (g : Graph) (o : TypeId)

theorem candidates_unplace (a : Ancestry) : candidates g.unplace a = (candidates g a).map Candidate.unplace := by
  unfold candidates
  rw [List.map_flatMap]
  refine List.flatMap_congr fun path _ => ?_
  cases path.getLast? with
  | none => rfl
  | some t =>
    show (g.unplace.roles t).map _ = ((g.roles t).map _).map _
    rw [g.roles_unplace, List.map_map, List.map_map]
    rfl

theorem isContract_unplace (c : Candidate) : isContract g.unplace o c.unplace = isContract g o c := by
  unfold isContract
  rw [g.isClass_unplace]
  exact congrArg (fun p => g.isClass o && c.trail.holder?.any p) (funext g.isInterface_unplace)

theorem merged_unplace (kept : Candidate) (others : List Candidate) :
    merged kept.unplace (others.map Candidate.unplace) =
      ((merged kept others).1.unplace, (merged kept others).2.map TieBreak.unplace) := by
  have hlost : (others.map Candidate.unplace).filter (fun c => c.role.multiplicity ≠ kept.unplace.role.multiplicity) =
      (others.filter fun c => c.role.multiplicity ≠ kept.role.multiplicity).map Candidate.unplace :=
    filter_map_of_mem fun _ _ => rfl
  unfold merged
  simp only [hlost, List.map_map, List.foldl_map]
  rfl

theorem resolveRole_unplace (name : String) (target : TypeId) (cs : List Candidate) :
    resolveRole g.unplace o name target (cs.map Candidate.unplace) = (resolveRole g o name target cs).unplace := by
  have hcontracts : (cs.map Candidate.unplace).filter (isContract g.unplace o) =
      (cs.filter (isContract g o)).map Candidate.unplace := filter_map_of_mem fun c _ => isContract_unplace g o c
  have hfamily : (cs.map Candidate.unplace).filter (fun c => !isContract g.unplace o c) =
      (cs.filter fun c => !isContract g o c).map Candidate.unplace :=
    filter_map_of_mem fun c _ => congrArg not (isContract_unplace g o c)
  unfold resolveRole
  rw [hcontracts, hfamily, List.map_map]
  cases cs.filter fun c => !isContract g o c with
  | nil => simp [ResolvedRole.unplace, Declaration.unplace, Candidate.unplace, Function.comp_def]
  | cons kept others =>
    simp only [List.map_cons, merged_unplace]
    simp [ResolvedRole.unplace, Declaration.unplace, Candidate.unplace, Function.comp_def]

end Resolution

namespace Graph

open Resolution

variable (g : Graph) (o : TypeId)

/-- **Resolving does not look at places.** -/
theorem resolve_unplace : g.unplace.resolve o = (g.resolve o).unplace := by
  have hkeys : ((candidates g (g.ancestry o)).map Candidate.unplace).map (fun c => (c.role.name, c.role.target)) =
      (candidates g (g.ancestry o)).map fun c => (c.role.name, c.role.target) := List.map_map
  have hgroup : ∀ name target, ((candidates g (g.ancestry o)).map Candidate.unplace).filter
      (fun c => c.role.name = name && c.role.target = target) =
        ((candidates g (g.ancestry o)).filter fun c => c.role.name = name && c.role.target = target).map
          Candidate.unplace := fun _ _ => filter_map_of_mem fun _ _ => rfl
  unfold resolve
  simp only [ancestry_unplace, candidates_unplace, hkeys, hgroup, resolveRole_unplace]
  simp [Resolution.unplace]

end Graph

/-! ## Methods -/

theorem Declaration.methods_unplace (o : TypeId) (d : Declaration) :
    d.unplace.methods o = (d.methods o).map Method.unplace := by
  rw [methods_eq, methods_eq, List.map_map]
  rfl

theorem Resolution.methods_unplace (r : Resolution) : r.unplace.methods = r.methods.map Method.unplace := by
  unfold methods unplace
  rw [List.flatMap_map, List.map_flatMap]
  refine List.flatMap_congr fun role _ => ?_
  rw [List.map_flatMap]
  refine (List.flatMap_map ..).trans (List.flatMap_congr fun d _ => ?_)
  exact d.methods_unplace r.owner

theorem Resolution.roleOrder_unplace (r : Resolution) : r.unplace.roleOrder = r.roleOrder :=
  congrArg List.eraseDups List.map_map

theorem Method.steady_unplace : Method.Steady Method.unplace where
  key_iff _ _ := Iff.rfl
  shape_iff _ _ := Iff.rfl
  role_eq _ := rfl
  kind_eq _ := rfl
  merge_eq _ _ := rfl

theorem Method.map_signature_unplace (ms : List Method) : (ms.map unplace).map signature = ms.map signature :=
  List.map_map

/-! ## Reports -/

namespace Graph

variable (g : Graph)

theorem describe_unplace (t : Trail) : t.describe g.unplace = t.describe g := by
  unfold Trail.describe
  rw [funext g.name_unplace]

theorem diagnostics_unplace (r : Resolution) :
    r.unplace.diagnostics g.unplace = (r.diagnostics g).map Diagnostic.unplace := by
  have hcycle : ∀ (o : TypeId) (c : Cycle),
      Resolution.cycleDiagnostic g.unplace o c = (Resolution.cycleDiagnostic g o c).unplace := by
    intro o c
    unfold Resolution.cycleDiagnostic
    rw [funext g.name_unplace, g.node?_unplace]
    cases g.node? c.closedBy <;> rfl
  have htie : ∀ (o : TypeId) (t : TieBreak),
      Resolution.tieBreakDiagnostic g.unplace o t.unplace = (Resolution.tieBreakDiagnostic g o t).unplace := by
    intro o t
    have hside : ∀ c : Candidate, Resolution.side g.unplace c.unplace = Resolution.side g c := fun c =>
      congrArg (Side.mk · (c.role.multiplicity.text ++ " (" ++ c.role.bounds.text ++ ")")) (g.describe_unplace c.trail)
    unfold Resolution.tieBreakDiagnostic TieBreak.unplace
    rw [g.name_unplace, hside, hside]
    rfl
  unfold Resolution.diagnostics Resolution.unplace
  rw [List.map_append, List.map_map, List.flatMap_map, List.map_flatMap]
  refine congrArg₂ _ (List.map_congr_left fun c _ => hcycle r.owner c) (List.flatMap_congr fun role _ => ?_)
  rw [ResolvedRole.unplace, List.map_map, List.map_map]
  exact List.map_congr_left fun t _ => htie r.owner t

theorem conflict_unplace (o : TypeId) (c : Conflict) :
    Conflict.diagnostic g.unplace o ⟨c.first.unplace, c.second.unplace⟩ = (c.diagnostic g o).unplace := by
  have hshape : ∀ s : Method.Shape, s.describe g.unplace = s.describe g := by
    intro s
    have hvalue : ∀ v : Method.ValueShape, v.describe g.unplace = v.describe g := by
      intro v
      cases v with
      | bool => rfl
      | one t => exact congrArg ("one " ++ ·) (g.name_unplace t)
      | many t => exact congrArg ("many " ++ ·) (g.name_unplace t)
    unfold Method.Shape.describe
    rw [funext hvalue]
  have hside : ∀ m : Method, Conflict.side g.unplace m.unplace = Conflict.side g m := by
    intro m
    unfold Conflict.side Provenance.describe
    rw [funext g.describe_unplace, hshape]
    rfl
  unfold Conflict.diagnostic
  rw [g.name_unplace, hside, hside]
  rfl

/-- **Generating does not look at places.** -/
theorem reportOn_unplace (o : TypeId) : g.unplace.reportOn o = (g.reportOn o).unplace := by
  have hmerge : Method.merge (g.unplace.resolve o).roleOrder (g.unplace.resolve o).methods =
      (Method.merge (g.resolve o).roleOrder (g.resolve o).methods).map Method.unplace := by
    rw [g.resolve_unplace, Resolution.roleOrder_unplace, Resolution.methods_unplace, Method.steady_unplace.merge_map]
  have hmethods : (g.unplace.reportOn o).methods? = (g.reportOn o).methods?.map (List.map Method.unplace) := by
    have hclean : ∀ acc : Method.Merged, (acc.map Method.unplace).isClean = acc.isClean := fun _ => List.isEmpty_map
    rw [methods?_reportOn_eq_ite, methods?_reportOn_eq_ite, hmerge, hclean, apply_ite (Option.map _)]
    rfl
  have hdiagnostics : (g.unplace.reportOn o).diagnostics = (g.reportOn o).diagnostics.map Diagnostic.unplace := by
    rw [diagnostics_reportOn_eq, diagnostics_reportOn_eq, hmerge, g.resolve_unplace, diagnostics_unplace,
      List.map_append, List.map_map]
    refine congrArg _ (List.map_map.trans (List.map_congr_left fun c _ => ?_))
    exact g.conflict_unplace o c
  exact congrArg₂ (TypeReport.mk o) hmethods hdiagnostics

theorem report_unplace : g.unplace.report = g.report.unplace := by
  unfold report Report.unplace
  rw [g.ids_unplace, List.map_map]
  exact congrArg Report.mk (List.map_congr_left fun o _ => g.reportOn_unplace o)

end Graph

/-! ## Files -/

namespace Backend

variable (b : Backend) (g : Graph)

theorem collisions_unplace (ms : List Method) :
    b.collisions (ms.map Method.unplace) = (b.collisions ms).map (Collision.map Method.unplace) := by
  have hname : ∀ m : Method, b.methodName m.unplace = b.methodName m := fun m => by cases b <;> rfl
  exact Collision.Scan.collisions_map hname (fun _ => rfl) ms

theorem render_unplace (n : TypeNode) (ms : List Method) :
    b.render g.unplace n.unplace (ms.map Method.unplace) = b.render g n ms := by
  have hmethods := congrArg Prod.fst (output_eq_of_signatures (Method.map_signature_unplace ms) b g n)
  have hnode : b.render g.unplace n.unplace (ms.map Method.unplace) = b.render g.unplace n (ms.map Method.unplace) := by
    cases b <;> rfl
  have hnames : b.render g.unplace n (ms.map Method.unplace) = b.render g n (ms.map Method.unplace) :=
    b.render_congr rfl (fun p _ => g.name_unplace p) (fun m _ => g.name_unplace m.target)
  exact hnode.trans (hnames.trans hmethods)

theorem emitType_unplace (n : TypeNode) (ms : List Method) :
    b.emitType g.unplace n.unplace (ms.map Method.unplace) = (b.emitType g n ms).unplace := by
  have hcollisions := b.collisions_unplace ms
  have hpath : b.fileName n.unplace = b.fileName n := by cases b <;> rfl
  unfold emitType
  cases hms : b.collisions ms with
  | nil =>
    rw [hms] at hcollisions
    rw [hcollisions, b.render_unplace, hpath]
    rfl
  | cons c cs =>
    rw [hms] at hcollisions
    rw [hcollisions]
    simp only [List.map_cons, Emission.unplace, List.map_map]
    rfl

/-- **Writing files does not look at places.** -/
theorem emit_unplace (r : Report) : b.emit g.unplace r.unplace = (b.emit g r).unplace := by
  have hreport : ∀ t : TypeReport, b.emitReport g.unplace t.unplace = (b.emitReport g t).unplace := by
    intro t
    have hnode : g.unplace.node? t.unplace.owner = (g.node? t.owner).map TypeNode.unplace := g.node?_unplace t.owner
    unfold emitReport
    rw [hnode]
    cases hms : t.methods? with
    | none => simp [TypeReport.unplace, hms, Emission.unplace, Emission.empty]
    | some ms =>
      cases g.node? t.owner with
      | none => simp [TypeReport.unplace, hms, Emission.unplace, Emission.empty]
      | some n =>
        rw [TypeReport.unplace, hms]
        exact b.emitType_unplace g n ms
  rw [emit_eq, emit_eq]
  unfold Report.unplace Emission.unplace
  rw [List.flatMap_map, List.flatMap_map, List.map_flatMap]
  simp only [hreport]
  rfl

end Backend
end Accessors
