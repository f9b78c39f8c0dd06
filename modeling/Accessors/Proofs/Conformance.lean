import Accessors.Proofs.Collisions
import Accessors.Proofs.Generation
/-!
# A class does what its interfaces ask for

An interface merges the roles of all interfaces above it, and gives the first one's multiplicity to all of them; a
class keeps each of these roles apart.  So whatever the interface declares, the class declares as well
(`exists_navigable_of_interface`), and a class without a dispute has every method of the interface
(`interface_conforms`).
-/
namespace Accessors

theorem Backend.methodName_congr (b : Backend) {m n : Method} (hrole : m.role = n.role) (hkind : m.kind = n.kind) :
    b.methodName m = b.methodName n := by
  cases b
  · simp [methodName, Python.methodName, Python.subject, hrole, hkind]
  · simp [methodName, Java.methodName, Java.subject, hrole, hkind]

/-- Where every method has one of the same role and kind elsewhere, the names do not collide if they do not there. -/
theorem Backend.collisions_eq_nil_of_forall {b : Backend} {ms ms' : List Method}
    (h : ∀ m' ∈ ms', ∃ m ∈ ms, m.role = m'.role ∧ m.kind = m'.kind) (hms : b.collisions ms = []) :
    b.collisions ms' = [] := by
  rw [collisions_eq_nil_iff] at hms ⊢
  intro x' hx y' hy he
  obtain ⟨x, hx, hxr, hxk⟩ := h x' hx
  obtain ⟨y, hy, hyr, hyk⟩ := h y' hy
  rw [← hxr, ← hyr]
  apply hms x hx y hy
  rw [b.methodName_congr hxr hxk, b.methodName_congr hyr hyk]
  exact he

namespace Graph

open Resolution

variable {g : Graph} {c i t : TypeId}

theorem mem_ids_of_node? (hg : g.WellFormed) {n : TypeNode} (hn : g.node? t = some n) : t ∈ g.ids := by
  have hid : n.id = t := hg.id_eq t.index n hn
  rw [← hid]
  exact List.mem_map_of_mem (List.mem_of_getElem? hn)

/-- A role that a class takes on from an interface is declared for the class just so. -/
theorem exists_navigable_of_reaches (hc : g.isClass c = true) (ht : g.isInterface t = true) (h : g.Reaches c t)
    {role : Role} (hr : role ∈ g.roles t) (hnav : role.navigable = true) :
    ∃ d ∈ (g.resolve c).navigable, d.role = role := by
  obtain ⟨path, hmem, hp, -⟩ := filter_paths_ancestry h
  have hcand := mem_candidates_of_isPath hmem hp hr
  have hcon : isContract g c ⟨role, ⟨path, role.origin⟩⟩ = true := by
    rw [isContract_of_isPath hp, hc, ht]; rfl
  obtain ⟨resolved, hres, hd⟩ := exists_contractDeclaration_mem hcand hcon
  exact ⟨_, mem_navigable.2 ⟨⟨resolved, hres, hd⟩, hnav⟩, rfl⟩

/-- **Whatever an interface declares, a class below it declares.** -/
theorem exists_navigable_of_interface (hg : g.WellFormed) (hc : g.isClass c = true) (hi : g.isInterface i = true)
    (h : g.Reaches c i) {d : Declaration} (hd : d ∈ (g.resolve i).navigable) :
    ∃ e ∈ (g.resolve c).navigable, e.role = d.role := by
  obtain ⟨⟨resolved, hres, hd⟩, hnav⟩ := mem_navigable.1 hd
  obtain ⟨x, hx, hrole, -⟩ := mem_declarations_resolve hres hd
  obtain ⟨t, path, -, hp, hr, -⟩ := mem_candidates hx
  rw [← hrole] at hr
  exact exists_navigable_of_reaches hc (hg.isInterface_of_reaches hi hp.reaches) (h.trans hp.reaches) hr hnav

theorem disputed_of_interface (hg : g.WellFormed) (hc : g.isClass c = true) (hi : g.isInterface i = true)
    (h : g.Reaches c i) {name : String} (hd : (g.resolve i).Disputed name) : (g.resolve c).Disputed name := by
  obtain ⟨d, hd, e, he, hdn, hen, hde⟩ := hd
  obtain ⟨d', hd', hdr⟩ := exists_navigable_of_interface hg hc hi h hd
  obtain ⟨e', he', her⟩ := exists_navigable_of_interface hg hc hi h he
  refine ⟨d', hd', e', he', by rw [hdr, hdn], by rw [her, hen], ?_⟩
  unfold Declaration.Agrees at hde ⊢
  rwa [hdr, her]

theorem exists_method_of_interface (hg : g.WellFormed) (hc : g.isClass c = true) (hi : g.isInterface i = true)
    (h : g.Reaches c i) {ms ms' : List Method} (hms : (g.reportOn c).methods? = some ms)
    (hms' : (g.reportOn i).methods? = some ms') {m' : Method} (hm' : m' ∈ ms') :
    ∃ m ∈ ms, m.role = m'.role ∧ m.kind = m'.kind ∧ m.target = m'.target ∧ m.multiplicity = m'.multiplicity ∧
      m.shape = m'.shape := by
  obtain ⟨d, hd, hsig⟩ := (mem_signatures_reportOn hms').1 (List.mem_map_of_mem hm')
  obtain ⟨e, he, hrole⟩ := exists_navigable_of_interface hg hc hi h hd
  obtain ⟨kind, hkind, hsig⟩ := List.mem_map.1 hsig
  have hx : ({ m'.signature with owner := c } : Method.Signature) ∈ Method.signatures c e := by
    unfold Method.signatures
    rw [hrole, ← hsig]
    exact List.mem_map_of_mem hkind
  obtain ⟨m, hm, hsame⟩ := List.mem_map.1 ((mem_signatures_reportOn hms).2 ⟨e, he, hx⟩)
  obtain ⟨-, hk, hr, ht, hmul, hshape⟩ := Method.Signature.mk.inj hsame
  exact ⟨m, hm, hr, hk, ht, hmul, hshape⟩

/-- **Interfaces are conformed to.**  A class that does not fail has, for every interface above it, each of the
interface's methods: of the same role, kind, target, multiplicity and shape.  The interface does not fail either, and
whichever backend makes a file for the class makes one for the interface, whose methods have names that the class's
methods have. -/
theorem interface_conforms {s : Source} {g : Graph} (hs : ofSource s = .ok g) {c i : TypeId} (hc : g.isClass c = true)
    (hi : g.isInterface i = true) (h : g.Reaches c i) {ms : List Method} (hms : (g.reportOn c).methods? = some ms) :
    ∃ ms', (g.reportOn i).methods? = some ms' ∧
      (∀ m' ∈ ms', ∃ m ∈ ms, m.role = m'.role ∧ m.kind = m'.kind ∧ m.target = m'.target ∧
        m.multiplicity = m'.multiplicity ∧ m.shape = m'.shape) ∧
      ∀ b : Backend, ∀ f ∈ b.filesFor g c,
        (∃ n, g.node? c = some n ∧ f = b.fileOf g n ms) ∧
        (∃ n', g.node? i = some n' ∧ b.filesFor g i = [b.fileOf g n' ms'] ∧
          b.fileOf g n' ms' ∈ (b.emit g g.report).files) ∧
        ∀ m' ∈ ms', b.methodName m' ∈ ms.map b.methodName := by
  have hg := wellFormed_of_ofSource hs
  obtain ⟨ms', hms'⟩ : ∃ ms', (g.reportOn i).methods? = some ms' := by
    rw [← Option.ne_none_iff_exists']
    intro hnone
    obtain ⟨name, hd⟩ := methods?_reportOn_eq_none.1 hnone
    exact not_disputed_of_methods? hms name (disputed_of_interface hg hc hi h hd)
  have hconf : ∀ m' ∈ ms', ∃ m ∈ ms, m.role = m'.role ∧ m.kind = m'.kind ∧ m.target = m'.target ∧
      m.multiplicity = m'.multiplicity ∧ m.shape = m'.shape := fun m' hm' =>
    exists_method_of_interface hg hc hi h hms hms' hm'
  have hsame : ∀ m' ∈ ms', ∃ m ∈ ms, m.role = m'.role ∧ m.kind = m'.kind := fun m' hm' => by
    obtain ⟨m, hm, hr, hk, -⟩ := hconf m' hm'
    exact ⟨m, hm, hr, hk⟩
  refine ⟨ms', hms', hconf, fun b f hf => ?_⟩
  obtain ⟨n, ms₀, hn, hms₀, hcoll, hfile⟩ := Backend.mem_filesFor.1 hf
  rw [hms] at hms₀
  cases hms₀
  obtain ⟨n', hn', -⟩ := isInterface_iff.1 hi
  have hfiles : b.filesFor g i = [b.fileOf g n' ms'] :=
    Backend.filesFor_of_collisions_eq_nil hms' hn' (Backend.collisions_eq_nil_of_forall hsame hcoll)
  refine ⟨⟨n, hn, hfile⟩, ⟨n', hn', hfiles, ?_⟩, fun m' hm' => ?_⟩
  · rw [Backend.files_emit]
    exact List.mem_flatMap.2 ⟨i, mem_ids_of_node? hg hn', hfiles ▸ List.mem_cons_self⟩
  · obtain ⟨m, hm, hr, hk⟩ := hsame m' hm'
    rw [← b.methodName_congr hr hk]
    exact List.mem_map_of_mem hm

/-- A class with a file, and an interface above it whose hierarchy comes back to itself. -/
theorem interface_conforms_enrolment : enrolment.isClass ⟨3⟩ = true ∧ enrolment.isInterface ⟨1⟩ = true ∧
    enrolment.Reaches ⟨3⟩ ⟨1⟩ ∧ ∃ ms ms', (enrolment.reportOn ⟨3⟩).methods? = some ms ∧
      (enrolment.reportOn ⟨1⟩).methods? = some ms' ∧ ms'.map Method.kind = [.get, .add, .remove] ∧
      (∀ m' ∈ ms', ∃ m ∈ ms, m.role = m'.role ∧ m.kind = m'.kind ∧ m.target = m'.target ∧
        m.multiplicity = m'.multiplicity ∧ m.shape = m'.shape) ∧
      ∀ b : Backend, (b.filesFor enrolment ⟨3⟩).length = 1 ∧ (b.filesFor enrolment ⟨1⟩).length = 1 ∧
        ∀ m' ∈ ms', b.methodName m' ∈ ms.map b.methodName := by
  have hc : enrolment.isClass ⟨3⟩ = true := by decide
  have hi : enrolment.isInterface ⟨1⟩ = true := by decide
  have hkinds : (enrolment.reportOn ⟨1⟩).methods?.map (·.map Method.kind) = some [.get, .add, .remove] := rfl
  have hroles : (enrolment.reportOn ⟨3⟩).methods?.map (·.map Method.role) = some ["courses", "courses", "courses"] := rfl
  obtain ⟨ms, hms⟩ : ∃ ms, (enrolment.reportOn ⟨3⟩).methods? = some ms := ⟨_, rfl⟩
  obtain ⟨ms', hms', hconf, hfiles⟩ := interface_conforms ofSource_enrolment hc hi reaches_enrolment hms
  rw [hms', Option.map_some, Option.some.injEq] at hkinds
  rw [hms, Option.map_some, Option.some.injEq] at hroles
  refine ⟨hc, hi, reaches_enrolment, ms, ms', hms, hms', hkinds, hconf, fun b => ?_⟩
  -- all methods are of one role, so no names collide
  have hrole : ∀ m ∈ ms, m.role = "courses" := fun m hm => by
    have := List.mem_map_of_mem (f := Method.role) hm
    rw [hroles] at this
    simpa using this
  obtain ⟨n, hn⟩ : ∃ n, enrolment.node? ⟨3⟩ = some n := ⟨_, rfl⟩
  have hfile := Backend.filesFor_of_collisions_eq_nil hms hn (Backend.collisions_eq_nil_iff (b := b).2
    (fun x hx y hy _ => (hrole x hx).trans (hrole y hy).symm))
  obtain ⟨-, ⟨n', -, hfile', -⟩, hnames⟩ := hfiles b _ (hfile ▸ List.mem_cons_self)
  rw [hfile, hfile']
  exact ⟨rfl, rfl, hnames⟩

end Graph
end Accessors
