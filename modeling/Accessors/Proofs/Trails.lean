import Accessors.Proofs.Generation
/-!
# The provenance of methods

A provenance is accurate for a role of the owner (`Provenance.Accurate`) if each of its trails leads from the owner to a
declaration of such a role, no trail is told twice, and whatever it says was given up is such a declaration as well, of
another multiplicity.  What the candidates of one family are merged into is accurate, merging what is accurate for one
role keeps it so, and the methods of a type carry nothing else (`provenance_of_methods`).
-/
namespace Accessors

/-- A trail leads from `o` up to the holder of a role. -/
def Trail.LeadsTo (g : Graph) (o : TypeId) (t : Trail) (r : Role) : Prop :=
  ∃ holder, g.IsPath o holder t.types ∧ r ∈ g.roles holder ∧ r.origin = t.origin

/-- What a provenance has to say about a role of `o`, given the role's name, target and multiplicity. -/
structure Provenance.Accurate (g : Graph) (o : TypeId) (name : String) (target : TypeId) (m : Multiplicity)
    (p : Provenance) : Prop where
  nodup : p.trails.Nodup
  leads : ∀ t ∈ p.trails, ∃ r, t.LeadsTo g o r ∧ r.name = name ∧ r.target = target
  gaveWay : ∀ x ∈ p.discarded, x.trail ∈ p.trails ∧ x.multiplicity ≠ m ∧
    ∃ r, x.trail.LeadsTo g o r ∧ r.name = name ∧ r.target = target ∧ r.bounds = x.bounds

namespace Provenance.Accurate

variable {g : Graph} {o target : TypeId} {name : String} {m : Multiplicity} {p q : Provenance}

theorem merge (hp : p.Accurate g o name target m) (hq : q.Accurate g o name target m) :
    (p.merge q).Accurate g o name target m where
  nodup := nodup_foldl_pushNew q.trails hp.nodup
  leads t ht := (mem_foldl_pushNew.1 ht).elim (hp.leads t) (hq.leads t)
  gaveWay x hx := by
    rcases mem_foldl_pushNew.1 hx with hx | hx
    · obtain ⟨ht, hx⟩ := hp.gaveWay x hx
      exact ⟨mem_foldl_pushNew.2 (.inl ht), hx⟩
    · obtain ⟨ht, hx⟩ := hq.gaveWay x hx
      exact ⟨mem_foldl_pushNew.2 (.inr ht), hx⟩

/-- **Merging keeps a provenance accurate.** -/
theorem foldl_merge : ∀ (qs : List Provenance) {p : Provenance}, p.Accurate g o name target m →
    (∀ q ∈ qs, q.Accurate g o name target m) → (qs.foldl Provenance.merge p).Accurate g o name target m
  | [], _, hp, _ => hp
  | q :: qs, _, hp, hqs => foldl_merge qs (hp.merge (hqs q List.mem_cons_self))
    (fun x hx => hqs x (List.mem_cons_of_mem q hx))

end Provenance.Accurate

namespace Resolution

variable {g : Graph} {o : TypeId}

/-! ## Declarations -/

theorem leadsTo_of_mem_candidates {c : Candidate} (h : c ∈ candidates g (g.ancestry o)) :
    c.trail.LeadsTo g o c.role := by
  obtain ⟨t, path, -, hp, hr, htrail⟩ := mem_candidates h
  rw [htrail]
  exact ⟨t, hp, hr, rfl⟩

section Family

variable {name : String} {target : TypeId} {kept : Candidate} {others : List Candidate}
  (h : ∀ c ∈ kept :: others, c.trail.LeadsTo g o c.role ∧ c.role.name = name ∧ c.role.target = target)

include h

/-- **What a family is merged into** is accurate for the role that was kept. -/
theorem accurate_merged :
    (merged kept others).1.provenance.Accurate g o name target kept.role.multiplicity where
  nodup := by
    rw [trails_merged]
    exact nodup_foldl_pushNew _ (List.nodup_singleton _)
  leads t ht := by
    rw [trails_merged, mem_foldl_pushNew, List.mem_singleton, ← List.mem_cons, ← List.map_cons] at ht
    obtain ⟨c, hc, rfl⟩ := List.mem_map.1 ht
    exact ⟨c.role, h c hc⟩
  gaveWay x hx := by
    obtain ⟨c, hc, rfl⟩ := List.mem_map.1 hx
    obtain ⟨hc, hlost⟩ := List.mem_filter.1 hc
    obtain ⟨hlead, hname, htarget⟩ := h c (List.mem_cons_of_mem _ hc)
    exact ⟨trail_mem_merged (List.mem_cons_of_mem _ hc), of_decide_eq_true hlost, c.role, hlead, hname, htarget, rfl⟩

end Family

theorem accurate_ofTrail {c : Candidate} (h : c.trail.LeadsTo g o c.role) :
    (Provenance.ofTrail c.trail).Accurate g o c.role.name c.role.target c.role.multiplicity where
  nodup := List.nodup_singleton _
  leads t ht := by
    rw [List.mem_singleton.1 ht]
    exact ⟨c.role, h, rfl, rfl⟩
  gaveWay x hx := by cases hx

/-- **Every declaration is accurate about its role.** -/
theorem accurate_of_mem_declarations {resolved : ResolvedRole} (hres : resolved ∈ (g.resolve o).roles)
    {d : Declaration} (hd : d ∈ resolved.declarations) :
    d.provenance.Accurate g o d.role.name d.role.target d.role.multiplicity := by
  rw [resolve_roles] at hres
  obtain ⟨⟨name, target⟩, -, rfl⟩ := List.mem_map.1 hres
  have hgroup : ∀ c ∈ group (candidates g (g.ancestry o)) name target,
      c.trail.LeadsTo g o c.role ∧ c.role.name = name ∧ c.role.target = target := fun c hc =>
    (mem_group.1 hc).imp_left leadsTo_of_mem_candidates
  rw [declarations_resolveRole] at hd
  rcases List.mem_append.1 hd with hd | hd
  · cases hf : (group (candidates g (g.ancestry o)) name target).filter (fun c => !isContract g o c) with
    | nil => rw [hf] at hd; cases hd
    | cons kept others =>
      have hfamily : ∀ c ∈ kept :: others, c ∈ group (candidates g (g.ancestry o)) name target := fun c hc =>
        (List.mem_filter.1 (hf ▸ hc)).1
      rw [hf] at hd
      rw [List.mem_singleton.1 hd]
      obtain ⟨-, hname, htarget⟩ := hgroup kept (hfamily kept List.mem_cons_self)
      show (merged kept others).1.provenance.Accurate g o kept.role.name kept.role.target kept.role.multiplicity
      rw [hname, htarget]
      exact accurate_merged (fun c hc => hgroup c (hfamily c hc))
  · obtain ⟨c, hc, rfl⟩ := List.mem_map.1 hd
    exact accurate_ofTrail (hgroup c (List.mem_filter.1 hc).1).1

end Resolution

namespace Graph

open Resolution Method

variable {g : Graph} {o : TypeId} {ms : List Method} {m : Method}

/-! ## Methods -/

/-- **A method carries the provenance of all navigable declarations of its role**, whichever kind it is of. -/
theorem exists_declarations_of_mem_methods? (h : (g.reportOn o).methods? = some ms) (hm : m ∈ ms) :
    ∃ d ds, (g.resolve o).navigable.filter (fun d => d.role.name = m.role) = d :: ds ∧ m.target = d.role.target ∧
      m.multiplicity = d.role.multiplicity ∧
      m.provenance = (ds.map Declaration.provenance).foldl Provenance.merge d.provenance := by
  rw [methods?_reportOn (not_disputed_of_methods? h), Option.some.injEq] at h
  subst h
  obtain ⟨name, -, hm⟩ := List.mem_flatMap.1 hm
  rw [role_of_mem_block_filter hm]
  cases hf : (g.resolve o).navigable.filter (fun d => d.role.name = name) with
  | nil => rw [hf] at hm; cases hm
  | cons d ds =>
    rw [hf] at hm
    obtain ⟨kind, -, rfl⟩ := List.mem_map.1 hm
    exact ⟨d, ds, rfl, rfl, rfl, rfl⟩

/-- **The provenance of methods is accurate.**  The trails of a method of a type that did not fail are those of the
navigable declarations of its role, each told once; each leads from the type, over edges and meeting no type twice, to a
holder of a role of that name and target, which came to it as the trail says; what was given up is on one of these
trails, is held there with the bounds told, and is of another multiplicity.  All methods of a role have one provenance. -/
theorem provenance_of_methods (h : (g.reportOn o).methods? = some ms) (hm : m ∈ ms) :
    (∀ t, t ∈ m.provenance.trails ↔
      ∃ d ∈ (g.resolve o).navigable, d.role.name = m.role ∧ t ∈ d.provenance.trails) ∧
    m.provenance.Accurate g o m.role m.target m.multiplicity ∧
    ∀ n ∈ ms, n.role = m.role → n.provenance = m.provenance := by
  obtain ⟨d, ds, hf, htarget, hmul, hprov⟩ := exists_declarations_of_mem_methods? h hm
  have hmem : ∀ e, e ∈ d :: ds ↔ e ∈ (g.resolve o).navigable ∧ e.role.name = m.role := fun e => by
    rw [← hf, List.mem_filter, decide_eq_true_eq]
  obtain ⟨hd, hname⟩ := (hmem d).1 List.mem_cons_self
  -- the declarations of one name agree, so each is accurate for the role that the first one declares
  have haccurate : ∀ e ∈ d :: ds, e.provenance.Accurate g o m.role m.target m.multiplicity := fun e he => by
    obtain ⟨he, hename⟩ := (hmem e).1 he
    obtain ⟨htarget', hmul'⟩ := agrees_of_not_disputed (not_disputed_of_methods? h) hd he (hname.trans hename.symm)
    obtain ⟨⟨resolved, hres, hdecl⟩, -⟩ := mem_navigable.1 he
    rw [htarget, hmul, htarget', hmul', ← hename]
    exact accurate_of_mem_declarations hres hdecl
  refine ⟨fun t => ?_, ?_, fun n hn hrole => ?_⟩
  · rw [hprov, Provenance.mem_trails_foldl_merge, ← List.map_cons (f := Declaration.provenance)]
    constructor
    · rintro ⟨q, hq, ht⟩
      obtain ⟨e, he, rfl⟩ := List.mem_map.1 hq
      obtain ⟨he, hename⟩ := (hmem e).1 he
      exact ⟨e, he, hename, ht⟩
    · rintro ⟨e, he, hename, ht⟩
      exact ⟨_, List.mem_map_of_mem ((hmem e).2 ⟨he, hename⟩), ht⟩
  · rw [hprov]
    exact .foldl_merge _ (haccurate d List.mem_cons_self) (fun q hq => by
      obtain ⟨e, he, rfl⟩ := List.mem_map.1 hq
      exact haccurate e (List.mem_cons_of_mem _ he))
  · obtain ⟨d', ds', hf', -, -, hprov'⟩ := exists_declarations_of_mem_methods? h hn
    rw [hrole, hf] at hf'
    cases hf'
    rw [hprov, hprov']

end Graph

/-! ## An example -/

/-- A class that allows fewer partners than its superclass does. -/
def Source.club : Source :=
  (Source.empty.withDefinition
      (((Definition.draft .ofClass "Captain").withSupertype "Player").withRole "clubs" "Club" ⟨0, some 1⟩)
    |>.withDefinition ((Definition.draft .ofClass "Player").withRole "clubs" "Club" .any)
    |>.withDefinition (Definition.draft .ofClass "Club"))

def Graph.club : Graph := (Graph.ofSource .club).toOption.getD ⟨none, []⟩

/-- The getter tells both declarations, and that the superclass's one gave way. -/
theorem Graph.provenance_of_methods_club : ∃ ms, (club.reportOn ⟨0⟩).methods? = some ms ∧ ∃ m ∈ ms, m.kind = .get ∧
    m.provenance = ⟨[⟨[⟨0⟩], .declared⟩, ⟨[⟨0⟩, ⟨1⟩], .declared⟩], [⟨⟨[⟨0⟩, ⟨1⟩], .declared⟩, .any⟩]⟩ ∧
    m.provenance.Accurate club ⟨0⟩ "clubs" ⟨2⟩ .one := by
  have hms : (club.reportOn ⟨0⟩).methods? = some (club.reportOn ⟨0⟩).methods := rfl
  have hm : (club.reportOn ⟨0⟩).methods.head (by decide) ∈ (club.reportOn ⟨0⟩).methods := List.head_mem _
  exact ⟨_, hms, _, hm, rfl, rfl, (provenance_of_methods hms hm).2.1⟩

end Accessors
