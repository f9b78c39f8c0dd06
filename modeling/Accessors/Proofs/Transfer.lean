import Accessors.Proofs.MergeMaps
/-!
# The same association seen from elsewhere

What is made of the candidates of an owner depends on types and trails only through which of them are equal.  A
`Transfer` takes types and trails to others, no two of them to one.  Resolving roles, asking for methods and merging
these then give the same as before with everything taken over (`Transfer.resolveRole_candidates`,
`Transfer.merge_methods`).
-/
namespace Accessors

/-! ## Types taken to others -/

def Origin.map (f : TypeId → TypeId) : Origin → Origin
  | .declared => .declared
  | .oppositeEnd writtenIn => .oppositeEnd (f writtenIn)

def Role.map (f : TypeId → TypeId) (r : Role) : Role :=
  { r with target := f r.target, holder := f r.holder, origin := r.origin.map f }

def Trail.map (f : TypeId → TypeId) (t : Trail) : Trail := ⟨t.types.map f, t.origin.map f⟩

theorem Origin.map_injective {f : TypeId → TypeId} (hf : Function.Injective f) : Function.Injective (Origin.map f) :=
  fun o o' h => by cases o <;> cases o' <;> simp_all [Origin.map, hf.eq_iff]

theorem Trail.map_injective {f : TypeId → TypeId} (hf : Function.Injective f) : Function.Injective (Trail.map f) :=
  fun t u h => by
    obtain ⟨htypes, horigin⟩ := Trail.mk.inj h
    exact congrArg₂ Trail.mk (List.map_injective_iff.2 hf htypes) (Origin.map_injective hf horigin)

/-- What types and trails are taken to.  The owner of methods may go another way than their targets do. -/
structure Transfer where
  owner : TypeId → TypeId
  type : TypeId → TypeId
  trail : Trail → Trail
  owner_injective : Function.Injective owner
  type_injective : Function.Injective type
  trail_injective : Function.Injective trail

section PushNew

variable {α β : Type} [DecidableEq α] [DecidableEq β] {f : α → β} (hf : Function.Injective f)

include hf

theorem pushNew_map (l : List α) (a : α) : pushNew (l.map f) (f a) = (pushNew l a).map f := by
  have hmem : f a ∈ l.map f ↔ a ∈ l := List.mem_map_of_injective hf
  unfold pushNew
  by_cases h : a ∈ l
  · rw [if_pos h, if_pos (hmem.2 h)]
  · rw [if_neg h, if_neg (fun hm => h (hmem.1 hm)), List.map_append, List.map_singleton]

theorem foldl_pushNew_map : ∀ (xs l : List α), (xs.map f).foldl pushNew (l.map f) = (xs.foldl pushNew l).map f
  | [], _ => rfl
  | a :: xs, l => by
    rw [List.map_cons, List.foldl_cons, List.foldl_cons, pushNew_map hf, foldl_pushNew_map xs]

end PushNew

namespace Transfer

variable (f : Transfer)

/-! ## What is taken over -/

def candidate (c : Candidate) : Candidate := ⟨c.role.map f.type, f.trail c.trail⟩

def discarded (d : Discarded) : Discarded := ⟨f.trail d.trail, d.bounds⟩

def provenance (p : Provenance) : Provenance := ⟨p.trails.map f.trail, p.discarded.map f.discarded⟩

def declaration (d : Declaration) : Declaration := ⟨d.role.map f.type, f.provenance d.provenance, d.isContract⟩

def tieBreak (t : TieBreak) : TieBreak := ⟨f.candidate t.kept, f.candidate t.lost⟩

def resolvedRole (r : ResolvedRole) : ResolvedRole :=
  ⟨r.name, f.type r.target, r.declarations.map f.declaration, r.tieBreaks.map f.tieBreak⟩

def valueShape : Method.ValueShape → Method.ValueShape
  | .bool => .bool
  | .one t => .one (f.type t)
  | .many t => .many (f.type t)

def shape (s : Method.Shape) : Method.Shape := ⟨s.params.map f.valueShape, f.valueShape s.returns⟩

def key (k : Method.Key) : Method.Key := { k with owner := f.owner k.owner }

def method (m : Method) : Method :=
  { m with
    owner := f.owner m.owner
    target := f.type m.target
    shape := f.shape m.shape
    provenance := f.provenance m.provenance }

def merged (m : Method.Merged) : Method.Merged :=
  ⟨m.kept.map f.method, m.conflicts.map fun c => ⟨f.method c.first, f.method c.second⟩⟩

variable {f}

theorem discarded_injective : Function.Injective f.discarded := fun d e h => by
  obtain ⟨ht, hb⟩ := Discarded.mk.inj h
  exact congrArg₂ Discarded.mk (f.trail_injective ht) hb

theorem valueShape_injective : Function.Injective f.valueShape := fun s s' h => by
  cases s <;> cases s' <;> simp_all [valueShape, f.type_injective.eq_iff]

theorem shape_injective : Function.Injective f.shape := fun s s' h => by
  obtain ⟨hp, hr⟩ := Method.Shape.mk.inj h
  exact congrArg₂ Method.Shape.mk (List.map_injective_iff.2 valueShape_injective hp) (valueShape_injective hr)

theorem key_injective : Function.Injective f.key := fun k l h => by
  obtain ⟨ho, hr, hk⟩ := Method.Key.mk.inj h
  cases k
  cases l
  exact Method.Key.mk.injEq .. ▸ ⟨f.owner_injective ho, hr, hk⟩

@[simp] theorem key_method (m : Method) : (f.method m).key = f.key m.key := rfl

/-! ## Resolving roles -/

section Resolving

open Resolution

theorem group_candidates (cs : List Candidate) (name : String) (target : TypeId) :
    group (cs.map f.candidate) name (f.type target) = (group cs name target).map f.candidate := by
  refine filter_map_of_mem (fun c _ => ?_)
  have htarget : decide (f.type c.role.target = f.type target) = decide (c.role.target = target) :=
    decide_eq_decide.2 f.type_injective.eq_iff
  exact congrArg (decide (c.role.name = name) && ·) htarget

theorem keys_candidates (cs : List Candidate) :
    keys (cs.map f.candidate) = (keys cs).map fun k => (k.1, f.type k.2) := by
  have hinj : Function.Injective fun k : String × TypeId => (k.1, f.type k.2) := fun k l h => by
    obtain ⟨hn, ht⟩ := Prod.mk.inj h
    exact Prod.ext hn (f.type_injective ht)
  have hkeys := eraseDups_map hinj (cs.map fun c => (c.role.name, c.role.target))
  rw [List.map_map] at hkeys
  unfold keys
  rw [← hkeys, List.map_map]
  rfl

theorem merged_candidates (kept : Candidate) (others : List Candidate) :
    Resolution.merged (f.candidate kept) (others.map f.candidate) =
      (f.declaration (Resolution.merged kept others).1, (Resolution.merged kept others).2.map f.tieBreak) := by
  have htrails : (others.map f.candidate).foldl (fun trails c => pushNew trails c.trail) [(f.candidate kept).trail] =
      (others.foldl (fun trails c => pushNew trails c.trail) [kept.trail]).map f.trail := by
    have hfold := foldl_pushNew_map f.trail_injective (others.map Candidate.trail) [kept.trail]
    rw [List.map_map, List.foldl_map, List.foldl_map] at hfold
    rw [List.foldl_map]
    exact hfold
  have hlost : (others.map f.candidate).filter
      (fun c => c.role.multiplicity ≠ (f.candidate kept).role.multiplicity) =
        (others.filter fun c => c.role.multiplicity ≠ kept.role.multiplicity).map f.candidate :=
    filter_map_of_mem (fun _ _ => rfl)
  unfold Resolution.merged
  simp only [htrails, hlost, List.map_map]
  simp only [declaration, provenance, List.map_map]
  rfl

/-- **One association resolved from candidates taken over** is the association taken over, if they are contracts as
they were. -/
theorem resolveRole_candidates {g g' : Graph} {o o' : TypeId} {cs : List Candidate}
    (hcon : ∀ c ∈ cs, isContract g' o' (f.candidate c) = isContract g o c) (name : String) (target : TypeId) :
    resolveRole g' o' name (f.type target) (cs.map f.candidate) = f.resolvedRole (resolveRole g o name target cs) := by
  have hcontracts : (cs.map f.candidate).filter (isContract g' o') = (cs.filter (isContract g o)).map f.candidate :=
    filter_map_of_mem hcon
  have hfamily : (cs.map f.candidate).filter (fun c => !isContract g' o' c) =
      (cs.filter fun c => !isContract g o c).map f.candidate :=
    filter_map_of_mem (fun c hc => congrArg not (hcon c hc))
  unfold resolveRole
  rw [hcontracts, hfamily]
  cases cs.filter fun c => !isContract g o c with
  | nil => simp [resolvedRole, declaration, candidate, provenance, Provenance.ofTrail]
  | cons kept others =>
    simp only [List.map_cons, merged_candidates]
    simp [resolvedRole, declaration, candidate, provenance, Provenance.ofTrail]

end Resolving

/-! ## Methods -/

theorem provenance_merge (p q : Provenance) :
    f.provenance (p.merge q) = (f.provenance p).merge (f.provenance q) := by
  unfold Provenance.merge provenance
  rw [foldl_pushNew_map f.trail_injective, foldl_pushNew_map discarded_injective]

theorem provenance_foldl_merge : ∀ (qs : List Provenance) (p : Provenance),
    f.provenance (qs.foldl Provenance.merge p) = (qs.map f.provenance).foldl Provenance.merge (f.provenance p)
  | [], _ => rfl
  | q :: qs, p => by
    rw [List.foldl_cons, provenance_foldl_merge qs, provenance_merge]
    rfl

theorem shape_of (k : Method.Kind) (m : Multiplicity) (t : TypeId) :
    f.shape (.of k m t) = .of k m (f.type t) := by
  cases k <;> cases m <;> rfl

theorem method_declaration (o : TypeId) (d : Declaration) (k : Method.Kind) :
    (f.declaration d).method (f.owner o) k = f.method (d.method o k) := by
  unfold Declaration.method method
  simp only [shape_of]
  rfl

theorem methods_declaration (o : TypeId) (d : Declaration) :
    (f.declaration d).methods (f.owner o) = (d.methods o).map f.method := by
  rw [Declaration.methods_eq, Declaration.methods_eq, List.map_map]
  exact List.map_congr_left (fun k _ => method_declaration o d k)

theorem ofDeclarations_declarations (o : TypeId) (ds : List Declaration) :
    Method.ofDeclarations (f.owner o) (ds.map f.declaration) = (Method.ofDeclarations o ds).map f.method := by
  unfold Method.ofDeclarations
  rw [List.flatMap_map, List.map_flatMap]
  exact List.flatMap_congr (fun d _ => methods_declaration o d)

theorem navigable_resolvedRoles (rs : List ResolvedRole) :
    ((rs.map f.resolvedRole).flatMap ResolvedRole.declarations).filter (·.role.navigable) =
      ((rs.flatMap ResolvedRole.declarations).filter (·.role.navigable)).map f.declaration := by
  have hall : (rs.map f.resolvedRole).flatMap ResolvedRole.declarations =
      (rs.flatMap ResolvedRole.declarations).map f.declaration := by
    rw [List.flatMap_map, List.map_flatMap]
    rfl
  rw [hall]
  exact filter_map_of_mem (fun _ _ => rfl)

theorem tieBreaks_resolvedRole (r : ResolvedRole) :
    (f.resolvedRole r).tieBreaks.map (·.kept.role.name) = r.tieBreaks.map (·.kept.role.name) := List.map_map

theorem agrees_declaration (d e : Declaration) : (f.declaration d).Agrees (f.declaration e) ↔ d.Agrees e :=
  and_congr_left' f.type_injective.eq_iff

/-- The methods that declarations of one role ask for are taken over with them. -/
theorem block_declarations (o : TypeId) (ds : List Declaration) :
    Method.block (f.owner o) (ds.map f.declaration) = (Method.block o ds).map f.method := by
  cases ds with
  | nil => rfl
  | cons d ds =>
    have hprov : (ds.map f.declaration).map Declaration.provenance = (ds.map Declaration.provenance).map f.provenance := by
      rw [List.map_map, List.map_map]
      rfl
    rw [List.map_cons, Method.block_cons, Method.block_cons, hprov]
    refine (List.map_congr_left (fun k _ => ?_)).trans List.map_map.symm
    show { (f.declaration d).method (f.owner o) k with
      provenance := ((ds.map Declaration.provenance).map f.provenance).foldl Provenance.merge (f.provenance d.provenance) } = _
    rw [method_declaration, ← provenance_foldl_merge]
    rfl

/-! ## Merging -/

open Method (merge)
open Method.Merged (ofList)

theorem steady_method : Method.Steady f.method where
  key_iff m n := (key_injective (f := f)).eq_iff (a := m.key) (b := n.key)
  shape_iff m n := (shape_injective (f := f)).eq_iff (a := m.shape) (b := n.shape)
  role_eq _ := rfl
  kind_eq _ := rfl
  merge_eq k _ := congrArg (fun p => { f.method k with provenance := p }) (provenance_merge ..)

theorem conflicted_merged (acc : Method.Merged) : (f.merged acc).conflicted = acc.conflicted :=
  steady_method.conflicted_map acc

theorem kept_merged (acc : Method.Merged) : (f.merged acc).kept = acc.kept.map f.method := rfl

theorem conflicts_merged (acc : Method.Merged) :
    (f.merged acc).conflicts = acc.conflicts.map fun c => ⟨f.method c.first, f.method c.second⟩ := rfl

theorem isClean_merged (acc : Method.Merged) : (f.merged acc).isClean = acc.isClean := List.isEmpty_map

theorem ofList_methods (ms : List Method) : ofList (ms.map f.method) = f.merged (ofList ms) :=
  steady_method.ofList_map ms

/-- **Methods taken over are merged as they were.** -/
theorem merge_methods (order : List String) (ms : List Method) :
    merge order (ms.map f.method) = f.merged (merge order ms) := steady_method.merge_map order ms

/-! ## Types for which the same is found -/

section Resolve

open Resolution

variable {g g' : Graph} {o o' : TypeId}

/-- **Where the candidates are taken over, so are the resolved roles.** -/
theorem roles_resolve (hcandidates : candidates g' (g'.ancestry o') = (candidates g (g.ancestry o)).map f.candidate)
    (hcon : ∀ c, isContract g' o' (f.candidate c) = isContract g o c) :
    (g'.resolve o').roles = (g.resolve o).roles.map f.resolvedRole := by
  rw [resolve_roles, resolve_roles, hcandidates, keys_candidates, List.map_map, List.map_map]
  refine List.map_congr_left (fun k _ => ?_)
  rw [Function.comp_apply, group_candidates]
  exact resolveRole_candidates (fun c _ => hcon c) k.1 k.2

variable (hroles : (g'.resolve o').roles = (g.resolve o).roles.map f.resolvedRole) (ho : o' = f.owner o)

include hroles

theorem roleOrder_resolve : (g'.resolve o').roleOrder = (g.resolve o).roleOrder := by
  unfold roleOrder
  rw [hroles, List.map_map]
  rfl

theorem tieBreaks_resolve : ((g'.resolve o').roles.flatMap fun role => role.tieBreaks.map (·.kept.role.name)) =
    (g.resolve o).roles.flatMap fun role => role.tieBreaks.map (·.kept.role.name) := by
  rw [hroles, List.flatMap_map]
  exact List.flatMap_congr (fun role _ => tieBreaks_resolvedRole role)

include ho

theorem methods_resolve : (g'.resolve o').methods = (g.resolve o).methods.map f.method := by
  have howner : (g'.resolve o').owner = f.owner (g.resolve o).owner := ho
  have hnavigable : (g'.resolve o').navigable = (g.resolve o).navigable.map f.declaration := by
    unfold navigable
    rw [hroles, navigable_resolvedRoles]
  rw [methods_eq, methods_eq, hnavigable, howner, ofDeclarations_declarations]

theorem merge_resolve : merge (g'.resolve o').roleOrder (g'.resolve o').methods =
    f.merged (merge (g.resolve o).roleOrder (g.resolve o).methods) := by
  rw [roleOrder_resolve hroles, methods_resolve hroles ho, merge_methods]

theorem methods?_reportOn : (g'.reportOn o').methods? = (g.reportOn o).methods?.map (List.map f.method) := by
  rw [Graph.methods?_reportOn_eq_ite, Graph.methods?_reportOn_eq_ite, merge_resolve hroles ho, isClean_merged,
    kept_merged, apply_ite (Option.map _), Option.map_some, Option.map_none]

end Resolve

end Transfer
end Accessors
