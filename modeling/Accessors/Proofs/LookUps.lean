import Accessors.Proofs.Extension
import Accessors.Proofs.KeyIndex
/-!
# Every look-up finds what it is for

A graph that comes from a source speaks only of types that it has, and so does everything that is made of it: the paths
of a search, the resolved roles with their trails, the methods asked for, and those that merging keeps and reports.  So
whatever stands behind the last type of a graph, no report and no file would be another one.

Together with what the indices of groups and of methods tell, that is `Graph.lookUps_inRange`.
-/
namespace Accessors

/-! ## What speaks of types -/

section InRange

variable (n : Nat)

/-- All types that it speaks of are among the first `n`. -/
structure Role.InRange (r : Role) : Prop where
  target : r.target.index < n
  holder : r.holder.index < n
  origin : ∀ t, r.origin = .oppositeEnd t → t.index < n

structure TypeNode.InRange (node : TypeNode) : Prop where
  id : node.id.index < n
  parents : ∀ t ∈ node.heritage.parents, t.index < n
  roles : ∀ r ∈ node.roles, r.InRange n

structure Cycle.InRange (c : Cycle) : Prop where
  types : ∀ t ∈ c.types, t.index < n
  closedBy : c.closedBy.index < n

structure Ancestry.InRange (a : Ancestry) : Prop where
  paths : ∀ path ∈ a.paths, ∀ t ∈ path, t.index < n
  cycles : ∀ c ∈ a.cycles, c.InRange n

/-- A trail also has to lead somewhere. -/
structure Trail.InRange (t : Trail) : Prop where
  ne_nil : t.types ≠ []
  types : ∀ u ∈ t.types, u.index < n
  origin : ∀ u, t.origin = .oppositeEnd u → u.index < n

structure Candidate.InRange (c : Candidate) : Prop where
  role : c.role.InRange n
  trail : c.trail.InRange n

structure Provenance.InRange (p : Provenance) : Prop where
  trails : ∀ t ∈ p.trails, t.InRange n
  discarded : ∀ x ∈ p.discarded, x.trail.InRange n

structure Declaration.InRange (d : Declaration) : Prop where
  role : d.role.InRange n
  provenance : d.provenance.InRange n

/-- A resolved role also has a declaration. -/
structure ResolvedRole.InRange (r : ResolvedRole) : Prop where
  target : r.target.index < n
  ne_nil : r.declarations ≠ []
  declarations : ∀ d ∈ r.declarations, d.InRange n
  tieBreaks : ∀ t ∈ r.tieBreaks, t.kept.InRange n ∧ t.lost.InRange n

structure Resolution.InRange (r : Resolution) : Prop where
  owner : r.owner.index < n
  cycles : ∀ c ∈ r.cycles, c.InRange n
  roles : ∀ role ∈ r.roles, role.InRange n

namespace Method

def ValueShape.InRange : ValueShape → Prop
  | bool => True
  | one t | many t => t.index < n

structure InRange (m : Method) : Prop where
  owner : m.owner.index < n
  target : m.target.index < n
  params : ∀ v ∈ m.shape.params, v.InRange n
  returns : m.shape.returns.InRange n
  provenance : m.provenance.InRange n

structure Merged.InRange (m : Merged) : Prop where
  kept : ∀ k ∈ m.kept, k.InRange n
  conflicts : ∀ c ∈ m.conflicts, c.first.InRange n ∧ c.second.InRange n

end Method
end InRange

theorem index_lt_of_roomAt_eq {n : Nat} {t : TypeId} (h : roomAt n t = t) : t.index < n := by
  unfold roomAt at h
  split at h
  · assumption
  · have hindex := congrArg TypeId.index h
    dsimp only at hindex
    omega

/-- Where making room behind a graph moves nothing, nothing lies behind it. -/
theorem index_lt_of_map_roomAt_eq {n : Nat} {ts : List TypeId} (h : ts.map (roomAt n) = ts) : ∀ t ∈ ts, t.index < n :=
  fun _ ht => index_lt_of_roomAt_eq (List.map_inj_left.1 (h.trans (List.map_id _).symm) _ ht)

theorem Role.inRange_of_map_eq {n : Nat} {r : Role} (h : r.map (roomAt n) = r) : r.InRange n where
  target := index_lt_of_roomAt_eq (congrArg Role.target h)
  holder := index_lt_of_roomAt_eq (congrArg Role.holder h)
  origin t ht := by
    have horigin := congrArg Role.origin h
    unfold Role.map at horigin
    dsimp only at horigin
    rw [ht] at horigin
    exact index_lt_of_roomAt_eq (Origin.oppositeEnd.inj horigin)

theorem Cycle.inRange_of_map_eq {n : Nat} {c : Cycle} (h : c.map (roomAt n) = c) : c.InRange n where
  types := index_lt_of_map_roomAt_eq (congrArg Cycle.types h)
  closedBy := index_lt_of_roomAt_eq (congrArg Cycle.closedBy h)

/-! ## Provenances -/

namespace Provenance.InRange

variable {n : Nat} {p q : Provenance}

theorem ofTrail {t : Trail} (h : t.InRange n) : (Provenance.ofTrail t).InRange n where
  trails u hu := by
    rw [List.mem_singleton.1 hu]
    exact h
  discarded x hx := by cases hx

theorem merge (hp : p.InRange n) (hq : q.InRange n) : (p.merge q).InRange n where
  trails t ht := (mem_foldl_pushNew.1 ht).elim (hp.trails t) (hq.trails t)
  discarded x hx := (mem_foldl_pushNew.1 hx).elim (hp.discarded x) (hq.discarded x)

end Provenance.InRange

/-! ## Roles resolved -/

namespace Resolution

variable {n : Nat} {g : Graph} {o : TypeId}

theorem inRange_merged {kept : Candidate} {others : List Candidate} (h : ∀ c ∈ kept :: others, c.InRange n) :
    (merged kept others).1.InRange n where
  role := (h kept List.mem_cons_self).role
  provenance :=
    { trails t ht := by
        rw [trails_merged, mem_foldl_pushNew, List.mem_singleton, ← List.mem_cons, ← List.map_cons] at ht
        obtain ⟨c, hc, rfl⟩ := List.mem_map.1 ht
        exact (h c hc).trail
      discarded x hx := by
        obtain ⟨c, hc, rfl⟩ := List.mem_map.1 hx
        exact (h c (List.mem_cons_of_mem _ (List.mem_filter.1 hc).1)).trail }

theorem inRange_resolveRole {name : String} {target : TypeId} {cs : List Candidate} (ht : target.index < n)
    (hne : cs ≠ []) (h : ∀ c ∈ cs, c.InRange n) : (resolveRole g o name target cs).InRange n := by
  have hcontracts : ∀ d ∈ (cs.filter (isContract g o)).map contractDeclaration, d.InRange n := fun d hd => by
    obtain ⟨c, hc, rfl⟩ := List.mem_map.1 hd
    have hin := h c (List.mem_filter.1 hc).1
    exact ⟨hin.role, .ofTrail hin.trail⟩
  refine ⟨by rwa [target_resolveRole], declarations_resolveRole_ne_nil hne, ?_, ?_⟩
  · rw [declarations_resolveRole]
    intro d hd
    rcases List.mem_append.1 hd with hd | hd
    · cases hf : cs.filter (fun c => !isContract g o c) with
      | nil => rw [hf] at hd; cases hd
      | cons kept others =>
        rw [hf] at hd
        rw [List.mem_singleton.1 hd]
        exact inRange_merged (fun c hc => h c (List.mem_filter.1 (hf ▸ hc)).1)
    · exact hcontracts d hd
  · unfold resolveRole
    split
    · exact fun t ht => by cases ht
    · rename_i kept others hf
      have hfamily : ∀ c ∈ kept :: others, c.InRange n := fun c hc => h c (List.mem_filter.1 (hf ▸ hc)).1
      intro t ht
      obtain ⟨c, hc, rfl⟩ := List.mem_map.1 ht
      exact ⟨hfamily kept List.mem_cons_self, hfamily c (List.mem_cons_of_mem _ (List.mem_filter.1 hc).1)⟩

/-- **Where the candidates speak of types in range only**, so do the resolved roles. -/
theorem inRange_resolve (ho : o.index < n) (hcycles : ∀ c ∈ (g.ancestry o).cycles, c.InRange n)
    (h : ∀ c ∈ candidates g (g.ancestry o), c.InRange n) : (g.resolve o).InRange n where
  owner := ho
  cycles := hcycles
  roles role hrole := by
    rw [resolve_roles] at hrole
    obtain ⟨⟨name, target⟩, hk, rfl⟩ := List.mem_map.1 hrole
    obtain ⟨c, hc⟩ := mem_keys.1 hk
    obtain ⟨hmem, -, rfl⟩ := mem_group.1 hc
    exact inRange_resolveRole (h c hmem).role.target (List.ne_nil_of_mem hc) (fun x hx => h x (mem_group.1 hx).1)

end Resolution

/-! ## Methods merged -/

namespace Method

variable {n : Nat}

theorem inRange_shape {k : Kind} {m : Multiplicity} {target : TypeId} (h : target.index < n) :
    (∀ v ∈ (Shape.of k m target).params, v.InRange n) ∧ (Shape.of k m target).returns.InRange n := by
  have hone : ∀ v ∈ [ValueShape.one target], v.InRange n := fun v hv => by
    rw [List.mem_singleton.1 hv]
    exact h
  cases k with
  | get => cases m <;> exact ⟨fun v hv => (by cases hv), h⟩
  | set => exact ⟨hone, trivial⟩
  | add => exact ⟨hone, trivial⟩
  | remove => exact ⟨hone, trivial⟩

theorem inRange_of_mem_methods {r : Resolution} (h : r.InRange n) : ∀ m ∈ r.methods, m.InRange n := fun m hm => by
  obtain ⟨role, hrole, hm⟩ := List.mem_flatMap.1 hm
  obtain ⟨d, hd, hm⟩ := List.mem_flatMap.1 hm
  obtain ⟨kind, -, rfl⟩ := List.mem_map.1 hm
  have hin := (h.roles role hrole).declarations d hd
  obtain ⟨hparams, hreturns⟩ := inRange_shape (k := kind) (m := d.role.multiplicity) hin.role.target
  exact ⟨h.owner, hin.role.target, hparams, hreturns, hin.provenance⟩

namespace Merged

theorem InRange.add {acc : Merged} {m : Method} (h : acc.InRange n) (hm : m.InRange n) : (acc.add m).InRange n := by
  rcases add_cases acc m with ⟨-, he⟩ | ⟨k, hf, hcase⟩
  · rw [he]
    refine ⟨fun x hx => ?_, h.conflicts⟩
    rcases List.mem_append.1 hx with hx | hx
    · exact h.kept x hx
    · rw [List.mem_singleton.1 hx]
      exact hm
  · have hk := h.kept k (List.mem_of_find?_eq_some hf)
    rcases hcase with ⟨-, he⟩ | ⟨-, -, he⟩ | ⟨-, -, he⟩ <;> rw [he]
    · refine ⟨fun x hx => ?_, h.conflicts⟩
      obtain ⟨y, hy, rfl⟩ := List.mem_map.1 hx
      have hin := h.kept y hy
      split
      · exact { hin with provenance := hin.provenance.merge hm.provenance }
      · exact hin
    · exact h
    · refine ⟨h.kept, fun c hc => ?_⟩
      rcases List.mem_append.1 hc with hc | hc
      · exact h.conflicts c hc
      · rw [List.mem_singleton.1 hc]
        exact ⟨hk, hm⟩

theorem inRange_ofList {ms : List Method} (h : ∀ m ∈ ms, m.InRange n) : (ofList ms).InRange n := by
  induction ms using List.reverseRecOn with
  | nil => exact ⟨fun k hk => (by cases hk), fun c hc => (by cases hc)⟩
  | append_singleton ms m ih =>
    rw [ofList_concat]
    exact (ih (fun x hx => h x (List.mem_append_left _ hx))).add (h m (List.mem_append_right _ List.mem_cons_self))

end Merged

/-- **Merging speaks of no other types** than the methods do that are merged. -/
theorem inRange_merge {order : List String} {ms : List Method} (h : ∀ m ∈ ms, m.InRange n) :
    (merge order ms).InRange n where
  kept k hk := (Merged.inRange_ofList h).kept k (List.mem_filter.1 ((perm_arrange _ _).mem_iff.1 hk)).1
  conflicts := (Merged.inRange_ofList h).conflicts

end Method

/-! ## Graphs -/

/-- Moves all types from the place `n` on by `k` places. -/
def movedFrom (n k : Nat) (t : TypeId) : TypeId := if t.index < n then t else ⟨t.index + k⟩

theorem movedFrom_of_lt {n k : Nat} {t : TypeId} (h : t.index < n) : movedFrom n k t = t := if_pos h

theorem movedFrom_injective (n k : Nat) : Function.Injective (movedFrom n k) := fun t u h => by
  unfold movedFrom at h
  cases t
  cases u
  split at h <;> split at h <;> simp_all <;> omega

section Fixed

variable {f : TypeId → TypeId} {n : Nat} (hf : ∀ t : TypeId, t.index < n → f t = t)

theorem Heritage.map_eq_self {f : TypeId → TypeId} {her : Heritage} (h : ∀ t ∈ her.parents, f t = t) :
    her.map f = her := by
  cases her with
  | ofClass superclass interfaces =>
    have hsuper : superclass.map f = superclass := by
      cases superclass with
      | none => rfl
      | some t => exact congrArg some (h t List.mem_cons_self)
    have hinterfaces : interfaces.map f = interfaces :=
      (List.map_congr_left (fun t ht => h t (List.mem_append_right _ ht))).trans (List.map_id _)
    exact congrArg₂ Heritage.ofClass hsuper hinterfaces
  | ofInterface extended => exact congrArg Heritage.ofInterface ((List.map_congr_left h).trans (List.map_id _))

include hf

theorem Role.map_eq_self {r : Role} (h : r.InRange n) : r.map f = r := by
  have horigin : r.origin.map f = r.origin := by
    cases ho : r.origin with
    | declared => rfl
    | oppositeEnd t => exact congrArg Origin.oppositeEnd (hf t (h.origin t ho))
  unfold Role.map
  rw [hf _ h.target, hf _ h.holder, horigin]

theorem TypeNode.map_eq_self {node : TypeNode} (h : node.InRange n) : node.map f = node := by
  have hroles : node.roles.map (Role.map f) = node.roles :=
    (List.map_congr_left (fun r hr => Role.map_eq_self hf (h.roles r hr))).trans (List.map_id _)
  unfold TypeNode.map
  rw [Heritage.map_eq_self (fun t ht => hf t (h.parents t ht)), hroles, hf node.id h.id]

end Fixed

namespace Graph

theorem within_of_node?_eq {f : TypeId → TypeId} {g g' : Graph} (hf : Function.Injective f)
    (h : ∀ t, g'.node? (f t) = (g.node? t).map (TypeNode.map f)) : g.Within f g' where
  injective := hf
  node?_eq := h
  parents_eq t := by
    unfold parents
    rw [h]
    cases g.node? t with
    | none => rfl
    | some n => exact Heritage.parents_map n.heritage
  isClass_eq t := by
    unfold isClass
    rw [h]
    cases g.node? t with
    | none => rfl
    | some n => exact Heritage.isClass_map n.heritage
  isInterface_eq t := by
    unfold isInterface
    rw [h]
    cases g.node? t with
    | none => rfl
    | some n => exact congrArg (! ·) (Heritage.isClass_map n.heritage)
  roles_eq t target := by
    unfold roles
    rw [h]
    cases g.node? t with
    | none => rfl
    | some n => exact filter_map_of_mem (fun r _ => decide_eq_decide.2 hf.eq_iff)

/-- **A graph that speaks of no types behind it is within any longer one.** -/
theorem within_of_prefix {g g' : Graph} (h : ∀ n ∈ g.types, n.InRange g.size) (hbegins : g.types <+: g'.types) {k : Nat}
    (hk : g'.size ≤ g.size + k) : g.Within (movedFrom g.size k) g' := by
  refine within_of_node?_eq (movedFrom_injective _ _) (fun t => ?_)
  unfold node?
  by_cases ht : t.index < g.size
  · obtain ⟨more, hmore⟩ := hbegins
    obtain ⟨n, hn⟩ : ∃ n, g.types[t.index]? = some n := ⟨_, List.getElem?_eq_getElem ht⟩
    have hself := TypeNode.map_eq_self (fun u hu => movedFrom_of_lt (k := k) hu) (h n (List.mem_of_getElem? hn))
    rw [movedFrom_of_lt ht, ← hmore, List.getElem?_append_left ht, hn, Option.map_some, hself]
  · have hout : g.types[t.index]? = none := List.getElem?_eq_none_iff.2 (Nat.not_lt.1 ht)
    have hout' : g'.types[(movedFrom g.size k t).index]? = none := by
      unfold movedFrom
      rw [if_neg ht, List.getElem?_eq_none_iff]
      show g'.size ≤ t.index + k
      omega
    rw [hout, hout']
    rfl

section Linked

variable {s : Source} {g : Graph} (h : ofSource s = .ok g)

include h

/-- **The types of a graph** speak of types of the graph. -/
theorem inRange_of_mem_types : ∀ n ∈ g.types, n.InRange g.size := fun n hn => by
  obtain ⟨i, hi⟩ := List.mem_iff_getElem?.1 hn
  have hlt : i < g.size := (List.getElem?_eq_some_iff.1 hi).1
  have hfixed := (within_self h).node?_eq ⟨i⟩
  have hnode : g.node? ⟨i⟩ = some n := hi
  rw [roomAt_of_lt hlt, hnode, Option.map_some, Option.some.injEq] at hfixed
  have hid : n.id = roomAt g.size n.id := congrArg TypeNode.id hfixed
  have hheritage : n.heritage = n.heritage.map (roomAt g.size) := congrArg TypeNode.heritage hfixed
  have hroles : n.roles = n.roles.map (Role.map (roomAt g.size)) := congrArg TypeNode.roles hfixed
  refine ⟨index_lt_of_roomAt_eq hid.symm, index_lt_of_map_roomAt_eq ?_, fun r hr => ?_⟩
  · rw [← Heritage.parents_map, ← hheritage]
  · exact Role.inRange_of_map_eq (List.map_inj_left.1 (hroles.symm.trans (List.map_id _).symm) r hr)

variable {o : TypeId} (ho : o.index < g.size)

include ho

theorem inRange_ancestry : (g.ancestry o).InRange g.size := by
  have hwithin := within_self h
  have hfixed := ancestry_map hwithin.injective hwithin.parents_eq o
  rw [roomAt_of_lt ho] at hfixed
  have hpaths := congrArg Ancestry.paths hfixed
  have hcycles := congrArg Ancestry.cycles hfixed
  refine ⟨fun path hpath => index_lt_of_map_roomAt_eq ?_, fun c hc => Cycle.inRange_of_map_eq ?_⟩
  · exact List.map_inj_left.1 (hpaths.symm.trans (List.map_id _).symm) path hpath
  · exact List.map_inj_left.1 (hcycles.symm.trans (List.map_id _).symm) c hc

/-- **A candidate** is a role and a trail in range. -/
theorem inRange_of_mem_candidates : ∀ c ∈ Resolution.candidates g (g.ancestry o), c.InRange g.size := fun c hc => by
  obtain ⟨t, path, hpath, hp, hr, htrail⟩ := Resolution.mem_candidates hc
  obtain ⟨n, hn, hr⟩ := mem_roles.1 hr
  have hrole := (inRange_of_mem_types h n (List.mem_of_getElem? hn)).roles c.role hr
  rw [show c = ⟨c.role, ⟨path, c.role.origin⟩⟩ by rw [← htrail]]
  refine ⟨hrole, fun hnil => ?_, (inRange_ancestry h ho).paths path hpath, hrole.origin⟩
  have hends := hp.ends
  dsimp only at hnil
  rw [hnil] at hends
  cases hends

end Linked

/-- **What stands behind a graph is never looked at.** -/
theorem report_eq_of_prefix {s : Source} {g g' : Graph} (h : ofSource s = .ok g)
    (hnamespace : g'.namespaceName = g.namespaceName) (hbegins : g.types <+: g'.types) {o : TypeId}
    (ho : o.index < g.size) : g'.reportOn o = g.reportOn o ∧
      ∀ b : Backend, b.emitReport g' (g.reportOn o) = b.emitReport g (g.reportOn o) := by
  have hin := inRange_of_mem_types h
  have hwithin := within_of_prefix hin hbegins (k := g'.size) (Nat.le_add_left _ _)
  have hself := within_of_prefix hin List.prefix_rfl (k := g'.size) (Nat.le_add_right _ _)
  have hfixed : movedFrom g.size g'.size o = o := movedFrom_of_lt ho
  exact ⟨hwithin.reportOn_eq_of_fixed hself hfixed,
    fun b => hwithin.emitReport_eq_of_fixed hself hfixed hnamespace b⟩

open Resolution Method

/-- What keeps all look-ups on the way from a type to its report and its files inside the graph.  Ids are looked up that
something made on that way speaks of; places are looked up that an index tells, whichever candidates have been put into
groups so far and whichever methods have been merged. -/
structure LooksInside (g : Graph) (o : TypeId) : Prop where
  ancestry : (g.ancestry o).InRange g.size
  candidates : ∀ c ∈ candidates g (g.ancestry o), c.InRange g.size
  resolution : (g.resolve o).InRange g.size
  methods : ∀ m ∈ (g.resolve o).methods, m.InRange g.size
  merged : (merge (g.resolve o).roleOrder (g.resolve o).methods).InRange g.size
  reported : ∀ ms, (g.reportOn o).methods? = some ms → ∀ m ∈ ms, m.InRange g.size
  unaffected : ∀ g' : Graph, g'.namespaceName = g.namespaceName → g.types <+: g'.types →
    g'.reportOn o = g.reportOn o ∧ ∀ b : Backend, b.emitReport g' (g.reportOn o) = b.emitReport g (g.reportOn o)
  grouping : ∀ cs, cs <+: Resolution.candidates g (g.ancestry o) → ∃ st, Groups.ofCandidates cs = some st ∧ st.Sound
  grouped : ∃ st, Groups.ofCandidates (Resolution.candidates g (g.ancestry o)) = some st ∧
    st.groups.map (resolveGroup? g o) = (g.resolve o).roles.map some
  keeping : ∀ ms, ms <+: (g.resolve o).methods → ∃ st, Keeping.ofMethods ms = some st ∧ st.Sound
  kept : ∃ st, Keeping.ofMethods (g.resolve o).methods = some st ∧
    merge (g.resolve o).roleOrder (g.resolve o).methods = st.arranged (g.resolve o).roleOrder

/-- **Every look-up finds what it is for.**  The types of a graph that comes from a source speak of types of the graph
only, and so does, for each of them, whatever is made of it on the way to its report and its files; every trail leads
somewhere, and every resolved role has a declaration.  The report and the files are the same whatever types stand behind
those of the graph.  And wherever a place is told for a key, it is there, and what stands at it has that very key. -/
theorem lookUps_inRange {s : Source} {g : Graph} (h : ofSource s = .ok g) :
    (∀ n ∈ g.types, n.InRange g.size) ∧ ∀ o ∈ g.ids, g.LooksInside o := by
  refine ⟨inRange_of_mem_types h, fun o hmem => ?_⟩
  obtain ⟨n, hn, rfl⟩ := List.mem_map.1 hmem
  have ho : n.id.index < g.size := (inRange_of_mem_types h n hn).id
  have hancestry := inRange_ancestry h ho
  have hcandidates := inRange_of_mem_candidates h ho
  have hresolve := inRange_resolve ho hancestry.cycles hcandidates
  have hmethods := inRange_of_mem_methods hresolve
  have hmerged : (merge (g.resolve n.id).roleOrder (g.resolve n.id).methods).InRange g.size := inRange_merge hmethods
  exact {
    ancestry := hancestry
    candidates := hcandidates
    resolution := hresolve
    methods := hmethods
    merged := hmerged
    reported := fun ms hms m hm => by
      rw [methods?_reportOn_eq_ite] at hms
      split at hms
      · rw [Option.some.injEq] at hms
        exact hmerged.kept m (hms ▸ hm)
      · cases hms
    unaffected := fun g' hnamespace hbegins => report_eq_of_prefix h hnamespace hbegins ho
    grouping := fun cs _ => ⟨_, Groups.ofCandidates_eq cs, Groups.sound_of_ofCandidates (Groups.ofCandidates_eq cs)⟩
    grouped := ⟨_, Groups.ofCandidates_eq _, map_resolveGroup? g n.id⟩
    keeping := fun ms _ => ⟨_, Keeping.ofMethods_eq ms, Keeping.sound_of_ofMethods (Keeping.ofMethods_eq ms)⟩
    kept := ⟨_, Keeping.ofMethods_eq _, Keeping.merge_eq_arranged _ _⟩ }

/-- The look-ups for the student of the enrolment, whose superclass and interfaces have one role in common. -/
theorem lookUps_inRange_enrolment : ofSource .enrolment = .ok enrolment ∧ (⟨3⟩ : TypeId) ∈ enrolment.ids ∧
    enrolment.LooksInside ⟨3⟩ :=
  ⟨ofSource_enrolment, by decide, (lookUps_inRange ofSource_enrolment).2 ⟨3⟩ (by decide)⟩

end Graph
end Accessors
