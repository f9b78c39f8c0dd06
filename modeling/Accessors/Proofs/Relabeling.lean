import Accessors.Proofs.Preorder
import Accessors.Proofs.Transfer
/-!
# Graphs whose types are taken to others

Where the types of a graph are taken to types of another one, no two of them to one, and edges go along, a search goes
the same way (`Graph.ancestry_map`).  That the roles of each type go along as well need be so for one target at a time
only: then each association is resolved as it was (`Graph.Relabels.resolveRole_group`), although the associations may
come in another order.
-/
namespace Accessors

variable {f : TypeId → TypeId}

/-! ## What a search has seen -/

def Cycle.map (f : TypeId → TypeId) (c : Cycle) : Cycle := ⟨c.types.map f, f c.closedBy⟩

namespace Ancestry

def map (f : TypeId → TypeId) (a : Ancestry) : Ancestry := ⟨a.paths.map (List.map f), a.cycles.map (Cycle.map f)⟩

theorem entered_map (a : Ancestry) : (a.map f).entered = a.entered.map f := by
  unfold entered map
  rw [List.filterMap_map, List.map_filterMap]
  exact List.filterMap_congr (fun path _ => List.getLast?_map)

theorem enter_map (a : Ancestry) (path : List TypeId) : (a.map f).enter (path.map f) = (a.enter path).map f := by
  unfold enter map
  rw [List.map_append, List.map_singleton]

theorem note_map (a : Ancestry) (c : Cycle) : (a.map f).note (c.map f) = (a.note c).map f := by
  unfold note map
  rw [List.map_append, List.map_singleton]

end Ancestry

namespace Graph

section Search

variable {g g' : Graph} (hf : Function.Injective f)

include hf

theorem follow_map {depth : Nat} {path : List TypeId} {parent : TypeId}
    (hsearch : ∀ a : Ancestry, g'.search depth (path.map f) (f parent) (a.map f) = (g.search depth path parent a).map f)
    (t : TypeId) (a : Ancestry) :
    g'.follow depth (path.map f) (f t) (a.map f) (f parent) = (g.follow depth path t a parent).map f := by
  have hpath : f parent ∈ path.map f ↔ parent ∈ path := List.mem_map_of_injective hf
  have hentered : f parent ∈ (a.map f).entered ↔ parent ∈ a.entered := by
    rw [Ancestry.entered_map]
    exact List.mem_map_of_injective hf
  have hround : (path.map f).dropWhile (· ≠ f parent) ++ [f parent] =
      (path.dropWhile (· ≠ parent) ++ [parent]).map f := by
    have hne : ((fun x => decide (x ≠ f parent)) ∘ f) = fun x => decide (x ≠ parent) :=
      funext (fun x => decide_eq_decide.2 hf.ne_iff)
    rw [List.dropWhile_map, hne, List.map_append, List.map_singleton]
  unfold follow
  by_cases hp : parent ∈ path
  · rw [if_pos hp, if_pos (hpath.2 hp), hround]
    exact Ancestry.note_map a ⟨_, t⟩
  · rw [if_neg hp, if_neg (fun hm => hp (hpath.1 hm))]
    by_cases hin : parent ∈ a.entered
    · rw [if_pos hin, if_pos (hentered.2 hin)]
    · rw [if_neg hin, if_neg (fun hm => hin (hentered.1 hm)), hsearch a]

variable (hparents : ∀ t, g'.parents (f t) = (g.parents t).map f)

include hparents

/-- **A search goes along with the edges.** -/
theorem search_map : ∀ (depth : Nat) (above : List TypeId) (t : TypeId) (a : Ancestry),
    g'.search depth (above.map f) (f t) (a.map f) = (g.search depth above t a).map f
  | 0, _, _, _ => rfl
  | depth + 1, above, t, a => by
    have hpath : above.map f ++ [f t] = (above ++ [t]).map f := by rw [List.map_append, List.map_singleton]
    rw [search_succ, search_succ, hpath, hparents, Ancestry.enter_map, List.foldl_map]
    exact List.foldl_hom (Ancestry.map f) (fun b parent =>
      follow_map hf (fun b => search_map depth (above ++ [t]) parent b) t b)

/-- **Up from a type** there is what was above it. -/
theorem ancestry_map (o : TypeId) : g'.ancestry (f o) = (g.ancestry o).map f := by
  have hdepth := search_depth g o (g.size + 1) (g.size + g'.size + 1) [] o ⟨[], []⟩ (IsPath.single g o)
    (by rw [List.length_nil]; omega) (by rw [List.length_nil]; omega)
  have hdepth' := search_depth g' (f o) (g'.size + 1) (g.size + g'.size + 1) [] (f o) ⟨[], []⟩ (IsPath.single g' (f o))
    (by rw [List.length_nil]; omega) (by rw [List.length_nil]; omega)
  -- each graph is searched as deep as both of them together need
  unfold ancestry
  rw [hdepth, hdepth']
  exact search_map hf hparents (g.size + g'.size + 1) [] o ⟨[], []⟩

end Search

/-! ## What is resolved -/

/-- The types of `g` are taken to types of `g'`, with their edges and their roles; roles of different targets may come in
another order. -/
structure Relabels (f : TypeId → TypeId) (g g' : Graph) : Prop where
  injective : Function.Injective f
  parents_eq : ∀ t, g'.parents (f t) = (g.parents t).map f
  isClass_eq : ∀ t, g'.isClass (f t) = g.isClass t
  isInterface_eq : ∀ t, g'.isInterface (f t) = g.isInterface t
  roles_eq : ∀ t target, (g'.roles (f t)).filter (·.target = f target) =
    ((g.roles t).filter (·.target = target)).map (Role.map f)

end Graph

/-- Types taken to others, wherever they stand. -/
def Transfer.renaming (hf : Function.Injective f) : Transfer where
  owner := f
  type := f
  trail := Trail.map f
  owner_injective := hf
  type_injective := hf
  trail_injective := Trail.map_injective hf

theorem Resolution.group_map_roles (roles : List Role) (path : List TypeId) (name : String) (target : TypeId) :
    group (roles.map fun role => ⟨role, ⟨path, role.origin⟩⟩) name target =
      ((roles.filter (·.target = target)).filter (·.name = name)).map fun role => ⟨role, ⟨path, role.origin⟩⟩ := by
  unfold group
  rw [List.filter_map, List.filter_filter]
  rfl

namespace Graph
namespace Relabels

open Resolution

variable {g g' : Graph} (h : g.Relabels f g') {o : TypeId}

include h

theorem isContract_eq (c : Candidate) :
    isContract g' (f o) ((Transfer.renaming h.injective).candidate c) = isContract g o c := by
  have hholder : ((Transfer.renaming h.injective).candidate c).trail.holder? = c.trail.holder?.map f :=
    List.getLast?_map
  unfold isContract
  rw [hholder, h.isClass_eq, Option.any_map]
  exact congrArg (fun p => g.isClass o && c.trail.holder?.any p) (funext h.isInterface_eq)

/-- The candidates for one association come in the same order. -/
theorem group_candidates (name : String) (target : TypeId) :
    group (candidates g' (g'.ancestry (f o))) name (f target) =
      (group (candidates g (g.ancestry o)) name target).map (Transfer.renaming h.injective).candidate := by
  have hpath : ∀ path ∈ (g.ancestry o).paths, group (candidatesAt g' (path.map f)) name (f target) =
      (group (candidatesAt g path) name target).map (Transfer.renaming h.injective).candidate := fun path hpath => by
    obtain ⟨t, ht⟩ := exists_isPath_of_mem_ancestry hpath
    have hlast : (path.map f).getLast? = some (f t) := by rw [List.getLast?_map, ht.ends]; rfl
    have hcandidates : candidatesAt g' (path.map f) =
        (g'.roles (f t)).map fun role => ⟨role, ⟨path.map f, role.origin⟩⟩ := by
      unfold candidatesAt
      rw [hlast]
      rfl
    have hname : (((g.roles t).filter (·.target = target)).map (Role.map f)).filter (·.name = name) =
        (((g.roles t).filter (·.target = target)).filter (·.name = name)).map (Role.map f) :=
      filter_map_of_mem (fun _ _ => rfl)
    rw [hcandidates, candidatesAt_of_isPath ht, group_map_roles, group_map_roles, h.roles_eq, hname, List.map_map,
      List.map_map]
    rfl
  unfold group at hpath ⊢
  rw [candidates_eq, candidates_eq, ancestry_map h.injective h.parents_eq, List.filter_flatMap, List.filter_flatMap,
    List.map_flatMap]
  exact (List.flatMap_map ..).trans (List.flatMap_congr hpath)

/-- **Each association is resolved as it was.** -/
theorem resolveRole_group (name : String) (target : TypeId) :
    resolveRole g' (f o) name (f target) (group (candidates g' (g'.ancestry (f o))) name (f target)) =
      (Transfer.renaming h.injective).resolvedRole
        (resolveRole g o name target (group (candidates g (g.ancestry o)) name target)) := by
  rw [h.group_candidates]
  exact Transfer.resolveRole_candidates (f := .renaming h.injective) (fun c _ => h.isContract_eq c) name target

theorem cycles_resolve (o : TypeId) : (g'.resolve (f o)).cycles = (g.resolve o).cycles.map (Cycle.map f) := by
  show (g'.ancestry (f o)).cycles = (g.ancestry o).cycles.map (Cycle.map f)
  rw [ancestry_map h.injective h.parents_eq]
  rfl

/-! ## Associations in another order -/

section Perm

variable (hf : Function.Surjective f)

include hf

theorem perm_keys : (keys (candidates g' (g'.ancestry (f o)))).Perm
    ((keys (candidates g (g.ancestry o))).map fun k => (k.1, f k.2)) := by
  have hinj : Function.Injective fun k : String × TypeId => (k.1, f k.2) := fun k l he => by
    obtain ⟨hname, htarget⟩ := Prod.mk.inj he
    exact Prod.ext hname (h.injective htarget)
  -- the keys are in another order if the roles of a type are, so only their members are compared
  refine (List.perm_ext_iff_of_nodup (nodup_keys _) ((nodup_keys _).map hinj)).2 ?_
  rintro ⟨name, target'⟩
  obtain ⟨target, rfl⟩ := hf target'
  have hmem : (name, f target) ∈ (keys (candidates g (g.ancestry o))).map (fun k => (k.1, f k.2)) ↔
      (name, target) ∈ keys (candidates g (g.ancestry o)) := List.mem_map_of_injective (a := (name, target)) hinj
  rw [hmem, mem_keys, mem_keys, h.group_candidates]
  simp

/-- **The roles of a type go along**, in some order. -/
theorem perm_roles : (g'.resolve (f o)).roles.Perm
    ((g.resolve o).roles.map (Transfer.renaming h.injective).resolvedRole) := by
  rw [resolve_roles, resolve_roles, List.map_map]
  refine ((h.perm_keys hf).map _).trans (List.Perm.of_eq ?_)
  rw [List.map_map]
  exact List.map_congr_left (fun k _ => h.resolveRole_group k.1 k.2)

theorem perm_navigable : (g'.resolve (f o)).navigable.Perm
    ((g.resolve o).navigable.map (Transfer.renaming h.injective).declaration) := by
  unfold navigable
  rw [← Transfer.navigable_resolvedRoles]
  exact ((h.perm_roles hf).flatMap_right _).filter _

theorem perm_roleOrder : (g'.resolve (f o)).roleOrder.Perm (g.resolve o).roleOrder := by
  refine (List.perm_ext_iff_of_nodup (nodup_roleOrder _) (nodup_roleOrder _)).2 (fun name => ?_)
  unfold roleOrder
  rw [List.mem_eraseDups, List.mem_eraseDups, ((h.perm_roles hf).map ResolvedRole.name).mem_iff, List.map_map]
  rfl

/-- **The same names are disputed.** -/
theorem disputed_iff {name : String} : (g'.resolve (f o)).Disputed name ↔ (g.resolve o).Disputed name := by
  have hmem : ∀ d', d' ∈ (g'.resolve (f o)).navigable ↔
      ∃ d ∈ (g.resolve o).navigable, (Transfer.renaming h.injective).declaration d = d' := fun d' => by
    rw [(h.perm_navigable hf).mem_iff, List.mem_map]
  constructor
  · rintro ⟨d', hd', e', he', hdn, hen, hde⟩
    obtain ⟨d, hd, rfl⟩ := (hmem d').1 hd'
    obtain ⟨e, he, rfl⟩ := (hmem e').1 he'
    exact ⟨d, hd, e, he, hdn, hen, fun hagree => hde ((Transfer.agrees_declaration d e).2 hagree)⟩
  · rintro ⟨d, hd, e, he, hdn, hen, hde⟩
    exact ⟨_, (hmem _).2 ⟨d, hd, rfl⟩, _, (hmem _).2 ⟨e, he, rfl⟩, hdn, hen, fun hagree =>
      hde ((Transfer.agrees_declaration d e).1 hagree)⟩

theorem perm_topics : ((g'.reportOn (f o)).diagnostics.map Diagnostic.topic).Perm
    ((g.reportOn o).diagnostics.map Diagnostic.topic) := by
  have hties : ((g'.resolve (f o)).roles.flatMap fun role => role.tieBreaks.map (·.kept.role.name)).Perm
      ((g.resolve o).roles.flatMap fun role => role.tieBreaks.map (·.kept.role.name)) := by
    refine ((h.perm_roles hf).flatMap_right _).trans (List.Perm.of_eq ?_)
    rw [List.flatMap_map]
    exact List.flatMap_congr (fun role _ => Transfer.tieBreaks_resolvedRole role)
  have hconflicted : (Method.Merged.ofList (g'.resolve (f o)).methods).conflicted.Perm
      (Method.Merged.ofList (g.resolve o).methods).conflicted := by
    refine (List.perm_ext_iff_of_nodup (Method.Merged.nodup_conflicted _) (Method.Merged.nodup_conflicted _)).2
      (fun name => ?_)
    rw [methods_eq, methods_eq]
    exact mem_conflicted_resolve.trans ((h.disputed_iff hf).trans mem_conflicted_resolve.symm)
  rw [map_topic_reportOn, map_topic_reportOn, map_topic_diagnostics, map_topic_diagnostics, h.cycles_resolve,
    List.map_map]
  exact ((hties.map _).append_left _).append (hconflicted.map _)

theorem filter_navigable_eq (hclean : ∀ name, ¬ (g.resolve o).Disputed name) (name : String) :
    (g'.resolve (f o)).navigable.filter (fun d => d.role.name = name) =
      ((g.resolve o).navigable.filter fun d => d.role.name = name).map (Transfer.renaming h.injective).declaration := by
  by_cases hex : ∃ d ∈ (g.resolve o).navigable, d.role.name = name
  · -- a name that is not disputed stands for one association, and that is resolved as it was, order and all
    obtain ⟨d, hd, rfl⟩ := hex
    have hold : ∀ e ∈ (g.resolve o).navigable, decide (e.role.name = d.role.name) = true →
        (e.role.name, e.role.target) = (d.role.name, d.role.target) :=
      fun e he hn => key_eq_of_name_eq hclean hd he (of_decide_eq_true hn)
    have hnew : ∀ e' ∈ (g'.resolve (f o)).navigable, decide (e'.role.name = d.role.name) = true →
        (e'.role.name, e'.role.target) = (d.role.name, f d.role.target) := fun e' he' hn => by
      rw [(h.perm_navigable hf).mem_iff] at he'
      obtain ⟨e, he, rfl⟩ := List.mem_map.1 he'
      obtain ⟨hname, htarget⟩ := Prod.mk.inj (hold e he hn)
      exact Prod.ext hname (congrArg f htarget)
    have hdeclared := congrArg ResolvedRole.declarations (h.resolveRole_group (o := o) d.role.name d.role.target)
    rw [filter_navigable g o _ _ hold, filter_navigable g' (f o) _ _ hnew]
    unfold declared
    rw [hdeclared]
    exact filter_map_of_mem (fun _ _ => rfl)
  · have hnone : (g.resolve o).navigable.filter (fun d => d.role.name = name) = [] :=
      List.filter_eq_nil_iff.2 (fun d hd hn => hex ⟨d, hd, of_decide_eq_true hn⟩)
    rw [hnone, List.map_nil, List.filter_eq_nil_iff]
    intro d' hd' hn
    rw [(h.perm_navigable hf).mem_iff] at hd'
    obtain ⟨d, hd, rfl⟩ := List.mem_map.1 hd'
    exact hex ⟨d, hd, of_decide_eq_true hn⟩

/-- **The methods of a type that does not fail go along**, in some order. -/
theorem perm_methods {ms : List Method} (hms : (g.reportOn o).methods? = some ms) :
    ∃ ms', (g'.reportOn (f o)).methods? = some ms' ∧ ms'.Perm (ms.map (Transfer.renaming h.injective).method) := by
  have hclean := not_disputed_of_methods? hms
  rw [methods?_reportOn hclean, Option.some.injEq] at hms
  subst hms
  refine ⟨_, methods?_reportOn (fun name hd => hclean name ((h.disputed_iff hf).1 hd)), ?_⟩
  refine ((h.perm_roleOrder hf).flatMap_right _).trans (List.Perm.of_eq ?_)
  rw [List.map_flatMap]
  refine List.flatMap_congr (fun name _ => ?_)
  rw [h.filter_navigable_eq hf hclean name]
  exact Transfer.block_declarations (f := .renaming h.injective) o _

end Perm

end Relabels
end Graph
end Accessors
