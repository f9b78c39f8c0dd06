import Accessors.Proofs.Provenance
import Accessors.Proofs.Search
import Accessors.Proofs.WellFormed
import Accessors.Resolution
/-!
# No role is lost or invented

Every role that a type above the owner holds is accounted for in exactly one resolved role: as a contract of its own
where a class takes it on from an interface, and otherwise in the one declaration that the owner's family has of it
(`resolve_accounts_for_roles`).
-/
namespace Accessors
namespace Resolution

/-! ## Candidates -/

/-- The candidates that the type at the end of a path gives rise to. -/
def candidatesAt (g : Graph) (path : List TypeId) : List Candidate :=
  (path.getLast?.elim [] g.roles).map fun role => ⟨role, ⟨path, role.origin⟩⟩

theorem candidates_eq (g : Graph) (a : Ancestry) : candidates g a = a.paths.flatMap (candidatesAt g) := rfl

/-- The candidates for the roles of one name and one target. -/
def group (cs : List Candidate) (name : String) (target : TypeId) : List Candidate :=
  cs.filter fun c => c.role.name = name && c.role.target = target

theorem mem_group {cs : List Candidate} {name : String} {target : TypeId} {c : Candidate} :
    c ∈ group cs name target ↔ c ∈ cs ∧ c.role.name = name ∧ c.role.target = target := by
  unfold group
  rw [List.mem_filter, Bool.and_eq_true, decide_eq_true_eq, decide_eq_true_eq]

theorem candidatesAt_of_isPath {g : Graph} {o t : TypeId} {path : List TypeId} (h : g.IsPath o t path) :
    candidatesAt g path = (g.roles t).map fun role => ⟨role, ⟨path, role.origin⟩⟩ := by
  unfold candidatesAt
  rw [h.ends]
  rfl

/-- **A candidate is a role of a type that the owner reaches**, with the path to that type. -/
theorem mem_candidates {g : Graph} {o : TypeId} {c : Candidate} (h : c ∈ candidates g (g.ancestry o)) :
    ∃ t path, path ∈ (g.ancestry o).paths ∧ g.IsPath o t path ∧ c.role ∈ g.roles t ∧ c.trail = ⟨path, c.role.origin⟩ := by
  rw [candidates_eq] at h
  obtain ⟨path, hpath, hc⟩ := List.mem_flatMap.1 h
  obtain ⟨t, ht⟩ := Graph.exists_isPath_of_mem_ancestry hpath
  rw [candidatesAt_of_isPath ht] at hc
  obtain ⟨role, hr, rfl⟩ := List.mem_map.1 hc
  exact ⟨t, path, hpath, ht, hr, rfl⟩

theorem mem_candidates_of_isPath {g : Graph} {o t : TypeId} {path : List TypeId} (hpath : path ∈ (g.ancestry o).paths)
    (hp : g.IsPath o t path) {role : Role} (hr : role ∈ g.roles t) :
    ⟨role, ⟨path, role.origin⟩⟩ ∈ candidates g (g.ancestry o) := by
  rw [candidates_eq]
  refine List.mem_flatMap.2 ⟨path, hpath, ?_⟩
  rw [candidatesAt_of_isPath hp]
  exact List.mem_map_of_mem hr

theorem isContract_of_isPath {g : Graph} {o t : TypeId} {path : List TypeId} (h : g.IsPath o t path) (r : Role)
    (origin : Origin) : isContract g o ⟨r, ⟨path, origin⟩⟩ = (g.isClass o && g.isInterface t) := by
  unfold isContract Trail.holder?
  rw [h.ends]
  rfl

/-- **The candidates of one holder are its roles**, each once and along the one path to it. -/
theorem filter_holder_candidates {g : Graph} (hg : g.WellFormed) {o t : TypeId} {path : List TypeId}
    (hpath : (g.ancestry o).paths.filter (fun p => p.getLast? = some t) = [path]) :
    (candidates g (g.ancestry o)).filter (fun c => c.role.holder = t) = candidatesAt g path := by
  have hsel : ∀ p ∈ (g.ancestry o).paths, (candidatesAt g p).filter (fun c => c.role.holder = t) =
      if p.getLast? = some t then candidatesAt g p else [] := fun p hp => by
    obtain ⟨t', ht'⟩ := Graph.exists_isPath_of_mem_ancestry hp
    have hholder : ∀ c ∈ candidatesAt g p, c.role.holder = t' := fun c hc => by
      rw [candidatesAt_of_isPath ht'] at hc
      obtain ⟨role, hr, rfl⟩ := List.mem_map.1 hc
      exact hg.holder_eq t' role hr
    rw [ht'.ends]
    by_cases h : t' = t
    · rw [if_pos (by rw [h]), List.filter_eq_self]
      exact fun c hc => decide_eq_true ((hholder c hc).trans h)
    · rw [if_neg (fun he => h (Option.some.inj he)), List.filter_eq_nil_iff]
      exact fun c hc he => h ((hholder c hc).symm.trans (of_decide_eq_true he))
  rw [candidates_eq, List.filter_flatMap, List.flatMap_congr hsel]
  have hfm := flatMap_filter (fun p : List TypeId => decide (p.getLast? = some t)) (candidatesAt g)
    (g.ancestry o).paths
  rw [hpath, List.flatMap_singleton] at hfm
  simp only [hfm, decide_eq_true_eq]

/-! ## From candidates to declarations -/

/-- The name and the target of each association, in the order in which the candidates meet them. -/
def keys (cs : List Candidate) : List (String × TypeId) := (cs.map fun c => (c.role.name, c.role.target)).eraseDups

/-- The one declaration that a family has of a role, if it has any. -/
def familyDeclaration : List Candidate → List Declaration
  | [] => []
  | kept :: others => [(merged kept others).1]

def contractDeclaration (c : Candidate) : Declaration := ⟨c.role, .ofTrail c.trail, true⟩

theorem resolve_roles (g : Graph) (o : TypeId) :
    (g.resolve o).roles = (keys (candidates g (g.ancestry o))).map fun k =>
      resolveRole g o k.1 k.2 (group (candidates g (g.ancestry o)) k.1 k.2) := rfl

@[simp] theorem name_resolveRole (g : Graph) (o : TypeId) (name : String) (target : TypeId) (cs : List Candidate) :
    (resolveRole g o name target cs).name = name := by
  unfold resolveRole; split <;> rfl

@[simp] theorem target_resolveRole (g : Graph) (o : TypeId) (name : String) (target : TypeId) (cs : List Candidate) :
    (resolveRole g o name target cs).target = target := by
  unfold resolveRole; split <;> rfl

theorem declarations_resolveRole (g : Graph) (o : TypeId) (name : String) (target : TypeId) (cs : List Candidate) :
    (resolveRole g o name target cs).declarations =
      familyDeclaration (cs.filter fun c => !isContract g o c) ++
        (cs.filter (isContract g o)).map contractDeclaration := by
  unfold resolveRole
  split <;> rename_i h <;> rw [h] <;> rfl

theorem mem_keys {cs : List Candidate} {name : String} {target : TypeId} :
    (name, target) ∈ keys cs ↔ ∃ c, c ∈ group cs name target := by
  unfold keys
  rw [List.mem_eraseDups, List.mem_map]
  constructor
  · rintro ⟨c, hc, he⟩
    cases he
    exact ⟨c, mem_group.2 ⟨hc, rfl, rfl⟩⟩
  · rintro ⟨c, hg⟩
    obtain ⟨hc, rfl, rfl⟩ := mem_group.1 hg
    exact ⟨c, hc, rfl⟩

theorem nodup_keys (cs : List Candidate) : (keys cs).Nodup := nodup_eraseDups _

/-- The declarations of one association. -/
def declared (g : Graph) (o : TypeId) (cs : List Candidate) (k : String × TypeId) : List Declaration :=
  (resolveRole g o k.1 k.2 (group cs k.1 k.2)).declarations

theorem flatMap_declarations_resolve (g : Graph) (o : TypeId) :
    (g.resolve o).roles.flatMap ResolvedRole.declarations =
      (keys (candidates g (g.ancestry o))).flatMap (declared g o (candidates g (g.ancestry o))) := by
  rw [resolve_roles, List.flatMap_map]
  rfl

/-- **Each association has one resolved role.** -/
theorem filter_roles_resolve {g : Graph} {o : TypeId} {name : String} {target : TypeId}
    (h : (name, target) ∈ keys (candidates g (g.ancestry o))) :
    (g.resolve o).roles.filter (fun x => x.name = name && x.target = target) =
      [resolveRole g o name target (group (candidates g (g.ancestry o)) name target)] := by
  have hkeys : (g.resolve o).roles.filterMap (fun x => some (x.name, x.target)) = keys (candidates g (g.ancestry o)) := by
    rw [List.filterMap_eq_map', resolve_roles, List.map_map]
    exact (List.map_congr_left (fun k _ => by simp)).trans (List.map_id _)
  obtain ⟨x, hx, he, hf⟩ := filter_eq_singleton_of_nodup (fun x : ResolvedRole => some (x.name, x.target))
    (g.resolve o).roles (hkeys ▸ nodup_eraseDups _) (name, target) (hkeys ▸ h)
  rw [resolve_roles] at hx
  obtain ⟨⟨n, t⟩, -, rfl⟩ := List.mem_map.1 hx
  simp only [name_resolveRole, target_resolveRole, Option.some.injEq, Prod.mk.injEq] at he
  obtain ⟨rfl, rfl⟩ := he
  rw [← hf]
  refine List.filter_congr (fun y _ => ?_)
  rw [← Bool.decide_and]
  exact decide_eq_decide.2 (by rw [Option.some.injEq, Prod.mk.injEq])

/-- A declaration stands for a candidate, and is a contract if that is one. -/
theorem mem_declarations_resolveRole {g : Graph} {o : TypeId} {name : String} {target : TypeId} {cs : List Candidate}
    {d : Declaration} (h : d ∈ (resolveRole g o name target cs).declarations) :
    ∃ c ∈ cs, d.role = c.role ∧ d.isContract = isContract g o c := by
  rw [declarations_resolveRole] at h
  rcases List.mem_append.1 h with h | h
  · cases hf : cs.filter (fun c => !isContract g o c) with
    | nil => rw [hf] at h; cases h
    | cons kept others =>
      rw [hf] at h
      rw [List.mem_singleton.1 h]
      have hk := List.mem_filter.1 (hf ▸ List.mem_cons_self : kept ∈ cs.filter (fun c => !isContract g o c))
      exact ⟨kept, hk.1, rfl, by simpa [merged] using hk.2⟩
  · obtain ⟨c, hc, rfl⟩ := List.mem_map.1 h
    exact ⟨c, (List.mem_filter.1 hc).1, rfl, (List.mem_filter.1 hc).2.symm⟩

/-- **The family of an association** is told by its one declaration that is no contract, and by the ties broken. -/
theorem family_resolveRole {g : Graph} {o : TypeId} {name : String} {target : TypeId} {cs : List Candidate} {d : Declaration}
    (hd : d ∈ (resolveRole g o name target cs).declarations) (hc : d.isContract = false) : ∃ kept others,
      cs.filter (fun c => !isContract g o c) = kept :: others ∧ d = (merged kept others).1 ∧
        (resolveRole g o name target cs).tieBreaks = (merged kept others).2 := by
  rw [declarations_resolveRole] at hd
  unfold resolveRole
  cases hown : cs.filter fun c => !isContract g o c with
  | nil =>
    rw [hown] at hd
    obtain ⟨c, -, rfl⟩ := List.mem_map.1 hd
    cases hc
  | cons kept others =>
    rw [hown] at hd
    rcases List.mem_append.1 hd with hd | hd
    · exact ⟨kept, others, rfl, List.mem_singleton.1 hd, rfl⟩
    · obtain ⟨c, -, rfl⟩ := List.mem_map.1 hd
      cases hc

theorem tieBreaks_eq_nil_of_isContract {g : Graph} {o : TypeId} {name : String} {target : TypeId} {cs : List Candidate}
    (h : ∀ d ∈ (resolveRole g o name target cs).declarations, d.isContract = true) :
    (resolveRole g o name target cs).tieBreaks = [] := by
  rw [declarations_resolveRole] at h
  unfold resolveRole
  cases hown : cs.filter fun c => !isContract g o c with
  | nil => rfl
  | cons kept others =>
    rw [hown] at h
    have hkept := h (merged kept others).1 (List.mem_append_left _ (List.mem_singleton.2 rfl))
    cases hkept

/-- Both sides of a tie are of the family. -/
theorem mem_tieBreaks_resolveRole {g : Graph} {o : TypeId} {name : String} {target : TypeId} {cs : List Candidate}
    {t : TieBreak} (h : t ∈ (resolveRole g o name target cs).tieBreaks) :
    t.kept ∈ cs.filter (fun c => !isContract g o c) ∧ t.lost ∈ cs.filter (fun c => !isContract g o c) := by
  unfold resolveRole at h
  cases hown : cs.filter fun c => !isContract g o c with
  | nil =>
    simp only [hown] at h
    cases h
  | cons kept others =>
    simp only [hown] at h
    obtain ⟨lost, hlost, rfl⟩ := List.mem_map.1 h
    exact ⟨List.mem_cons_self, List.mem_cons_of_mem kept (List.mem_filter.1 hlost).1⟩

theorem of_mem_declared {g : Graph} {o : TypeId} {cs : List Candidate} {k : String × TypeId} {d : Declaration}
    (h : d ∈ declared g o cs k) : (d.role.name, d.role.target) = k ∧ k ∈ keys cs := by
  obtain ⟨c, hc, hrole, -⟩ := mem_declarations_resolveRole h
  obtain ⟨-, hname, htarget⟩ := mem_group.1 hc
  rw [hrole, hname, htarget]
  exact ⟨rfl, mem_keys.2 ⟨c, hc⟩⟩

/-- **Contracts that come later** are declared behind what is declared before. -/
theorem declared_append {g : Graph} {o : TypeId} (cs : List Candidate) {contracts : List Candidate}
    (h : ∀ c ∈ contracts, isContract g o c = true) (k : String × TypeId) :
    declared g o (cs ++ contracts) k = declared g o cs k ++ (group contracts k.1 k.2).map contractDeclaration := by
  have hgroup : group (cs ++ contracts) k.1 k.2 = group cs k.1 k.2 ++ group contracts k.1 k.2 := List.filter_append _ _
  have hall : (group contracts k.1 k.2).filter (isContract g o) = group contracts k.1 k.2 :=
    List.filter_eq_self.2 (fun c hc => h c (mem_group.1 hc).1)
  have hnone : (group contracts k.1 k.2).filter (fun c => !isContract g o c) = [] :=
    List.filter_eq_nil_iff.2 (fun c hc => by simp [h c (mem_group.1 hc).1])
  unfold declared
  rw [declarations_resolveRole, declarations_resolveRole, hgroup, List.filter_append, List.filter_append, hall, hnone,
    List.append_nil, List.map_append, List.append_assoc]

theorem mem_declarations_resolve {g : Graph} {o : TypeId} {resolved : ResolvedRole} (h : resolved ∈ (g.resolve o).roles)
    {d : Declaration} (hd : d ∈ resolved.declarations) :
    ∃ c ∈ candidates g (g.ancestry o), d.role = c.role ∧ d.isContract = isContract g o c ∧
      d.role.name = resolved.name ∧ d.role.target = resolved.target := by
  rw [resolve_roles] at h
  obtain ⟨⟨name, target⟩, -, rfl⟩ := List.mem_map.1 h
  obtain ⟨c, hc, hrole, hcon⟩ := mem_declarations_resolveRole hd
  obtain ⟨hmem, hname, htarget⟩ := mem_group.1 hc
  rw [name_resolveRole, target_resolveRole, hrole]
  exact ⟨c, hmem, rfl, hcon, hname, htarget⟩

theorem exists_contractDeclaration_mem {g : Graph} {o : TypeId} {c : Candidate}
    (hc : c ∈ candidates g (g.ancestry o)) (hcon : isContract g o c = true) :
    ∃ resolved ∈ (g.resolve o).roles, contractDeclaration c ∈ resolved.declarations := by
  have hg : c ∈ group (candidates g (g.ancestry o)) c.role.name c.role.target := mem_group.2 ⟨hc, rfl, rfl⟩
  refine ⟨resolveRole g o c.role.name c.role.target
    (group (candidates g (g.ancestry o)) c.role.name c.role.target), ?_, ?_⟩
  · rw [resolve_roles]
    exact List.mem_map.2 ⟨_, mem_keys.2 ⟨c, hg⟩, rfl⟩
  · rw [declarations_resolveRole]
    exact List.mem_append_right _ (List.mem_map_of_mem (List.mem_filter.2 ⟨hg, hcon⟩))

theorem declarations_resolveRole_ne_nil {g : Graph} {o : TypeId} {name : String} {target : TypeId}
    {cs : List Candidate} (h : cs ≠ []) : (resolveRole g o name target cs).declarations ≠ [] := by
  obtain ⟨c, hc⟩ := List.exists_mem_of_ne_nil cs h
  rw [declarations_resolveRole]
  cases hcon : isContract g o c with
  | true =>
    exact List.append_ne_nil_of_right_ne_nil _
      (List.ne_nil_of_mem (List.mem_map_of_mem (List.mem_filter.2 ⟨hc, hcon⟩)))
  | false =>
    have hm : c ∈ cs.filter (fun c => !isContract g o c) := List.mem_filter.2 ⟨hc, by rw [hcon]; rfl⟩
    cases hf : cs.filter (fun c => !isContract g o c) with
    | nil => rw [hf] at hm; cases hm
    | cons kept others => exact List.append_ne_nil_of_left_ne_nil (List.cons_ne_nil _ _) _

theorem declarations_resolve_ne_nil {g : Graph} {o : TypeId} {resolved : ResolvedRole}
    (h : resolved ∈ (g.resolve o).roles) : resolved.declarations ≠ [] := by
  rw [resolve_roles] at h
  obtain ⟨⟨name, target⟩, hk, rfl⟩ := List.mem_map.1 h
  obtain ⟨c, hc⟩ := mem_keys.1 hk
  exact declarations_resolveRole_ne_nil (List.ne_nil_of_mem hc)

theorem trails_merged (kept : Candidate) (others : List Candidate) :
    (merged kept others).1.provenance.trails = (others.map Candidate.trail).foldl pushNew [kept.trail] := by
  rw [List.foldl_map]; rfl

theorem head?_trails_merged (kept : Candidate) (others : List Candidate) :
    (merged kept others).1.provenance.trails.head? = some kept.trail := by
  obtain ⟨rest, hrest⟩ := prefix_foldl_pushNew (others.map Candidate.trail) [kept.trail]
  rw [trails_merged, ← hrest]
  rfl

theorem trail_mem_merged {kept c : Candidate} {others : List Candidate} (h : c ∈ kept :: others) :
    c.trail ∈ (merged kept others).1.provenance.trails := by
  rw [trails_merged, mem_foldl_pushNew]
  rcases List.mem_cons.1 h with rfl | h
  · exact Or.inl List.mem_cons_self
  · exact Or.inr (List.mem_map_of_mem h)

/-! ## Roles accounted for -/

theorem isContract_of_mem_familyDeclaration {cs : List Candidate} {d : Declaration} (h : d ∈ familyDeclaration cs) :
    d.isContract = false := by
  cases cs with
  | nil => cases h
  | cons kept others => rw [List.mem_singleton.1 h]; rfl

/-- **What a class takes on from one interface**: a contract for each of the roles there, in order. -/
theorem filter_contracts_resolveRole {g : Graph} (hg : g.WellFormed) {o t : TypeId} {path : List TypeId}
    (hp : g.IsPath o t path) (hpath : (g.ancestry o).paths.filter (fun p => p.getLast? = some t) = [path])
    (hc : (g.isClass o && g.isInterface t) = true) (name : String) (target : TypeId) :
    (resolveRole g o name target (group (candidates g (g.ancestry o)) name target)).declarations.filter
        (fun d => d.isContract && d.role.holder = t) =
      ((g.roles t).filter (fun x => x.name = name && x.target = target)).map
        fun x => ⟨x, .ofTrail ⟨path, x.origin⟩, true⟩ := by
  have hfam : ∀ cs : List Candidate,
      (familyDeclaration cs).filter (fun d => d.isContract && d.role.holder = t) = [] := fun cs =>
    List.filter_eq_nil_iff.2 (fun d hd h => by rw [isContract_of_mem_familyDeclaration hd] at h; cases h)
  rw [declarations_resolveRole, List.filter_append, hfam, List.nil_append, List.filter_map, List.filter_filter, group,
    List.filter_filter]
  -- whichever of the three tests comes first, the candidates of the holder are left
  have hcomm : ∀ c ∈ candidates g (g.ancestry o),
      ((((fun d : Declaration => d.isContract && decide (d.role.holder = t)) ∘ contractDeclaration) c &&
        isContract g o c) && (decide (c.role.name = name) && decide (c.role.target = target))) =
      (isContract g o c && (decide (c.role.name = name) && decide (c.role.target = target)) &&
        decide (c.role.holder = t)) := fun c _ => by
    simp only [Function.comp_apply, contractDeclaration, Bool.true_and]
    ac_rfl
  rw [List.filter_congr hcomm, ← List.filter_filter, filter_holder_candidates hg hpath, candidatesAt_of_isPath hp,
    List.filter_map, List.map_map]
  refine congrArg₂ List.map rfl (List.filter_congr (fun r _ => ?_))
  rw [Function.comp_apply, isContract_of_isPath hp, hc, Bool.true_and]

/-- **The one declaration of a family**: the first candidate of the family in search order, with the trails of all. -/
theorem exists_family_resolveRole {g : Graph} {o : TypeId} {name : String} {target : TypeId} {cs : List Candidate}
    {c : Candidate} (hc : c ∈ group cs name target) (hown : isContract g o c = false) :
    ∃ own contracts first, (resolveRole g o name target (group cs name target)).declarations = own :: contracts ∧
      own.isContract = false ∧ (∀ d ∈ contracts, d.isContract = true) ∧
      cs.find? (fun c => c.role.name = name && c.role.target = target && !isContract g o c) = some first ∧
      own.role = first.role ∧ own.provenance.trails.head? = some first.trail ∧ c.trail ∈ own.provenance.trails := by
  have hm : c ∈ (group cs name target).filter (fun c => !isContract g o c) :=
    List.mem_filter.2 ⟨hc, by rw [hown]; rfl⟩
  have hhead := List.head?_filter (l := cs)
    (p := fun c => c.role.name = name && c.role.target = target && !isContract g o c)
  rw [declarations_resolveRole]
  cases hf : (group cs name target).filter (fun c => !isContract g o c) with
  | nil => rw [hf] at hm; cases hm
  | cons kept others =>
    refine ⟨(merged kept others).1, _, kept, rfl, rfl, fun d hd => ?_, ?_, rfl, head?_trails_merged kept others,
      trail_mem_merged (hf ▸ hm)⟩
    · obtain ⟨c, -, rfl⟩ := List.mem_map.1 hd
      rfl
    · rw [group, List.filter_filter] at hf
      rw [← hhead, ← List.head?_cons (a := kept) (l := others), ← hf]
      exact congrArg List.head? (List.filter_congr (fun c _ => by ac_rfl))

/-- **No role is lost or invented.**  Every role of a type that the owner reaches is accounted for in the one resolved
role of its name and target: where a class takes it on from an interface, the contracts from there are the roles held
there, one by one; otherwise it is merged into the one declaration that is no contract, which comes first, is the first
of its kind in search order, and tells the path.  And nothing else is declared. -/
theorem resolve_accounts_for_roles {s : Source} {g : Graph} (h : Graph.ofSource s = .ok g) (owner : TypeId) :
    (∀ t role, g.Reaches owner t → role ∈ g.roles t → ∃ resolved path,
      (g.resolve owner).roles.filter (fun x => x.name = role.name && x.target = role.target) = [resolved] ∧
      (g.ancestry owner).paths.filter (fun p => p.getLast? = some t) = [path] ∧ g.IsPath owner t path ∧
      (if g.isClass owner && g.isInterface t then
        resolved.declarations.filter (fun d => d.isContract && d.role.holder = t) =
          ((g.roles t).filter (fun x => x.name = role.name && x.target = role.target)).map
            fun x => ⟨x, .ofTrail ⟨path, x.origin⟩, true⟩
      else
        ∃ own contracts first, resolved.declarations = own :: contracts ∧ own.isContract = false ∧
          (∀ d ∈ contracts, d.isContract = true) ∧
          (candidates g (g.ancestry owner)).find?
            (fun c => c.role.name = role.name && c.role.target = role.target && !isContract g owner c) = some first ∧
          own.role = first.role ∧ own.provenance.trails.head? = some first.trail ∧
          ⟨path, role.origin⟩ ∈ own.provenance.trails)) ∧
    ∀ resolved ∈ (g.resolve owner).roles, resolved.declarations ≠ [] ∧
      ∀ d ∈ resolved.declarations, d.role.name = resolved.name ∧ d.role.target = resolved.target ∧
        ∃ t, g.Reaches owner t ∧ d.role ∈ g.roles t ∧ d.isContract = (g.isClass owner && g.isInterface t) := by
  have hg := Graph.wellFormed_of_ofSource h
  refine ⟨fun t role ht hr => ?_, fun resolved hres => ?_⟩
  · obtain ⟨path, hmem, hp, hpath⟩ := Graph.filter_paths_ancestry ht
    -- the candidate that the role gives rise to
    have hc := mem_candidates_of_isPath hmem hp hr
    have hgroup := mem_group.2 ⟨hc, rfl, rfl⟩
    refine ⟨_, path, filter_roles_resolve (mem_keys.2 ⟨_, hgroup⟩), hpath, hp, ?_⟩
    split
    · rename_i hcon
      exact filter_contracts_resolveRole hg hp hpath hcon role.name role.target
    · rename_i hcon
      exact exists_family_resolveRole hgroup ((isContract_of_isPath hp role role.origin).trans (by simpa using hcon))
  · refine ⟨declarations_resolve_ne_nil hres, fun d hd => ?_⟩
    obtain ⟨c, hc, hrole, hcon, hname, htarget⟩ := mem_declarations_resolve hres hd
    obtain ⟨t, path, -, hp, hr, htrail⟩ := mem_candidates hc
    refine ⟨hname, htarget, t, hp.reaches, hrole ▸ hr, ?_⟩
    rw [hcon, ← isContract_of_isPath hp c.role c.role.origin, ← htrail]

/-- The role of the second of two interfaces above each other is a contract of its own, by the way over the first. -/
theorem resolve_accounts_for_roles_enrolment :
    Graph.ofSource .enrolment = .ok .enrolment ∧ Graph.enrolment.Reaches ⟨3⟩ ⟨1⟩ ∧
      ∃ role ∈ Graph.enrolment.roles ⟨1⟩, ∃ resolved ∈ (Graph.enrolment.resolve ⟨3⟩).roles,
        ⟨role, .ofTrail ⟨[⟨3⟩, ⟨0⟩, ⟨1⟩], .declared⟩, true⟩ ∈ resolved.declarations := by
  have hreach := Graph.reaches_enrolment
  obtain ⟨role, hrole⟩ : ∃ role, Graph.enrolment.roles ⟨1⟩ = [role] := ⟨_, rfl⟩
  have hmem : role ∈ Graph.enrolment.roles ⟨1⟩ := hrole ▸ List.mem_cons_self
  obtain ⟨resolved, path, hres, hpath, -, hif⟩ :=
    (resolve_accounts_for_roles Graph.ofSource_enrolment ⟨3⟩).1 ⟨1⟩ role hreach hmem
  refine ⟨Graph.ofSource_enrolment, hreach, role, hmem, resolved,
    (List.mem_filter.1 (hres ▸ List.mem_cons_self)).1, ?_⟩
  have hp : path = [⟨3⟩, ⟨0⟩, ⟨1⟩] := by
    have : (Graph.enrolment.ancestry ⟨3⟩).paths.filter (fun p => p.getLast? = some ⟨1⟩) = [[⟨3⟩, ⟨0⟩, ⟨1⟩]] := rfl
    rw [hpath] at this
    exact List.singleton_injective this
  have horigin : role.origin = .declared := by
    cases hrole
    rfl
  rw [if_pos (by decide)] at hif
  have hd : (⟨role, .ofTrail ⟨path, role.origin⟩, true⟩ : Declaration) ∈
      resolved.declarations.filter (fun d => d.isContract && d.role.holder = ⟨1⟩) := by
    rw [hif]
    exact List.mem_map_of_mem (List.mem_filter.2 ⟨hmem, by simp⟩)
  rw [hp, horigin] at hd
  exact (List.mem_filter.1 hd).1

end Resolution
end Accessors
