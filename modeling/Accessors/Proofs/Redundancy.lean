import Accessors.Proofs.Generation
/-!
# An interface that a class does not need

Giving a class one more interface leaves everything that is found for it in front and puts contracts behind it
(`exists_candidates_implementing`).  If the class declares the navigable roles of the interface and of all above it
already, no name is disputed that was not, and each method only gains trails (`redundant_interface_adds_trails`).
-/
namespace Accessors

/-! ## One more interface -/

/-- The supertypes of a class with one more interface behind them. -/
def Heritage.implementing (i : TypeId) : Heritage → Heritage
  | ofClass superclass interfaces => ofClass superclass (interfaces ++ [i])
  | ofInterface extended => ofInterface extended

@[simp] theorem Heritage.isClass_implementing (i : TypeId) (h : Heritage) : (h.implementing i).isClass = h.isClass := by
  cases h <;> rfl

theorem Heritage.parents_implementing (i : TypeId) {h : Heritage} (hc : h.isClass = true) :
    (h.implementing i).parents = h.parents ++ [i] := by
  cases h with
  | ofClass superclass interfaces => exact (List.append_assoc _ _ _).symm
  | ofInterface _ => cases hc

namespace Graph

/-- The graph in which the class `c` has the interface `i` behind those that it has. -/
def implementing (g : Graph) (c i : TypeId) : Graph :=
  { g with types := g.types.modify c.index fun n => { n with heritage := n.heritage.implementing i } }

variable {g : Graph} {c i t : TypeId}

theorem node?_implementing (g : Graph) (c i t : TypeId) : (g.implementing c i).node? t =
    (g.node? t).map fun n => if t = c then { n with heritage := n.heritage.implementing i } else n := by
  have hidx : c.index = t.index ↔ t = c := by
    cases c; cases t; simp [eq_comm]
  unfold node? implementing
  simp only [List.getElem?_modify, hidx]
  rfl

@[simp] theorem size_implementing (g : Graph) (c i : TypeId) : (g.implementing c i).size = g.size := by
  simp [size, implementing]

@[simp] theorem roles_implementing (g : Graph) (c i t : TypeId) : (g.implementing c i).roles t = g.roles t := by
  unfold roles
  rw [node?_implementing]
  by_cases h : t = c <;> cases g.node? t <;> simp [h]

@[simp] theorem isClass_implementing (g : Graph) (c i t : TypeId) : (g.implementing c i).isClass t = g.isClass t := by
  unfold isClass
  rw [node?_implementing]
  by_cases h : t = c <;> cases g.node? t <;> simp [h]

@[simp] theorem isInterface_implementing (g : Graph) (c i t : TypeId) :
    (g.implementing c i).isInterface t = g.isInterface t := by
  unfold isInterface Heritage.isInterface
  rw [node?_implementing]
  by_cases h : t = c <;> cases g.node? t <;> simp [h]

theorem parents_implementing_of_ne (g : Graph) (c i : TypeId) (t : TypeId) (h : t ≠ c) :
    (g.implementing c i).parents t = g.parents t := by
  unfold parents
  rw [node?_implementing]
  cases g.node? t <;> simp [h]

theorem parents_implementing (hc : g.isClass c = true) (i : TypeId) :
    (g.implementing c i).parents c = g.parents c ++ [i] := by
  unfold isClass at hc
  unfold parents
  rw [node?_implementing]
  cases hn : g.node? c with
  | none => rw [hn] at hc; cases hc
  | some n =>
    rw [hn] at hc
    simp [Heritage.parents_implementing i hc]

/-- **The search up from the class** is the old one and a last step to the new interface. -/
theorem ancestry_implementing (hc : g.isClass c = true) (i : TypeId) :
    (g.implementing c i).ancestry c = g.follow g.size [c] c (g.ancestry c) i := by
  have hfollow : (g.implementing c i).follow g.size [c] c = g.follow g.size [c] c :=
    follow_congr_of_search (fun parent a hp => search_congr (parents_implementing_of_ne g c i) g.size [c] parent a
      List.mem_cons_self (fun h => hp (h ▸ List.mem_cons_self))) c
  unfold ancestry
  rw [search_succ, search_succ, size_implementing, parents_implementing hc, List.foldl_append, List.nil_append, hfollow]
  rfl

theorem exists_paths_implementing (hc : g.isClass c = true) (hi : g.isInterface i = true) :
    ∃ extra, ((g.implementing c i).ancestry c).paths = (g.ancestry c).paths ++ extra ∧
      ∀ p ∈ extra, ∃ t, p.getLast? = some t ∧ g.Reaches i t := by
  have hne : i ∉ [c] := fun h => ne_of_isClass_of_isInterface hc hi (List.mem_singleton.1 h)
  rw [ancestry_implementing hc]
  unfold follow
  rw [if_neg hne]
  split
  · exact ⟨[], (List.append_nil _).symm, fun p hp => by cases hp⟩
  · rename_i hnew
    exact exists_paths_search g g.size [c] i _ hnew

end Graph

/-! ## What is found for the class -/

namespace Resolution

open Accessors.Graph

variable {g : Graph} {c i : TypeId}

theorem isContract_implementing (g : Graph) (c i o : TypeId) : isContract (g.implementing c i) o = isContract g o := by
  funext x
  simp only [isContract, isClass_implementing, funext (isInterface_implementing g c i)]

theorem candidatesAt_implementing (g : Graph) (c i : TypeId) : candidatesAt (g.implementing c i) = candidatesAt g := by
  funext path
  simp only [candidatesAt, funext (roles_implementing g c i)]

theorem declared_implementing (g : Graph) (c i o : TypeId) (cs : List Candidate) :
    declared (g.implementing c i) o cs = declared g o cs := by
  funext k
  unfold declared
  rw [declarations_resolveRole, declarations_resolveRole, isContract_implementing]

/-- **What is found besides** are contracts, for roles that the interface has. -/
theorem exists_candidates_implementing (hg : g.WellFormed) (hc : g.isClass c = true) (hi : g.isInterface i = true) :
    ∃ more, candidates (g.implementing c i) ((g.implementing c i).ancestry c) = candidates g (g.ancestry c) ++ more ∧
      ∀ x ∈ more, isContract g c x = true ∧ ∃ t, g.Reaches i t ∧ x.role ∈ g.roles t := by
  obtain ⟨extra, hpaths, hextra⟩ := exists_paths_implementing hc hi
  refine ⟨extra.flatMap (candidatesAt g), ?_, fun x hx => ?_⟩
  · rw [candidates_eq, candidatesAt_implementing, hpaths, List.flatMap_append, ← candidates_eq]
  · obtain ⟨path, hp, hx⟩ := List.mem_flatMap.1 hx
    obtain ⟨t, hlast, ht⟩ := hextra path hp
    unfold candidatesAt at hx
    rw [hlast] at hx
    obtain ⟨role, hr, rfl⟩ := List.mem_map.1 hx
    refine ⟨?_, t, ht, hr⟩
    simp [isContract, Trail.holder?, hlast, hc, hg.isInterface_of_reaches hi ht]

theorem exists_declared_implementing (hg : g.WellFormed) (hc : g.isClass c = true) (hi : g.isInterface i = true) :
    ∃ more : List Candidate, (∀ x ∈ more, ∃ t, g.Reaches i t ∧ x.role ∈ g.roles t) ∧
      ∀ k, declared (g.implementing c i) c (candidates (g.implementing c i) ((g.implementing c i).ancestry c)) k =
        declared g c (candidates g (g.ancestry c)) k ++ (group more k.1 k.2).map contractDeclaration := by
  obtain ⟨more, hcand, hmore⟩ := exists_candidates_implementing hg hc hi
  refine ⟨more, fun x hx => (hmore x hx).2, fun k => ?_⟩
  rw [hcand, declared_implementing, declared_append _ (fun x hx => (hmore x hx).1)]

theorem roleOrder_resolve (g : Graph) (o : TypeId) :
    (g.resolve o).roleOrder = ((keys (candidates g (g.ancestry o))).map Prod.fst).eraseDups := by
  unfold roleOrder
  rw [resolve_roles, List.map_map]
  exact congrArg List.eraseDups (List.map_congr_left (fun k _ => name_resolveRole g o k.1 k.2 _))

theorem exists_roleOrder_implementing (hg : g.WellFormed) (hc : g.isClass c = true) (hi : g.isInterface i = true) :
    ∃ new, ((g.implementing c i).resolve c).roleOrder = (g.resolve c).roleOrder ++ new ∧
      ∀ name ∈ new, name ∉ (g.resolve c).roleOrder := by
  obtain ⟨more, hcand, -⟩ := exists_candidates_implementing hg hc hi
  rw [roleOrder_resolve, roleOrder_resolve, hcand]
  unfold keys
  rw [List.map_append]
  obtain ⟨newKeys, hkeys, -⟩ := exists_eraseDups_append
    ((candidates g (g.ancestry c)).map fun x => (x.role.name, x.role.target))
    (more.map fun x => (x.role.name, x.role.target))
  rw [hkeys, List.map_append]
  obtain ⟨new, hnew, hfresh⟩ := exists_eraseDups_append (((candidates g (g.ancestry c)).map fun x =>
    (x.role.name, x.role.target)).eraseDups.map Prod.fst) (newKeys.map Prod.fst)
  refine ⟨new, hnew, fun name hname => ?_⟩
  rw [List.mem_eraseDups]
  exact hfresh name hname

end Resolution

/-! ## Interfaces that add nothing -/

/-- The class declares every navigable role of the interface and of all above it, with one target and one
multiplicity. -/
def Graph.Redundant (g : Graph) (c i : TypeId) : Prop :=
  ∀ t role, g.Reaches i t → role ∈ g.roles t → role.navigable = true → ∃ d ∈ (g.resolve c).navigable,
    d.role.name = role.name ∧ d.role.target = role.target ∧ d.role.multiplicity = role.multiplicity

/-- The same method with more trails behind those that it has. -/
def Method.Extends (m m' : Method) : Prop :=
  m'.signature = m.signature ∧ m.provenance.trails <+: m'.provenance.trails

theorem Method.extends_block (owner : TypeId) (ds more : List Declaration) (h : ds = [] → more = []) :
    List.Forall₂ Method.Extends (block owner ds) (block owner (ds ++ more)) := by
  cases ds with
  | nil =>
    rw [h rfl]
    exact .nil
  | cons d ds =>
    unfold block
    rw [List.cons_append, List.forall₂_map_left_iff, List.forall₂_map_right_iff, List.forall₂_same]
    intro kind _
    refine ⟨rfl, ?_⟩
    rw [List.map_append, List.foldl_append]
    exact Provenance.trails_prefix_foldl_merge _ _

namespace Graph

open Resolution Method

variable {g : Graph} {c i : TypeId}

/-- Whatever is declared now was declared, of the same name, target and multiplicity. -/
theorem exists_navigable_of_implementing (hg : g.WellFormed) (hc : g.isClass c = true) (hi : g.isInterface i = true)
    (hred : g.Redundant c i) {d : Declaration} (hd : d ∈ ((g.implementing c i).resolve c).navigable) :
    ∃ e ∈ (g.resolve c).navigable, e.role.name = d.role.name ∧ e.Agrees d := by
  obtain ⟨more, hmore, hdecl⟩ := exists_declared_implementing hg hc hi
  obtain ⟨hmem, hnav⟩ := List.mem_filter.1 hd
  rw [flatMap_declarations_resolve] at hmem
  obtain ⟨k, -, hk⟩ := List.mem_flatMap.1 hmem
  rw [hdecl] at hk
  rcases List.mem_append.1 hk with hold | hnew
  · refine ⟨d, List.mem_filter.2 ⟨?_, hnav⟩, rfl, rfl, rfl⟩
    rw [flatMap_declarations_resolve]
    exact List.mem_flatMap.2 ⟨k, (of_mem_declared hold).2, hold⟩
  · obtain ⟨x, hx, rfl⟩ := List.mem_map.1 hnew
    obtain ⟨t, ht, hr⟩ := hmore x (mem_group.1 hx).1
    obtain ⟨e, he, hname, htarget, hmul⟩ := hred t x.role ht hr hnav
    exact ⟨e, he, hname, htarget, hmul⟩

theorem not_disputed_implementing (hg : g.WellFormed) (hc : g.isClass c = true) (hi : g.isInterface i = true)
    (hred : g.Redundant c i) (hclean : ∀ name, ¬ (g.resolve c).Disputed name) (name : String) :
    ¬ ((g.implementing c i).resolve c).Disputed name := by
  rintro ⟨d, hd, e, he, hdn, hen, hde⟩
  obtain ⟨d', hd', hdn', hdd⟩ := exists_navigable_of_implementing hg hc hi hred hd
  obtain ⟨e', he', hen', hee⟩ := exists_navigable_of_implementing hg hc hi hred he
  have hagree := agrees_of_not_disputed hclean hd' he' (by rw [hdn', hen', hdn, hen])
  exact hde ⟨hdd.1.symm.trans (hagree.1.trans hee.1), hdd.2.symm.trans (hagree.2.trans hee.2)⟩

theorem filter_navigable_implementing_eq_nil (hg : g.WellFormed) (hc : g.isClass c = true) (hi : g.isInterface i = true)
    (hred : g.Redundant c i) {name : String} (h : ∀ d ∈ (g.resolve c).navigable, d.role.name ≠ name) :
    ((g.implementing c i).resolve c).navigable.filter (fun d => d.role.name = name) = [] := by
  rw [List.filter_eq_nil_iff]
  intro d hd hn
  obtain ⟨e, he, hen, -⟩ := exists_navigable_of_implementing hg hc hi hred hd
  exact h e he (hen.trans (of_decide_eq_true hn))

/-- **The declarations of one name**: the old ones in front, and none where there were none. -/
theorem exists_filter_navigable_implementing (hg : g.WellFormed) (hc : g.isClass c = true) (hi : g.isInterface i = true)
    (hred : g.Redundant c i) (hclean : ∀ name, ¬ (g.resolve c).Disputed name) (name : String) :
    ∃ more, ((g.implementing c i).resolve c).navigable.filter (fun d => d.role.name = name) =
        (g.resolve c).navigable.filter (fun d => d.role.name = name) ++ more ∧
      ((g.resolve c).navigable.filter (fun d => d.role.name = name) = [] → more = []) := by
  by_cases h : ∃ d ∈ (g.resolve c).navigable, d.role.name = name
  · obtain ⟨d, hd, rfl⟩ := h
    have hold : ∀ e ∈ (g.resolve c).navigable, decide (e.role.name = d.role.name) = true →
        (e.role.name, e.role.target) = (d.role.name, d.role.target) :=
      fun e he hn => key_eq_of_name_eq hclean hd he (of_decide_eq_true hn)
    have hnew : ∀ e ∈ ((g.implementing c i).resolve c).navigable, decide (e.role.name = d.role.name) = true →
        (e.role.name, e.role.target) = (d.role.name, d.role.target) := fun e he hn => by
      obtain ⟨e', he', hn', hagree⟩ := exists_navigable_of_implementing hg hc hi hred he
      rw [← hold e' he' (decide_eq_true (hn'.trans (of_decide_eq_true hn))), hn', hagree.1]
    obtain ⟨more, -, hdecl⟩ := exists_declared_implementing hg hc hi
    have hnil : (g.resolve c).navigable.filter (fun e => e.role.name = d.role.name) ≠ [] :=
      List.ne_nil_of_mem (List.mem_filter.2 ⟨hd, decide_eq_true rfl⟩)
    rw [filter_navigable _ c _ _ hnew, hdecl, List.filter_append, ← filter_navigable g c _ _ hold]
    exact ⟨_, rfl, fun h => absurd h hnil⟩
  · have hnone : ∀ d ∈ (g.resolve c).navigable, d.role.name ≠ name := fun d hd hn => h ⟨d, hd, hn⟩
    refine ⟨[], ?_, fun _ => rfl⟩
    rw [filter_navigable_implementing_eq_nil hg hc hi hred hnone, List.append_nil]
    exact (List.filter_eq_nil_iff.2 (fun d hd hn => hnone d hd (of_decide_eq_true hn))).symm

/-- **A redundant interface changes nothing but provenance.**  A class that does not fail, given one more interface
whose navigable roles it declares already, does not fail, and its methods are the same ones in the same order; each
has the trails that it had, and more may come behind them. -/
theorem redundant_interface_adds_trails {s : Source} {g : Graph} (hs : ofSource s = .ok g) {c i : TypeId}
    (hc : g.isClass c = true) (hi : g.isInterface i = true) {ms : List Method} (hms : (g.reportOn c).methods? = some ms)
    (hred : g.Redundant c i) :
    ∃ ms', ((g.implementing c i).reportOn c).methods? = some ms' ∧ List.Forall₂ Method.Extends ms ms' := by
  have hg := wellFormed_of_ofSource hs
  have hclean := not_disputed_of_methods? hms
  rw [methods?_reportOn hclean, Option.some.injEq] at hms
  subst hms
  refine ⟨_, methods?_reportOn (not_disputed_implementing hg hc hi hred hclean), ?_⟩
  obtain ⟨new, horder, hnew⟩ := exists_roleOrder_implementing hg hc hi
  -- a name that is new has no navigable declaration
  have hempty : (new.flatMap fun name => block c
      (((g.implementing c i).resolve c).navigable.filter fun d => d.role.name = name)) = [] := by
    rw [List.flatMap_eq_nil_iff]
    intro name hname
    have hnone : ∀ d ∈ (g.resolve c).navigable, d.role.name ≠ name := fun d hd hn =>
      hnew name hname (hn ▸ name_mem_roleOrder hd)
    rw [filter_navigable_implementing_eq_nil hg hc hi hred hnone]
    rfl
  rw [horder, List.flatMap_append, hempty, List.append_nil]
  refine List.rel_flatMap (R := fun a b => a = b) (List.forall₂_same.2 (fun _ _ => rfl)) ?_
  rintro name _ rfl
  obtain ⟨more, hmore, hnil⟩ := exists_filter_navigable_implementing hg hc hi hred hclean name
  dsimp only
  rw [hmore]
  exact extends_block c _ more hnil

/-- The third interface says nothing new of the student's courses, and so adds one trail to each method. -/
theorem redundant_interface_adds_trails_enrolment : enrolment.isClass ⟨3⟩ = true ∧ enrolment.isInterface ⟨5⟩ = true ∧
    enrolment.Redundant ⟨3⟩ ⟨5⟩ ∧ ∃ ms ms', (enrolment.reportOn ⟨3⟩).methods? = some ms ∧
      ((enrolment.implementing ⟨3⟩ ⟨5⟩).reportOn ⟨3⟩).methods? = some ms' ∧ List.Forall₂ Method.Extends ms ms' ∧
      (ms.map fun m => m.provenance.trails.length) = [3, 3, 3] ∧
      (ms'.map fun m => m.provenance.trails.length) = [4, 4, 4] := by
  have hc : enrolment.isClass ⟨3⟩ = true := by decide
  have hi : enrolment.isInterface ⟨5⟩ = true := by decide
  have hred : enrolment.Redundant ⟨3⟩ ⟨5⟩ := by
    have hroles : ∀ n ∈ enrolment.types, ∀ r ∈ n.roles,
        r.name = "courses" ∧ r.target = ⟨4⟩ ∧ r.multiplicity = .many := by decide
    obtain ⟨d, hd, hname, htarget, hmul⟩ : ∃ d ∈ (enrolment.resolve ⟨3⟩).navigable,
        d.role.name = "courses" ∧ d.role.target = ⟨4⟩ ∧ d.role.multiplicity = .many :=
      ⟨_, List.mem_cons_self, rfl, rfl, rfl⟩
    intro t role _ hr _
    obtain ⟨n, hn, hr⟩ := mem_roles.1 hr
    obtain ⟨hn', ht', hm'⟩ := hroles n (List.mem_of_getElem? hn) role hr
    exact ⟨d, hd, hname.trans hn'.symm, htarget.trans ht'.symm, hmul.trans hm'.symm⟩
  have hlen : (enrolment.reportOn ⟨3⟩).methods?.map (·.map fun m => m.provenance.trails.length) = some [3, 3, 3] := rfl
  have hlen' : ((enrolment.implementing ⟨3⟩ ⟨5⟩).reportOn ⟨3⟩).methods?.map
      (·.map fun m => m.provenance.trails.length) = some [4, 4, 4] := rfl
  obtain ⟨ms, hms⟩ : ∃ ms, (enrolment.reportOn ⟨3⟩).methods? = some ms := ⟨_, rfl⟩
  obtain ⟨ms', hms', hext⟩ := redundant_interface_adds_trails ofSource_enrolment hc hi hms hred
  rw [hms, Option.map_some, Option.some.injEq] at hlen
  rw [hms', Option.map_some, Option.some.injEq] at hlen'
  exact ⟨hc, hi, hred, ms, ms', hms, hms', hext, hlen, hlen'⟩

end Graph
end Accessors
