import Accessors.Proofs.Generation
import Accessors.Proofs.Linking
import Accessors.Proofs.Preorder
/-!
# The chain of superclasses

From a class, the walk up comes to other classes only over superclasses, and by them before it comes to what they
implement.  So the classes that the search enters are the chain of superclasses, nearest first
(`Graph.exists_superclassChain`), and the roles that a class merges are those held along the chain: the first one of the
nearest class that holds one is kept, and a tie is broken with each later one of another multiplicity
(`Graph.resolve_prefers_nearest_class`).  A chain may come back on itself, and a class may hold a role twice.
-/
namespace Accessors

/-- The one class that a class extends. -/
def Heritage.superclass? : Heritage → Option TypeId
  | .ofClass superclass _ => superclass
  | .ofInterface _ => none

namespace Graph

def superclass? (g : Graph) (t : TypeId) : Option TypeId := (g.node? t).bind (·.heritage.superclass?)

/-- The class `t` and those up from it, from superclass to superclass, until there is none or one of the chain or of the
classes `above` comes again. -/
structure SuperclassChain (g : Graph) (above : List TypeId) (t : TypeId) (chain : List TypeId) : Prop where
  starts : chain.head? = if t ∈ above then none else some t
  steps : chain.IsChain fun a b => g.superclass? a = some b
  nodup : (above ++ chain).Nodup
  closed : ∀ a ∈ chain, ∀ b ∈ g.superclass? a, b ∈ above ++ chain

/-- The way along a chain up to one of its types. -/
def wayTo (chain : List TypeId) (t : TypeId) : List TypeId := chain.takeWhile (· ≠ t) ++ [t]

theorem wayTo_cons_self (t : TypeId) (chain : List TypeId) : wayTo (t :: chain) t = [t] := by
  unfold wayTo
  rw [List.takeWhile_cons_of_neg (by simp)]
  rfl

theorem wayTo_cons_of_ne {t u : TypeId} (h : t ≠ u) (chain : List TypeId) : wayTo (t :: chain) u = t :: wayTo chain u := by
  unfold wayTo
  rw [List.takeWhile_cons_of_pos (by simpa using h)]
  rfl

variable {s : Source} {g : Graph} {o t : TypeId}

/-! ## The classes on the walk up -/

theorem superclass?_of_node? {n : TypeNode} (hn : g.node? t = some n) : g.superclass? t = n.heritage.superclass? := by
  unfold superclass?
  rw [hn]
  rfl

theorem isClass_iff : g.isClass t = true ↔ ∃ n superclass interfaces, g.node? t = some n ∧
    n.heritage = .ofClass superclass interfaces := by
  unfold isClass
  cases hn : g.node? t with
  | none => simp
  | some n => cases hher : n.heritage <;> simp [Heritage.isClass, hher]

theorem isClass_of_superclass? (hs : ofSource s = .ok g) {p : TypeId} (h : g.superclass? t = some p) :
    g.isClass p = true := by
  unfold superclass? at h
  obtain ⟨n, hn, hp⟩ := Option.bind_eq_some_iff.1 h
  cases hher : n.heritage with
  | ofClass superclass interfaces =>
    rw [hher] at hp
    exact (kinds_of_ofClass hs hn hher).1 p hp
  | ofInterface extended =>
    rw [hher] at hp
    cases hp

theorem edge_of_superclass? {p : TypeId} (h : g.superclass? t = some p) : g.Edge t p := by
  unfold superclass? at h
  obtain ⟨n, hn, hp⟩ := Option.bind_eq_some_iff.1 h
  apply mem_parents.2
  refine ⟨n, hn, ?_⟩
  cases hher : n.heritage with
  | ofClass superclass interfaces =>
    rw [hher] at hp
    exact List.mem_append_left _ (Option.mem_toList.2 hp)
  | ofInterface extended =>
    rw [hher] at hp
    cases hp

theorem isInterface_eq_not_isClass {n : TypeNode} (hn : g.node? t = some n) : g.isInterface t = !g.isClass t := by
  unfold isInterface isClass Heritage.isInterface
  rw [hn]
  rfl

theorem reaches_of_mem_preorder (above : List TypeId) (t : TypeId) : ∀ v ∈ g.preorder above t, g.Reaches t v.1 := by
  induction above, t using preorder.induct g with
  | case1 above t hmem =>
    rw [preorder_of_mem hmem]
    intro v hv
    cases hv
  | case2 above t hmem ih =>
    rw [preorder_of_notMem hmem]
    intro v hv
    rcases List.mem_cons.1 hv with rfl | hv
    · exact .refl
    · obtain ⟨p, hp, hv⟩ := List.mem_flatMap.1 hv
      exact .head hp (ih ⟨p, hp⟩ v hv)

/-- From an interface the walk comes to no class. -/
theorem filter_preorder_of_isInterface (hg : g.WellFormed) (ht : g.isInterface t = true) (above : List TypeId) :
    (g.preorder above t).filter (fun v => g.isClass v.1) = [] := by
  apply List.filter_eq_nil_iff.2
  intro v hv hc
  have hi := hg.isInterface_of_reaches ht (reaches_of_mem_preorder above t v hv)
  exact ne_of_isClass_of_isInterface hc hi rfl

/-- **From a class the walk comes to the classes that its superclass leads to**, and to no others. -/
theorem filter_preorder_of_isClass (hs : ofSource s = .ok g) (ht : g.isClass t = true) {above : List TypeId}
    (hnew : t ∉ above) : (g.preorder above t).filter (fun v => g.isClass v.1) =
      (t, above ++ [t]) :: (g.superclass? t).toList.flatMap fun p =>
        (g.preorder (above ++ [t]) p).filter fun v => g.isClass v.1 := by
  obtain ⟨n, superclass, interfaces, hn, hher⟩ := isClass_iff.1 ht
  have hsuper : g.superclass? t = superclass := by
    rw [superclass?_of_node? hn, hher]
    rfl
  have hparents : g.parents t = superclass.toList ++ interfaces := by
    unfold parents
    rw [hn, Option.elim_some, hher]
    rfl
  have hinterfaces : interfaces.flatMap (fun i => (g.preorder (above ++ [t]) i).filter fun v => g.isClass v.1) = [] := by
    apply List.flatMap_eq_nil_iff.2
    intro i hi
    exact filter_preorder_of_isInterface (wellFormed_of_ofSource hs) ((kinds_of_ofClass hs hn hher).2 i hi) _
  rw [preorder_of_notMem hnew, List.filter_cons, if_pos ht, List.filter_flatMap, hparents, List.flatMap_append,
    hinterfaces, List.append_nil, hsuper]

/-- The way goes along the chain from what is above it. -/
theorem map_wayTo_cons {chain : List TypeId} (ht : t ∉ chain) (above : List TypeId) :
    (t :: chain).map (fun x => (x, above ++ wayTo (t :: chain) x)) =
      (t, above ++ [t]) :: chain.map fun x => (x, above ++ [t] ++ wayTo chain x) := by
  rw [List.map_cons, wayTo_cons_self]
  refine congrArg ((t, above ++ [t]) :: ·) (List.map_congr_left fun x hx => ?_)
  have hne : t ≠ x := fun he => ht (he ▸ hx)
  rw [wayTo_cons_of_ne hne, List.append_assoc, List.singleton_append]

/-- **The classes on the walk up from a class** are a chain of superclasses, each met on the way along the chain. -/
theorem exists_superclassChain_preorder (hs : ofSource s = .ok g) (above : List TypeId) (t : TypeId)
    (ht : g.isClass t = true) (habove : above.Nodup) : ∃ chain, g.SuperclassChain above t chain ∧
      (g.preorder above t).filter (fun v => g.isClass v.1) = chain.map fun x => (x, above ++ wayTo chain x) := by
  induction above, t using preorder.induct g with
  | case1 above t hmem =>
    refine ⟨[], ⟨?_, .nil, ?_, ?_⟩, ?_⟩
    · rw [if_pos hmem]
      rfl
    · rwa [List.append_nil]
    · intro a ha
      cases ha
    · rw [preorder_of_mem hmem]
      rfl
  | case2 above t hmem ih =>
    have hpath : (above ++ [t]).Nodup := by
      rw [← List.concat_eq_append]
      exact habove.concat hmem
    rw [filter_preorder_of_isClass hs ht hmem]
    cases hsuper : g.superclass? t with
    | none =>
      refine ⟨[t], ⟨?_, .singleton t, hpath, ?_⟩, ?_⟩
      · rw [if_neg hmem]
        rfl
      · intro a ha b hb
        rw [List.mem_singleton.1 ha, hsuper] at hb
        cases hb
      · rw [map_wayTo_cons (List.not_mem_nil)]
        rfl
    | some p =>
      obtain ⟨chain, hchain, hvisits⟩ := ih ⟨p, edge_of_superclass? hsuper⟩ (isClass_of_superclass? hs hsuper) hpath
      have htail : (above ++ t :: chain).Nodup := by
        rw [List.append_cons]
        exact hchain.nodup
      refine ⟨t :: chain, ⟨?_, ?_, htail, ?_⟩, ?_⟩
      · rw [if_neg hmem]
        rfl
      · apply List.IsChain.cons hchain.steps
        intro x hx
        rw [hchain.starts] at hx
        split at hx
        · cases hx
        · cases hx
          exact hsuper
      · intro a ha b hb
        rw [List.append_cons]
        rcases List.mem_cons.1 ha with rfl | ha
        · rw [hsuper] at hb
          cases hb
          by_cases hp : p ∈ above ++ [a]
          · exact List.mem_append_left _ hp
          · have hhead := hchain.starts
            rw [if_neg hp] at hhead
            exact List.mem_append_right _ (List.mem_of_head? hhead)
        · exact hchain.closed a ha b hb
      · have hnew : t ∉ chain := (List.nodup_cons.1 (List.nodup_append.1 htail).2.1).1
        rw [Option.toList_some, List.flatMap_singleton, hvisits, map_wayTo_cons hnew]

theorem SuperclassChain.isClass_of_mem (hs : ofSource s = .ok g) (ho : g.isClass o = true) {chain : List TypeId}
    (h : g.SuperclassChain [] o chain) : ∀ t ∈ chain, g.isClass t = true := by
  obtain ⟨hstarts, hsteps, -, -⟩ := h
  cases chain with
  | nil => cases hstarts
  | cons c chain =>
    cases hstarts
    exact List.IsChain.induction (fun t => g.isClass t = true) _ hsteps
      (fun {a b} hab _ => isClass_of_superclass? hs hab) (fun _ => ho)

/-- **The classes that the search enters** are the chain of superclasses, nearest first, each by the way along the
chain. -/
theorem exists_superclassChain (hs : ofSource s = .ok g) (ho : g.isClass o = true) : ∃ chain,
    g.SuperclassChain [] o chain ∧
      (g.ancestry o).visits.filter (fun v => g.isClass v.1) = chain.map fun t => (t, wayTo chain t) := by
  obtain ⟨chain, hchain, hvisits⟩ := exists_superclassChain_preorder hs [] o ho List.nodup_nil
  refine ⟨chain, hchain, ?_⟩
  have hnodup : ([] ++ (chain.map fun t => (t, [] ++ wayTo chain t)).map Prod.fst).Nodup := by
    rw [List.map_map]
    exact (List.map_id chain).symm ▸ hchain.nodup
  rw [(ancestry_follows_preorder g o).1, firsts_filter Prod.fst g.isClass _ (fun _ _ => Iff.rfl), hvisits,
    firsts_eq_self Prod.fst hnodup]
  rfl

/-! ## The roles along the chain -/

open Resolution

/-- A role that is held along the chain, as a candidate. -/
def candidateAlong (chain : List TypeId) (r : Role) : Candidate := ⟨r, ⟨wayTo chain r.holder, r.origin⟩⟩

/-- The roles of one name and one target that types hold, one type after the other. -/
def rolesAlong (g : Graph) (chain : List TypeId) (name : String) (target : TypeId) : List Role :=
  (chain.flatMap g.roles).filter fun r => r.name = name && r.target = target

/-- The roles of a type that was visited are contracts of a class just if the type is no class. -/
theorem filter_candidates_of_visit (ho : g.isClass o = true) {v : TypeId × List TypeId} (hv : v.2.getLast? = some v.1) :
    ((g.roles v.1).map fun r => (⟨r, ⟨v.2, r.origin⟩⟩ : Candidate)).filter (fun c => !isContract g o c) =
      if g.isClass v.1 then (g.roles v.1).map fun r => ⟨r, ⟨v.2, r.origin⟩⟩ else [] := by
  have hcontract : ∀ r ∈ g.roles v.1, isContract g o ⟨r, ⟨v.2, r.origin⟩⟩ = !g.isClass v.1 := by
    intro r hr
    obtain ⟨n, hn, -⟩ := mem_roles.1 hr
    unfold isContract Trail.holder?
    rw [ho, hv, Option.any_some, Bool.true_and, isInterface_eq_not_isClass hn]
  split
  · rename_i hc
    apply List.filter_eq_self.2
    intro c hm
    obtain ⟨r, hr, rfl⟩ := List.mem_map.1 hm
    simp [hcontract r hr, hc]
  · rename_i hc
    apply List.filter_eq_nil_iff.2
    intro c hm
    obtain ⟨r, hr, rfl⟩ := List.mem_map.1 hm
    simp [hcontract r hr, hc]

/-- **What a class merges** are the roles held along the chain. -/
theorem filter_group_of_isClass (hg : g.WellFormed) (ho : g.isClass o = true) {chain : List TypeId}
    (hvisits : (g.ancestry o).visits.filter (fun v => g.isClass v.1) = chain.map fun t => (t, wayTo chain t))
    (name : String) (target : TypeId) :
    (group (candidates g (g.ancestry o)) name target).filter (fun c => !isContract g o c) =
      (g.rolesAlong chain name target).map (candidateAlong chain) := by
  have hown : (candidates g (g.ancestry o)).filter (fun c => !isContract g o c) =
      (chain.flatMap g.roles).map (candidateAlong chain) := by
    rw [candidates_eq_visits, List.filter_flatMap,
      List.flatMap_congr fun v hv => filter_candidates_of_visit ho (Ancestry.getLast?_of_mem_visits hv),
      ← flatMap_filter (fun v : TypeId × List TypeId => g.isClass v.1), hvisits, List.flatMap_map, List.map_flatMap]
    refine List.flatMap_congr fun t _ => List.map_congr_left fun r hr => ?_
    unfold candidateAlong
    rw [hg.holder_eq t r hr]
  unfold group rolesAlong
  rw [List.filter_comm, hown]
  exact filter_map_of_mem fun _ _ => rfl

/-- The first role along a chain is the first one of the nearest type that holds one. -/
theorem head?_rolesAlong (chain : List TypeId) (name : String) (target : TypeId) :
    (g.rolesAlong chain name target).head? =
      chain.findSome? fun t => (g.roles t).find? fun r => r.name = name && r.target = target := by
  unfold rolesAlong
  rw [List.filter_flatMap, List.head?_flatMap]
  simp only [List.head?_filter]

/-- The ties that the report on a type tells of are those broken in resolving its roles. -/
theorem filter_tieBreaks_reportOn (g : Graph) (o : TypeId) :
    (g.reportOn o).diagnostics.filter (fun d => d.cause.kind = "multiplicity-tie-break") =
      (g.resolve o).roles.flatMap fun resolved => resolved.tieBreaks.map (tieBreakDiagnostic g o) := by
  have hcycles : ((g.resolve o).cycles.map (cycleDiagnostic g o)).filter
      (fun d => d.cause.kind = "multiplicity-tie-break") = [] := by
    apply List.filter_eq_nil_iff.2
    intro d hd
    obtain ⟨c, -, rfl⟩ := List.mem_map.1 hd
    simp [cycleDiagnostic, Diagnostic.Cause.kind]
  have hconflicts : ∀ cs : List Conflict, (cs.map (Conflict.diagnostic g o)).filter
      (fun d => d.cause.kind = "multiplicity-tie-break") = [] := by
    intro cs
    apply List.filter_eq_nil_iff.2
    intro d hd
    obtain ⟨c, -, rfl⟩ := List.mem_map.1 hd
    simp [Conflict.diagnostic, Diagnostic.Cause.kind]
  have hties : ∀ d ∈ (g.resolve o).roles.flatMap (fun resolved => resolved.tieBreaks.map (tieBreakDiagnostic g o)),
      decide (d.cause.kind = "multiplicity-tie-break") = true := by
    intro d hd
    obtain ⟨resolved, -, hd⟩ := List.mem_flatMap.1 hd
    obtain ⟨t, -, rfl⟩ := List.mem_map.1 hd
    rfl
  have howner : (g.resolve o).owner = o := rfl
  rw [diagnostics_reportOn_eq, List.filter_append, hconflicts, List.append_nil]
  unfold Resolution.diagnostics
  rw [howner, List.filter_append, hcycles, List.nil_append, List.filter_eq_self.2 hties]

theorem isClass_of_mem_rolesAlong (hg : g.WellFormed) {chain : List TypeId} (hclass : ∀ t ∈ chain, g.isClass t = true)
    {name : String} {target : TypeId} {r : Role} (h : r ∈ g.rolesAlong chain name target) :
    g.isClass r.holder = true := by
  obtain ⟨t, ht, hr⟩ := List.mem_flatMap.1 (List.mem_filter.1 h).1
  rw [hg.holder_eq t r hr]
  exact hclass t ht

/-- **The nearest class wins.**  Of the roles of one name and one target that are held along its chain of superclasses,
a class keeps the first one of the nearest class that holds one.  With each role behind it that has another
multiplicity a tie is broken, in order, and just these are the discarded alternatives.  Nothing else breaks a tie: the
warnings of the class are those of its associations, and no contract is on either side of one. -/
theorem resolve_prefers_nearest_class (hs : ofSource s = .ok g) (ho : g.isClass o = true) :
    ∃ chain, g.SuperclassChain [] o chain ∧ (∀ t ∈ chain, g.isClass t = true) ∧
      (g.reportOn o).diagnostics.filter (fun d => d.cause.kind = "multiplicity-tie-break") =
        (g.resolve o).roles.flatMap (fun resolved => resolved.tieBreaks.map (tieBreakDiagnostic g o)) ∧
      ∀ resolved ∈ (g.resolve o).roles,
        (∀ d ∈ resolved.declarations, d.isContract = false →
          (chain.findSome? fun t => (g.roles t).find? fun r => r.name = resolved.name && r.target = resolved.target) =
            some d.role ∧
          (∃ others, g.rolesAlong chain resolved.name resolved.target = d.role :: others ∧
            resolved.tieBreaks = (others.filter fun r => r.multiplicity ≠ d.role.multiplicity).map fun r =>
              ⟨candidateAlong chain d.role, candidateAlong chain r⟩) ∧
          d.provenance.discarded = resolved.tieBreaks.map fun t => ⟨t.lost.trail, t.lost.role.bounds⟩) ∧
        ((∀ d ∈ resolved.declarations, d.isContract = true) → resolved.tieBreaks = []) ∧
        ∀ t ∈ resolved.tieBreaks, g.isClass t.kept.role.holder = true ∧ g.isClass t.lost.role.holder = true := by
  obtain ⟨chain, hchain, hvisits⟩ := exists_superclassChain hs ho
  have hg := wellFormed_of_ofSource hs
  have hclass := hchain.isClass_of_mem hs ho
  refine ⟨chain, hchain, hclass, filter_tieBreaks_reportOn g o, fun resolved hresolved => ?_⟩
  rw [resolve_roles] at hresolved
  obtain ⟨⟨name, target⟩, -, rfl⟩ := List.mem_map.1 hresolved
  have hown := filter_group_of_isClass hg ho hvisits name target
  simp only [name_resolveRole, target_resolveRole]
  refine ⟨fun d hd hc => ?_, tieBreaks_eq_nil_of_isContract, fun t ht => ?_⟩
  · obtain ⟨kept, others, hfamily, rfl, hties⟩ := family_resolveRole hd hc
    rw [hown] at hfamily
    obtain ⟨first, rest, hroles, rfl, rfl⟩ := List.map_eq_cons_iff.1 hfamily
    rw [hties, ← head?_rolesAlong, hroles]
    refine ⟨rfl, ⟨rest, rfl, ?_⟩, ?_⟩
    · have hlost : (rest.map (candidateAlong chain)).filter
          (fun c => c.role.multiplicity ≠ (candidateAlong chain first).role.multiplicity) =
            (rest.filter fun r => r.multiplicity ≠ first.multiplicity).map (candidateAlong chain) :=
        filter_map_of_mem fun _ _ => rfl
      unfold merged
      simp only [hlost, List.map_map]
      rfl
    · unfold merged
      rw [List.map_map]
      rfl
  · obtain ⟨hkept, hlost⟩ := mem_tieBreaks_resolveRole ht
    rw [hown] at hkept hlost
    obtain ⟨r, hr, hk⟩ := List.mem_map.1 hkept
    obtain ⟨r', hr', hl⟩ := List.mem_map.1 hlost
    rw [← hk, ← hl]
    exact ⟨isClass_of_mem_rolesAlong hg hclass hr, isClass_of_mem_rolesAlong hg hclass hr'⟩

end Graph

/-! ## An example -/

/-- Two classes above each other, of which one holds a role twice and the other one once, of another multiplicity; and an
interface that has the role as well. -/
def Source.squad : Source :=
  (Source.empty.withDefinition
      ((((Definition.draft .ofClass "Captain").withSupertype "Player").withSupertype "Member").withRole "clubs" "Club"
        ⟨0, some 1⟩)
    |>.withDefinition
      ((((Definition.draft .ofClass "Player").withSupertype "Captain").withRole "clubs" "Club" .any).withRole "clubs" "Club"
        ⟨1, none⟩)
    |>.withDefinition ((Definition.draft .ofInterface "Member").withRole "clubs" "Club" .any)
    |>.withDefinition (Definition.draft .ofClass "Club"))

def Graph.squad : Graph := (Graph.ofSource .squad).toOption.getD ⟨none, []⟩

/-- The captain's own role is kept over both of the player's, and not compared with the member's. -/
theorem Graph.resolve_prefers_nearest_class_squad : Graph.ofSource .squad = .ok .squad ∧ squad.isClass ⟨0⟩ = true ∧
    (squad.resolve ⟨0⟩).roles.flatMap (fun resolved => resolved.declarations.map fun d => (d.isContract, d.role.bounds)) =
      [(false, ⟨0, some 1⟩), (true, .any)] ∧
    (squad.resolve ⟨0⟩).roles.flatMap (fun resolved => resolved.tieBreaks.map fun t => t.lost.role.bounds) =
      [.any, ⟨1, none⟩] ∧
    ∃ chain, squad.SuperclassChain [] ⟨0⟩ chain ∧ ∀ resolved ∈ (squad.resolve ⟨0⟩).roles,
      ∀ d ∈ resolved.declarations, d.isContract = false →
        (chain.findSome? fun t => (squad.roles t).find? fun r => r.name = resolved.name && r.target = resolved.target) =
          some d.role := by
  have hs : Graph.ofSource .squad = .ok .squad := rfl
  have ho : squad.isClass ⟨0⟩ = true := rfl
  obtain ⟨chain, hchain, -, -, hroles⟩ := resolve_prefers_nearest_class hs ho
  exact ⟨hs, ho, rfl, rfl, chain, hchain, fun resolved hr d hd hc => ((hroles resolved hr).1 d hd hc).1⟩

end Accessors
