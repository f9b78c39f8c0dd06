import Accessors.Proofs.Cycles
import Accessors.Proofs.Preorder
/-!
# Roles that two ways lead to

An interface keeps the first role of a name and a target that the search comes to.  A type on the way to the role's
holder is met before the holder, so if it held such a role, its role would have been kept: no type on the way gives way
to the types above it (`Graph.eq_of_find?_visits`).  But the search may come to the holder by a way of which another one
is a detour, and what is held on the detour comes too late.  So without cycles, a role gives way to that of a type above
its own holder just if it is held on another way to that type (`Graph.lost_below_kept_iff`).
-/
namespace Accessors
namespace Graph

open Relation (TransGen)
open Resolution

variable {s : Source} {g : Graph} {o t u w : TypeId}

/-! ## What is met first -/

/-- **Where the walk meets the first type of a kind**, it comes by no other type of that kind. -/
theorem eq_of_find?_preorder (p : TypeId → Bool) (above : List TypeId) (t : TypeId) {v : TypeId × List TypeId}
    (h : (g.preorder above t).find? (fun v => p v.1) = some v) : ∀ x ∈ v.2, p x = true → x ∈ above ∨ x = v.1 := by
  induction above, t using preorder.induct g with
  | case1 above t hmem =>
    rw [preorder_of_mem hmem] at h
    cases h
  | case2 above t hmem ih =>
    rw [preorder_of_notMem hmem, List.find?_cons] at h
    intro x hx hpx
    by_cases hp : p t = true
    · simp only [hp] at h
      cases h
      rcases List.mem_append.1 hx with hx | hx
      · exact .inl hx
      · exact .inr (List.mem_singleton.1 hx)
    · simp only [hp] at h
      rw [List.find?_flatMap] at h
      obtain ⟨parent, hparent, hfirst⟩ := List.exists_of_findSome?_eq_some h
      rcases ih ⟨parent, hparent⟩ hfirst x hx hpx with hx | hx
      · rcases List.mem_append.1 hx with hx | hx
        · exact .inl hx
        · rw [List.mem_singleton.1 hx] at hpx
          exact absurd hpx hp
      · exact .inr hx

theorem find?_visits (g : Graph) (o : TypeId) (p : TypeId → Bool) :
    (g.ancestry o).visits.find? (fun v => p v.1) = (g.preorder [] o).find? (fun v => p v.1) := by
  have hhead : ∀ l : List (TypeId × List TypeId), (firsts Prod.fst [] l).head? = l.head? := by
    intro l
    cases l <;> rfl
  rw [← List.head?_filter, ← List.head?_filter, (ancestry_follows_preorder g o).1,
    firsts_filter Prod.fst p _ (fun _ _ => Iff.rfl), hhead]

theorem eq_of_find?_visits {p : TypeId → Bool} {v : TypeId × List TypeId}
    (h : (g.ancestry o).visits.find? (fun v => p v.1) = some v) {x : TypeId} (hx : x ∈ v.2) (hpx : p x = true) :
    x = v.1 := by
  rw [find?_visits] at h
  rcases eq_of_find?_preorder p [] o h x hx hpx with hx | hx
  · cases hx
  · exact hx

/-! ## Ways over a type -/

/-- Without cycles, a way that goes on from a type never comes back to it. -/
theorem exists_isPath_over (hacyclic : ∀ t, ¬ TransGen g.Edge t t) (hu : g.Reaches o u) (hw : g.Reaches u w) :
    ∃ way, g.IsPath o w way ∧ u ∈ way := by
  induction hw with
  | refl =>
    obtain ⟨way, -, hway, -⟩ := filter_paths_ancestry hu
    exact ⟨way, hway, hway.mem_end⟩
  | tail _ he ih =>
    obtain ⟨way, hway, hm⟩ := ih
    refine ⟨_, hway.concat he fun hback => ?_, List.mem_append_left _ hm⟩
    exact hacyclic _ (transGen_of_edge_back hway hback he)

theorem IsPath.transGen_of_mem {way : List TypeId} (h : g.IsPath o w way) (hu : u ∈ way) (hne : u ≠ w) :
    TransGen g.Edge u w := by
  rcases Relation.reflTransGen_iff_eq_or_transGen.1 (h.dropWhile hu).reaches with he | hpath
  · exact absurd he.symm hne
  · exact hpath

/-! ## The role that an interface keeps -/

/-- Whether a type holds a role of this name and target. -/
def holdsRole (g : Graph) (name : String) (target : TypeId) (t : TypeId) : Bool :=
  (g.roles t).any fun r => r.name = name && r.target = target

theorem head?_group (g : Graph) (o : TypeId) (name : String) (target : TypeId) :
    (group (candidates g (g.ancestry o)) name target).head? = (g.ancestry o).visits.findSome? fun v =>
      ((g.roles v.1).find? fun r => r.name = name && r.target = target).map fun r => ⟨r, ⟨v.2, r.origin⟩⟩ := by
  unfold group
  rw [candidates_eq_visits, List.filter_flatMap, List.head?_flatMap]
  refine congrArg (fun f => List.findSome? f (g.ancestry o).visits) (funext fun v => ?_)
  rw [List.head?_filter, List.find?_map]
  rfl

/-- **The first candidate** is the first role of the first type that holds one. -/
theorem exists_visit_of_group {name : String} {target : TypeId} {kept : Candidate} {others : List Candidate}
    (h : group (candidates g (g.ancestry o)) name target = kept :: others) : ∃ t,
      (g.ancestry o).visits.find? (fun v => g.holdsRole name target v.1) = some (t, kept.trail.types) ∧
        (g.roles t).find? (fun r => r.name = name && r.target = target) = some kept.role := by
  have hhead := head?_group g o name target
  rw [h] at hhead
  obtain ⟨before, v, behind, hvisits, hv, hbefore⟩ := List.findSome?_eq_some_iff.1 hhead.symm
  obtain ⟨r, hr, hkept⟩ := Option.map_eq_some_iff.1 hv
  refine ⟨v.1, ?_, ?_⟩
  · rw [← hkept]
    refine List.find?_eq_some_iff_append.2 ⟨List.any_eq_true.2 ⟨r, List.mem_of_find?_eq_some hr, ?_⟩, before, behind,
      hvisits, fun x hx => ?_⟩
    · exact List.find?_some (p := fun r : Role => r.name = name && r.target = target) hr
    · have hnone := Option.map_eq_none_iff.1 (hbefore x hx)
      unfold holdsRole
      simpa using hnone
  · rw [← hkept]
    exact hr

section Kept

variable {name : String} {target : TypeId} {kept : Candidate} {others : List Candidate}
  (h : group (candidates g (g.ancestry o)) name target = kept :: others)

include h

theorem isPath_of_group (hg : g.WellFormed) : g.IsPath o kept.role.holder kept.trail.types := by
  have hkept : kept ∈ group (candidates g (g.ancestry o)) name target := by
    rw [h]
    exact List.mem_cons_self
  obtain ⟨t, path, -, hpath, hr, htrail⟩ := mem_candidates (mem_group.1 hkept).1
  rw [htrail, hg.holder_eq t _ hr]
  exact hpath

/-- On the way to the holder of the role that is kept, no other type holds such a role. -/
theorem eq_of_mem_kept_trail (hg : g.WellFormed) {x : TypeId} (hx : x ∈ kept.trail.types)
    (hholds : g.holdsRole name target x = true) : x = kept.role.holder := by
  obtain ⟨t, hfirst, hr⟩ := exists_visit_of_group h
  rw [hg.holder_eq t _ (List.mem_of_find?_eq_some hr)]
  exact eq_of_find?_visits hfirst hx hholds

/-- **A role that is kept above one that is not** is led to by two ways: the one that it was found by, and one over the
holder of the other role. -/
theorem transGen_kept_iff (hg : g.WellFormed) (hacyclic : ∀ t, ¬ TransGen g.Edge t t) (hu : g.Reaches o u)
    (hholds : g.holdsRole name target u = true) : TransGen g.Edge u kept.role.holder ↔
      ∃ way, g.IsPath o kept.role.holder way ∧ u ∈ way ∧ u ∉ kept.trail.types := by
  constructor
  · intro hbelow
    obtain ⟨way, hway, hm⟩ := exists_isPath_over hacyclic hu hbelow.to_reflTransGen
    refine ⟨way, hway, hm, fun hmem => ?_⟩
    rw [eq_of_mem_kept_trail h hg hmem hholds] at hbelow
    exact hacyclic _ hbelow
  · rintro ⟨way, hway, hm, hoff⟩
    apply hway.transGen_of_mem hm
    rintro rfl
    exact hoff (isPath_of_group h hg).mem_end

/-- What the start holds itself is kept. -/
theorem kept_of_owner {r : Role} (hr : (g.roles o).find? (fun r => r.name = name && r.target = target) = some r) :
    kept.role = r := by
  have hhead := head?_group g o name target
  have hvisits : (g.ancestry o).visits.head? = some (o, [o]) := by
    rw [(ancestry_follows_preorder g o).1, preorder_of_notMem List.not_mem_nil]
    rfl
  obtain ⟨rest, hrest⟩ := List.head?_eq_some_iff.1 hvisits
  rw [h, hrest, List.findSome?_cons, hr] at hhead
  cases hhead
  rfl

end Kept

theorem isContract_of_isInterface (ho : g.isInterface o = true) (c : Candidate) : isContract g o c = false := by
  have hclass : g.isClass o = false := by
    apply Bool.eq_false_iff.2
    intro hc
    exact ne_of_isClass_of_isInterface hc ho rfl
  unfold isContract
  rw [hclass, Bool.false_and]

/-- **Which roles an interface gives up for one from further up.**  An interface has one declaration of each association,
its own role if it holds one.  Without cycles, a role that gives way is held below the holder of the role that is kept
just if it is held on a way to that holder other than the one that the search came by; so where only one way leads
there, no role gives way to one from further up. -/
theorem lost_below_kept_iff (hs : ofSource s = .ok g) (hacyclic : ∀ t, ¬ TransGen g.Edge t t)
    (ho : g.isInterface o = true) {resolved : ResolvedRole} (hresolved : resolved ∈ (g.resolve o).roles) :
    ∃ d, resolved.declarations = [d] ∧ d.isContract = false ∧
      (∀ r, (g.roles o).find? (fun r => r.name = resolved.name && r.target = resolved.target) = some r → d.role = r) ∧
      ∀ tie ∈ resolved.tieBreaks, tie.kept.role = d.role ∧ g.IsPath o d.role.holder tie.kept.trail.types ∧
        (TransGen g.Edge tie.lost.role.holder d.role.holder ↔ ∃ way, g.IsPath o d.role.holder way ∧
          tie.lost.role.holder ∈ way ∧ tie.lost.role.holder ∉ tie.kept.trail.types) ∧
        ((∀ way, g.IsPath o d.role.holder way → way = tie.kept.trail.types) →
          ¬ TransGen g.Edge tie.lost.role.holder d.role.holder) := by
  have hg := wellFormed_of_ofSource hs
  have hown := isContract_of_isInterface ho
  rw [resolve_roles] at hresolved
  obtain ⟨⟨name, target⟩, hkey, rfl⟩ := List.mem_map.1 hresolved
  simp only [name_resolveRole, target_resolveRole]
  cases hgroup : group (candidates g (g.ancestry o)) name target with
  | nil =>
    obtain ⟨c, hc⟩ := mem_keys.1 hkey
    rw [hgroup] at hc
    cases hc
  | cons kept others =>
    have hresolve : resolveRole g o name target (kept :: others) =
        ⟨name, target, [(merged kept others).1], (merged kept others).2⟩ := by
      simp [resolveRole, hown]
    rw [hresolve]
    refine ⟨(merged kept others).1, rfl, rfl, fun r hr => kept_of_owner hgroup hr, fun tie htie => ?_⟩
    obtain ⟨lost, hlost, rfl⟩ := List.mem_map.1 htie
    have hcandidate : lost ∈ group (candidates g (g.ancestry o)) name target := by
      rw [hgroup]
      exact List.mem_cons_of_mem kept (List.mem_filter.1 hlost).1
    obtain ⟨hm, hname, htarget⟩ := mem_group.1 hcandidate
    obtain ⟨t, path, -, hpath, hr, -⟩ := mem_candidates hm
    have hreach : g.Reaches o lost.role.holder := by
      rw [hg.holder_eq t _ hr]
      exact hpath.reaches
    have hholds : g.holdsRole name target lost.role.holder = true := by
      rw [hg.holder_eq t _ hr]
      exact List.any_eq_true.2 ⟨lost.role, hr, by simp [hname, htarget]⟩
    have hiff := transGen_kept_iff hgroup hg hacyclic hreach hholds
    refine ⟨rfl, isPath_of_group hgroup hg, hiff, fun honly hbelow => ?_⟩
    obtain ⟨way, hway, hmem, hoff⟩ := hiff.1 hbelow
    rw [honly way hway] at hmem
    exact hoff hmem

/-- Where all supertypes of a type stand before it, there are no cycles. -/
theorem not_transGen_of_index_lt (hg : g.WellFormed)
    (h : ∀ n ∈ g.types, ∀ p ∈ n.heritage.parents, p.index < n.id.index) (t : TypeId) : ¬ TransGen g.Edge t t := by
  have hedge : ∀ a b, g.Edge a b → b.index < a.index := by
    intro a b he
    obtain ⟨n, hn, hb⟩ := mem_parents.1 he
    have hlt := h n (List.mem_of_getElem? hn) b hb
    rw [hg.id_eq a.index n hn] at hlt
    exact hlt
  have hdown : ∀ {b}, TransGen g.Edge t b → b.index < t.index := by
    intro b hb
    induction hb with
    | single he => exact hedge _ _ he
    | tail _ he ih => exact (hedge _ _ he).trans ih
  intro hself
  exact Nat.lt_irrefl _ (hdown hself)

end Graph

/-! ## A diamond -/

/-- An interface above two others, one of which has its role with another multiplicity, and one below both. -/
def Source.visitors : Source :=
  (Source.empty.withDefinition ((Definition.draft .ofInterface "Person").withRole "clubs" "Club" .any)
    |>.withDefinition ((Definition.draft .ofInterface "Guest").withSupertype "Person")
    |>.withDefinition
      (((Definition.draft .ofInterface "Member").withSupertype "Person").withRole "clubs" "Club" ⟨0, some 1⟩)
    |>.withDefinition (((Definition.draft .ofInterface "Visitor").withSupertype "Guest").withSupertype "Member")
    |>.withDefinition (Definition.draft .ofClass "Club"))

namespace Graph

open Relation (TransGen)

def visitors : Graph := (ofSource .visitors).toOption.getD ⟨none, []⟩

theorem ofSource_visitors : ofSource .visitors = .ok .visitors := rfl

theorem acyclic_visitors : ∀ t, ¬ TransGen visitors.Edge t t :=
  not_transGen_of_index_lt (wellFormed_of_ofSource ofSource_visitors) (by decide)

/-- The visitor's role is that of the person, found by way of the guest; the member's is below it, on the other way. -/
theorem lost_below_kept_iff_visitors : ofSource .visitors = .ok .visitors ∧ (∀ t, ¬ TransGen visitors.Edge t t) ∧
    visitors.isInterface ⟨3⟩ = true ∧ ∃ resolved ∈ (visitors.resolve ⟨3⟩).roles, ∃ d tie,
      resolved.declarations = [d] ∧ resolved.tieBreaks = [tie] ∧ d.role.holder = ⟨0⟩ ∧ tie.lost.role.holder = ⟨2⟩ ∧
      tie.kept.trail.types = [⟨3⟩, ⟨1⟩, ⟨0⟩] ∧
      (TransGen visitors.Edge ⟨2⟩ ⟨0⟩ ↔ ∃ way, visitors.IsPath ⟨3⟩ ⟨0⟩ way ∧ ⟨2⟩ ∈ way ∧ ⟨2⟩ ∉ tie.kept.trail.types) := by
  have ho : visitors.isInterface ⟨3⟩ = true := rfl
  refine ⟨ofSource_visitors, acyclic_visitors, ho, _, List.mem_cons_self, _, _, rfl, rfl, rfl, rfl, rfl, ?_⟩
  obtain ⟨d, hd, -, -, hties⟩ := lost_below_kept_iff ofSource_visitors acyclic_visitors ho List.mem_cons_self
  cases hd
  exact (hties _ List.mem_cons_self).2.2.1

/-- **The role further down is given up** for the one further up. -/
theorem lost_below_kept_visitors : ofSource .visitors = .ok .visitors ∧ (∀ t, ¬ TransGen visitors.Edge t t) ∧
    visitors.isInterface ⟨3⟩ = true ∧ ∃ resolved ∈ (visitors.resolve ⟨3⟩).roles, ∃ d ∈ resolved.declarations,
      ∃ tie ∈ resolved.tieBreaks, d.isContract = false ∧ tie.kept.role = d.role ∧
        visitors.isInterface tie.lost.role.holder = true ∧ TransGen visitors.Edge tie.lost.role.holder d.role.holder := by
  refine ⟨ofSource_visitors, acyclic_visitors, rfl, _, List.mem_cons_self, _, List.mem_cons_self, _, List.mem_cons_self,
    rfl, rfl, rfl, .single ?_⟩
  show (⟨0⟩ : TypeId) ∈ visitors.parents ⟨2⟩
  decide

end Graph
end Accessors
