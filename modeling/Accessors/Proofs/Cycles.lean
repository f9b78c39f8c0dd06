import Accessors.Proofs.Search
import Accessors.Proofs.WellFormed
import Accessors.Resolution
/-!
# Cycles of supertypes

Resolution warns of a cycle of supertypes just if one is above the owner, and each warning names a way round that is
closed by an edge of its own (`diagnostics_report_cycles`).

What is noted is read off the paths: the edges that lead from the end of a path back onto it (`perm_cycles_ancestry`).
That a cycle cannot be passed over is an invariant of the search: as long as nothing is noted, no edge leads from a type
that is done to one that is still being gone through, so none of those that are done is above itself (`Settled`).
-/
namespace Accessors
namespace Graph

open Relation (TransGen)

/-- A way over at least one edge that comes back to its start and meets no other type twice. -/
structure IsCycle (g : Graph) (types : List TypeId) : Prop where
  edges : types.IsChain g.Edge
  closed : types.head? = types.getLast?
  two_le : 2 ≤ types.length
  nodup : types.dropLast.Nodup

/-- The way round that an edge from the end of a path back to `parent` closes. -/
def wayRound (path : List TypeId) (parent : TypeId) : List TypeId := path.dropWhile (· ≠ parent) ++ [parent]

/-- What there is to note about the type at the end of a path. -/
def closings (g : Graph) (path : List TypeId) : List Cycle :=
  path.getLast?.elim [] fun t => ((g.parents t).filter (· ∈ path)).map fun parent => ⟨wayRound path parent, t⟩

/-! ## The cycles noted -/

section Noting

variable (g : Graph)

theorem exists_perm_cycles_foldl (depth : Nat) (path : List TypeId) (t : TypeId)
    (hsearch : ∀ parent a, ∃ extra, (g.search depth path parent a).paths = a.paths ++ extra ∧
      (g.search depth path parent a).cycles.Perm (a.cycles ++ extra.flatMap g.closings)) :
    ∀ (ps : List TypeId) (a : Ancestry), ∃ extra, (ps.foldl (g.follow depth path t) a).paths = a.paths ++ extra ∧
      (ps.foldl (g.follow depth path t) a).cycles.Perm (a.cycles ++
        ((ps.filter (· ∈ path)).map (fun parent => ⟨wayRound path parent, t⟩) ++ extra.flatMap g.closings))
  | [], a => ⟨[], (List.append_nil _).symm, by simp⟩
  | p :: ps, a => by
    obtain ⟨extra, hpaths, hcycles⟩ := exists_perm_cycles_foldl depth path t hsearch ps (g.follow depth path t a p)
    rw [List.foldl_cons]
    unfold follow at hpaths hcycles ⊢
    by_cases hp : p ∈ path
    · rw [if_pos hp] at hpaths hcycles ⊢
      refine ⟨extra, hpaths, hcycles.trans ?_⟩
      rw [List.filter_cons_of_pos (by simpa using hp), List.map_cons]
      simp [Ancestry.note, wayRound]
    · rw [List.filter_cons_of_neg (by simpa using hp)]
      rw [if_neg hp] at hpaths hcycles ⊢
      split at hpaths
      · rename_i hin
        rw [if_pos hin] at hcycles ⊢
        exact ⟨extra, hpaths, hcycles⟩
      · rename_i hnew
        rw [if_neg hnew] at hcycles ⊢
        obtain ⟨extra', hpaths', hcycles'⟩ := hsearch p a
        refine ⟨extra' ++ extra, by rw [hpaths, hpaths', List.append_assoc], hcycles.trans ?_⟩
        rw [List.flatMap_append]
        refine (hcycles'.append_right _).trans ?_
        rw [List.append_assoc]
        exact (List.perm_append_comm_assoc ..).append_left _

/-- **A search notes what its paths close**, in some order. -/
theorem exists_perm_cycles_search : ∀ (depth : Nat) (above : List TypeId) (t : TypeId) (a : Ancestry), ∃ extra,
    (g.search depth above t a).paths = a.paths ++ extra ∧
      (g.search depth above t a).cycles.Perm (a.cycles ++ extra.flatMap g.closings)
  | 0, _, _, _ => ⟨[], (List.append_nil _).symm, by simp [search]⟩
  | depth + 1, above, t, a => by
    obtain ⟨extra, hpaths, hcycles⟩ := exists_perm_cycles_foldl g depth (above ++ [t]) t
      (exists_perm_cycles_search depth (above ++ [t])) (g.parents t) (a.enter (above ++ [t]))
    have hclosings : g.closings (above ++ [t]) = ((g.parents t).filter (· ∈ above ++ [t])).map
        fun parent => ⟨wayRound (above ++ [t]) parent, t⟩ := by
      unfold closings
      rw [List.getLast?_concat]
      rfl
    rw [search_succ]
    refine ⟨(above ++ [t]) :: extra, by rw [hpaths, Ancestry.paths_enter, List.append_assoc]; rfl, ?_⟩
    rw [List.flatMap_cons, hclosings]
    exact hcycles

theorem perm_cycles_ancestry (o : TypeId) :
    (g.ancestry o).cycles.Perm ((g.ancestry o).paths.flatMap g.closings) := by
  obtain ⟨extra, hpaths, hcycles⟩ := exists_perm_cycles_search g (g.size + 1) [] o ⟨[], []⟩
  unfold ancestry
  rw [hpaths]
  exact hcycles

variable {g}

theorem mem_closings {path : List TypeId} {c : Cycle} : c ∈ g.closings path ↔
    ∃ t parent, path.getLast? = some t ∧ g.Edge t parent ∧ parent ∈ path ∧ c = ⟨wayRound path parent, t⟩ := by
  unfold closings
  cases path.getLast? with
  | none => simp
  | some t =>
    simp only [Option.elim_some, List.mem_map, List.mem_filter, decide_eq_true_eq]
    constructor
    · rintro ⟨parent, ⟨he, hm⟩, rfl⟩
      exact ⟨t, parent, rfl, he, hm, rfl⟩
    · rintro ⟨_, parent, ⟨⟩, he, hm, rfl⟩
      exact ⟨parent, ⟨he, hm⟩, rfl⟩

/-- **The cycles noted are closed by the edges that lead from the end of a path back onto it.** -/
theorem mem_cycles_ancestry {o : TypeId} {c : Cycle} : c ∈ (g.ancestry o).cycles ↔
    ∃ path ∈ (g.ancestry o).paths, ∃ t parent, g.IsPath o t path ∧ g.Edge t parent ∧ parent ∈ path ∧
      c = ⟨wayRound path parent, t⟩ := by
  rw [(perm_cycles_ancestry g o).mem_iff, List.mem_flatMap]
  refine exists_congr fun path => and_congr_right fun hpath => ?_
  rw [mem_closings]
  refine exists_congr fun t => exists_congr fun parent => and_congr_left fun _ => ⟨fun hl => ?_, IsPath.ends⟩
  obtain ⟨u, hu⟩ := exists_isPath_of_mem_ancestry hpath
  rw [hu.ends] at hl
  cases hl
  exact hu

end Noting

/-! ## Ways round -/

section WayRound

variable {g : Graph} {o t parent : TypeId} {path : List TypeId}

theorem head?_dropWhile_ne : ∀ {path : List TypeId}, parent ∈ path →
    (path.dropWhile (· ≠ parent)).head? = some parent
  | x :: path, hm => by
    by_cases hx : x = parent
    · rw [List.dropWhile_cons_of_neg (by simpa using hx), List.head?_cons, hx]
    · rw [List.dropWhile_cons_of_pos (by simpa using hx)]
      exact head?_dropWhile_ne ((List.mem_cons.1 hm).resolve_left (Ne.symm hx))

/-- What is left of a way from one of its types on. -/
theorem IsPath.dropWhile (h : g.IsPath o t path) (hm : parent ∈ path) :
    g.IsPath parent t (path.dropWhile (· ≠ parent)) := by
  have hsuffix := List.dropWhile_suffix (l := path) (· ≠ parent)
  have hhead := head?_dropWhile_ne hm
  refine ⟨hhead, ?_, h.edges.suffix hsuffix, h.nodup.sublist hsuffix.sublist⟩
  obtain ⟨before, hbefore⟩ := hsuffix
  have hends := h.ends
  rw [← hbefore, List.getLast?_append_of_ne_nil _ (List.ne_nil_of_mem (List.mem_of_head? hhead))] at hends
  exact hends

theorem wayRound_eq_concat_concat (h : g.IsPath o t path) (hm : parent ∈ path) :
    ∃ before, wayRound path parent = before ++ [t, parent] := by
  obtain ⟨before, hbefore⟩ := List.getLast?_eq_some_iff.1 (h.dropWhile hm).ends
  exact ⟨before, by rw [wayRound, hbefore, List.append_assoc]; rfl⟩

/-- **An edge back onto a way closes a cycle.** -/
theorem isCycle_wayRound (h : g.IsPath o t path) (hm : parent ∈ path) (he : g.Edge t parent) :
    g.IsCycle (wayRound path parent) := by
  have hway := h.dropWhile hm
  refine ⟨hway.isChain_concat he, ?_, ?_, ?_⟩
  · rw [wayRound, List.head?_append, hway.starts, List.getLast?_concat]
    rfl
  · obtain ⟨before, hbefore⟩ := wayRound_eq_concat_concat h hm
    rw [hbefore, List.length_append]
    exact Nat.le_add_left 2 _
  · rw [wayRound, List.dropLast_concat]
    exact hway.nodup

theorem transGen_of_edge_back (h : g.IsPath o t path) (hm : parent ∈ path) (he : g.Edge t parent) :
    TransGen g.Edge parent parent :=
  .tail' (h.dropWhile hm).reaches he

theorem wayRound_owner (h : g.IsPath o t path) : wayRound path o = path ++ [o] := by
  obtain ⟨rest, rfl⟩ : ∃ rest, path = o :: rest := by
    cases path with
    | nil => cases h.starts
    | cons x rest => cases h.starts; exact ⟨rest, rfl⟩
  rw [wayRound, List.dropWhile_cons_of_neg (by simp)]

theorem index_lt_of_edge_back {x : TypeId} (h : g.IsPath o t path) (he : g.Edge t parent) (hx : x ∈ path) :
    x.index < g.size := index_lt_of_isChain (h.isChain_concat he) x hx

theorem mem_of_mem_wayRound {x : TypeId} (hm : parent ∈ path) (hx : x ∈ wayRound path parent) : x ∈ path := by
  rcases List.mem_append.1 hx with hx | hx
  · exact (List.dropWhile_suffix _).subset hx
  · rw [List.mem_singleton.1 hx]
    exact hm

end WayRound

/-! ## No cycle is passed over -/

/-- **What holds between two steps of a search**, as long as no cycle was noted: whatever was entered and is not on the
way is not above itself, and none of its supertypes is on the way. -/
structure Settled (g : Graph) (path : List TypeId) (a : Ancestry) : Prop extends g.Covers path a where
  clear : a.cycles = [] → ∀ x ∈ a.entered, x ∉ path → (∀ p ∈ g.parents x, p ∉ path) ∧ ¬ TransGen g.Edge x x

namespace Settled

variable {g : Graph} {path above : List TypeId} {t : TypeId} {a : Ancestry}

theorem note (h : g.Settled path a) (c : Cycle) : g.Settled path (a.note c) :=
  ⟨⟨h.way, h.left⟩, fun hnone => absurd hnone (List.append_ne_nil_of_right_ne_nil _ (List.cons_ne_nil _ _))⟩

theorem enter (h : g.Settled above a) (ht : t ∉ a.entered) : g.Settled (above ++ [t]) (a.enter (above ++ [t])) := by
  refine ⟨h.toCovers.enter, fun hnone x hx hxp => ?_⟩
  have hxt : x ≠ t := fun he => hxp (he ▸ List.mem_append_right _ List.mem_cons_self)
  have hxa : x ∉ above := fun hm => hxp (List.mem_append_left _ hm)
  rw [Ancestry.entered_enter, List.getLast?_concat] at hx
  have hx : x ∈ a.entered := (List.mem_append.1 hx).resolve_right (fun hm => hxt (List.mem_singleton.1 hm))
  obtain ⟨hparents, hfree⟩ := h.clear hnone x hx hxa
  refine ⟨fun p hp hm => ?_, hfree⟩
  rcases List.mem_append.1 hm with hm | hm
  · exact hparents p hp hm
  · exact ht (List.mem_singleton.1 hm ▸ h.left x hx hxa p hp)

/-- Where nothing is noted, what is done reaches only what is done. -/
theorem done_of_reaches (h : g.Settled path a) (hnone : a.cycles = []) {x y : TypeId} (hx : x ∈ a.entered)
    (hxp : x ∉ path) (hxy : g.Reaches x y) : y ∈ a.entered ∧ y ∉ path := by
  induction hxy with
  | refl => exact ⟨hx, hxp⟩
  | tail _ he ih => exact ⟨h.left _ ih.1 ih.2 _ he, (h.clear hnone _ ih.1 ih.2).1 _ he⟩

/-- **A type is left** when all of its supertypes are entered; unless one of them is still on the way, which is noted,
they are done, and then the type is not above itself. -/
theorem leave (h : g.Settled (above ++ [t]) a) (ht : ∀ p ∈ g.parents t, p ∈ a.entered)
    (hback : a.cycles = [] → ∀ p ∈ g.parents t, p ∉ above ++ [t]) : g.Settled above a := by
  refine ⟨h.toCovers.leave ht, fun hnone x hx hxa => ?_⟩
  by_cases hxt : x = t
  · subst hxt
    refine ⟨fun p hp hm => hback hnone p hp (List.mem_append_left _ hm), fun hself => ?_⟩
    obtain ⟨p, hp, hreach⟩ := Relation.TransGen.head'_iff.1 hself
    exact (h.done_of_reaches hnone (ht p hp) (hback hnone p hp) hreach).2 (List.mem_append_right _ List.mem_cons_self)
  · have hxp : x ∉ above ++ [t] := fun hm =>
      (List.mem_append.1 hm).elim hxa (fun hm => hxt (List.mem_singleton.1 hm))
    obtain ⟨hparents, hfree⟩ := h.clear hnone x hx hxp
    exact ⟨fun p hp hm => hparents p hp (List.mem_append_left _ hm), hfree⟩

end Settled

theorem cycles_subset_foldl (g : Graph) (depth : Nat) (path : List TypeId) (t : TypeId) (ps : List TypeId)
    (a : Ancestry) : a.cycles ⊆ (ps.foldl (g.follow depth path t) a).cycles := by
  obtain ⟨extra, -, hcycles⟩ := exists_perm_cycles_foldl g depth path t (exists_perm_cycles_search g depth path) ps a
  exact fun c hc => hcycles.mem_iff.2 (List.mem_append_left _ hc)

section Following

variable (g : Graph) (depth : Nat) (path : List TypeId) (t : TypeId)
  (hsearch : ∀ parent a, g.Edge t parent → parent ∉ path → parent ∉ a.entered → g.Settled path a →
    g.Settled path (g.search depth path parent a))

include hsearch

/-- One supertype is followed; if it is on the way, something is noted. -/
theorem follow_settled {p : TypeId} (he : g.Edge t p) {a : Ancestry} (h : g.Settled path a) :
    g.Settled path (g.follow depth path t a p) ∧ ((g.follow depth path t a p).cycles = [] → p ∉ path) := by
  unfold follow
  split
  · exact ⟨h.note _, fun hnone => absurd hnone (List.append_ne_nil_of_right_ne_nil _ (List.cons_ne_nil _ _))⟩
  · rename_i hp
    split
    · exact ⟨h, fun _ => hp⟩
    · rename_i hnew
      exact ⟨hsearch p a he hp hnew h, fun _ => hp⟩

theorem foldl_follow_settled : ∀ (ps : List TypeId) (a : Ancestry), ps ⊆ g.parents t → g.Settled path a →
    g.Settled path (ps.foldl (g.follow depth path t) a) ∧
      ((ps.foldl (g.follow depth path t) a).cycles = [] → ∀ p ∈ ps, p ∉ path)
  | [], _, _, h => ⟨h, fun _ _ hp => by cases hp⟩
  | p :: ps, a, hps, h => by
    obtain ⟨hs, hback⟩ := follow_settled g depth path t hsearch (hps List.mem_cons_self) h
    obtain ⟨hs', hback'⟩ := foldl_follow_settled ps _ (fun x hx => hps (List.mem_cons_of_mem _ hx)) hs
    refine ⟨hs', fun hnone x hx => ?_⟩
    rcases List.mem_cons.1 hx with rfl | hx
    · exact hback (List.subset_nil.1 (hnone ▸ cycles_subset_foldl g depth path t ps _))
    · exact hback' hnone x hx

end Following

/-- **A search that is deep enough keeps what is done settled.** -/
theorem search_settled (g : Graph) (o : TypeId) : ∀ (depth : Nat) (above : List TypeId) (t : TypeId) (a : Ancestry),
    g.IsPath o t (above ++ [t]) → g.size < depth + above.length → t ∉ a.entered → g.Settled above a →
      g.Settled above (g.search depth above t a)
  | 0, _, _, _, hp, hd, _, _ => absurd hp.length_above_le (by omega)
  | depth + 1, above, t, a, hp, hd, ht, h => by
    have hdeep : g.size < depth + (above ++ [t]).length := by
      rw [List.length_append, List.length_singleton]; omega
    rw [search_succ]
    obtain ⟨-, -, hps⟩ := foldl_follow_covers g depth (above ++ [t]) t
      (fun parent b he hpath hnew hb =>
        search_covers g o depth (above ++ [t]) parent b (hp.concat he hpath) hdeep hnew hb)
      (g.parents t) _ (List.Subset.refl _) h.toCovers.enter
    obtain ⟨hs, hback⟩ := foldl_follow_settled g depth (above ++ [t]) t
      (fun parent b he hpath hnew hb =>
        search_settled g o depth (above ++ [t]) parent b (hp.concat he hpath) hdeep hnew hb)
      (g.parents t) _ (List.Subset.refl _) (h.enter ht)
    exact hs.leave hps hback

/-- **If no cycle is noted, nothing above the start is above itself.** -/
theorem not_transGen_of_cycles_eq_nil {g : Graph} {o t : TypeId} (hnone : (g.ancestry o).cycles = [])
    (ht : g.Reaches o t) : ¬ TransGen g.Edge t t := by
  have hs := search_settled g o (g.size + 1) [] o ⟨[], []⟩ (IsPath.single g o) (by simp) (fun h => by cases h)
    ⟨⟨fun _ hx => by (cases hx), fun _ hx => by (cases hx)⟩, fun _ _ hx => by (cases hx)⟩
  exact (hs.clear hnone t (mem_entered_ancestry.2 ht) (fun hm => by cases hm)).2

/-- **Cycles are noted just if there are any.** -/
theorem cycles_ancestry_ne_nil_iff {g : Graph} {o : TypeId} :
    (g.ancestry o).cycles ≠ [] ↔ ∃ t, g.Reaches o t ∧ TransGen g.Edge t t := by
  constructor
  · intro hne
    obtain ⟨c, hc⟩ := List.exists_mem_of_ne_nil _ hne
    obtain ⟨path, -, t, parent, hp, he, hm, -⟩ := mem_cycles_ancestry.1 hc
    exact ⟨parent, hp.reaches_mem hm, transGen_of_edge_back hp hm he⟩
  · rintro ⟨t, ht, hself⟩ hnone
    exact not_transGen_of_cycles_eq_nil hnone ht hself

/-- **A start that is above itself** is where some cycle noted starts and ends. -/
theorem exists_cycle_of_transGen {g : Graph} {o : TypeId} (h : TransGen g.Edge o o) :
    ∃ c ∈ (g.ancestry o).cycles, c.types.head? = some o ∧ c.types.getLast? = some o := by
  obtain ⟨t, hreach, he⟩ := Relation.TransGen.tail'_iff.1 h
  obtain ⟨path, hm, hp, -⟩ := filter_paths_ancestry hreach
  refine ⟨⟨wayRound path o, t⟩, mem_cycles_ancestry.2 ⟨path, hm, t, o, hp, he, hp.mem_start, rfl⟩, ?_,
    List.getLast?_concat⟩
  rw [wayRound_owner hp, List.head?_append, hp.starts]
  rfl

/-! ## Each edge once -/

/-- The supertypes looked up so far are different ones. -/
structure Lineage.Distinct (l : Lineage) : Prop where
  interfaces : l.interfaces.Nodup
  superclass : ∀ c ∈ l.superclass, c.1 ∉ l.interfaces

theorem Lineage.Distinct.add {ds : List Definition} {d : Definition} {l l' : Lineage} {parent : Located String}
    (h : l.Distinct) (hl : l.add ds d parent = .ok l') : l'.Distinct := by
  obtain ⟨t, kind, -, hnew, hcase⟩ := Lineage.add_eq_ok.1 hl
  have hnew : (∀ c ∈ l.superclass, c.1 ≠ t) ∧ t ∉ l.interfaces := by
    simp only [Lineage.contains, Bool.or_eq_true, not_or, List.contains_iff_mem] at hnew
    refine ⟨fun c hc he => hnew.1 ?_, hnew.2⟩
    rw [Option.mem_def.1 hc, Option.any_some, he, decide_eq_true rfl]
  rcases hcase with ⟨-, rfl⟩ | ⟨-, -, -, rfl⟩
  · refine ⟨h.interfaces.append (List.nodup_singleton t) (by simpa using hnew.2), fun c hc hm => ?_⟩
    rcases List.mem_append.1 hm with hm | hm
    · exact h.superclass c hc hm
    · exact hnew.1 c hc (List.mem_singleton.1 hm)
  · refine ⟨h.interfaces, fun c hc => ?_⟩
    cases hc
    exact hnew.2

theorem nodup_parents_of_heritage {ds : List Definition} {d : Definition} {h : Heritage} (hh : heritage ds d = .ok h) :
    h.parents.Nodup := by
  unfold heritage at hh
  cases hl : d.supertypes.foldlM (Lineage.add ds d) ⟨none, []⟩ with
  | error e => rw [hl] at hh; cases hh
  | ok l =>
    rw [hl] at hh
    have hdistinct : l.Distinct := foldlM_preserves (Lineage.add ds d) Lineage.Distinct
      (fun _ _ _ hb hs => hb.add hs) _ _ _ ⟨List.nodup_nil, fun c hc => by cases hc⟩ hl
    cases hk : d.kind with
    | ofClass =>
      simp only [Except.map, hk, Except.ok.injEq] at hh
      subst hh
      cases hc : l.superclass with
      | none => exact hdistinct.interfaces
      | some c => exact List.nodup_cons.2 ⟨hdistinct.superclass c hc, hdistinct.interfaces⟩
    | ofInterface =>
      simp only [Except.map, hk, Except.ok.injEq] at hh
      subst hh
      exact hdistinct.interfaces

/-- **No type has one supertype twice.** -/
theorem nodup_parents_of_ofSource {s : Source} {g : Graph} (h : ofSource s = .ok g) (t : TypeId) :
    (g.parents t).Nodup := by
  unfold parents
  cases hn : g.node? t with
  | none => exact List.nodup_nil
  | some n =>
    obtain ⟨_, -, -, hher, -⟩ := node_of_ofSource h hn
    exact nodup_parents_of_heritage hher

/-- **Each edge is noted once**: the cycles that a search notes are closed by different edges. -/
theorem nodup_edges_cycles_ancestry {g : Graph} (hg : ∀ t, (g.parents t).Nodup) (o : TypeId) :
    ((g.ancestry o).cycles.map fun c => (c.closedBy, c.types.getLast?)).Nodup := by
  rw [((perm_cycles_ancestry g o).map _).nodup_iff, List.map_flatMap, List.nodup_flatMap]
  refine ⟨fun path _ => ?_, ?_⟩
  · unfold closings
    cases path.getLast? with
    | none => exact List.nodup_nil
    | some t =>
      rw [Option.elim_some, List.map_map]
      refine ((hg t).filter _).map (fun p q hpq => ?_)
      simpa [wayRound] using hpq
  · have hends := List.pairwise_filterMap.1 (nodup_entered_ancestry g o)
    refine hends.imp (fun {path path'} hne => List.disjoint_left.2 (fun e he he' => ?_))
    obtain ⟨c, hc, rfl⟩ := List.mem_map.1 he
    obtain ⟨c', hc', hcc⟩ := List.mem_map.1 he'
    obtain ⟨t, _, ht, -, -, rfl⟩ := mem_closings.1 hc
    obtain ⟨t', _, ht', -, -, rfl⟩ := mem_closings.1 hc'
    exact hne t ht t' ht' (congrArg Prod.fst hcc).symm

/-! ## Names -/

theorem getElem?_names {g : Graph} {t : TypeId} (ht : t.index < g.size) :
    (g.types.map TypeNode.name)[t.index]? = some (g.name t) := by
  unfold name node?
  rw [List.getElem?_map, List.getElem?_eq_getElem ht]
  rfl

/-- **Different types have different names.** -/
theorem name_injOn_of_ofSource {s : Source} {g : Graph} (h : ofSource s = .ok g) {t u : TypeId}
    (ht : t.index < g.size) (hu : u.index < g.size) (hname : g.name t = g.name u) : t = u := by
  have hidx : t.index = u.index := (List.getElem?_inj (by rwa [List.length_map])
    (nodup_names_of_ofSource h)).1 (by rw [getElem?_names ht, getElem?_names hu, hname])
  cases t
  cases u
  exact congrArg TypeId.mk hidx

end Graph

/-- The cycle that a diagnostic reports, if it reports one. -/
def Diagnostic.cycle? (d : Diagnostic) : Option (List String) :=
  match d.cause with
  | .cyclicInheritance names => some names
  | _ => none

namespace Resolution

open Accessors.Graph
open Relation (TransGen)

/-- The cycles that the diagnostics report. -/
def reportedCycles (g : Graph) (r : Resolution) : List (List String) := (r.diagnostics g).filterMap Diagnostic.cycle?

/-- The edge that a reported cycle is about, which is the one that leads back: its last two types. -/
def closingEdge (names : List String) : List String := names.drop (names.length - 2)

theorem reportedCycles_resolve (g : Graph) (o : TypeId) :
    (g.resolve o).reportedCycles g = (g.ancestry o).cycles.map fun c => c.types.map g.name := by
  have hties : ∀ roles : List ResolvedRole, (roles.flatMap fun role =>
      role.tieBreaks.map (tieBreakDiagnostic g o)).filterMap Diagnostic.cycle? = [] := fun roles =>
    List.filterMap_eq_nil_iff.2 (fun d hd => by
      obtain ⟨role, -, hd⟩ := List.mem_flatMap.1 hd
      obtain ⟨t, -, rfl⟩ := List.mem_map.1 hd
      rfl)
  unfold reportedCycles diagnostics
  rw [List.filterMap_append]
  refine (congrArg _ (hties _)).trans ?_
  rw [List.append_nil, List.filterMap_map, ← List.filterMap_eq_map]
  rfl

theorem closingEdge_wayRound {g : Graph} {o t parent : TypeId} {path : List TypeId} (h : g.IsPath o t path)
    (hm : parent ∈ path) : closingEdge ((wayRound path parent).map g.name) = [g.name t, g.name parent] := by
  obtain ⟨before, hbefore⟩ := wayRound_eq_concat_concat h hm
  rw [hbefore, closingEdge, List.map_append, List.length_append]
  exact List.drop_left' rfl

/-- **Cycles are reported soundly and completely**: some cycle is reported just if one is above the owner; what is
reported are the names along a genuine cycle above the owner, different ones but for the last, which is the first again;
every edge is reported at most once as one that leads back; and if the owner is above itself, some cycle reported starts
and ends with it. -/
theorem diagnostics_report_cycles {s : Source} {g : Graph} (h : Graph.ofSource s = .ok g) (owner : TypeId) :
    ((g.resolve owner).reportedCycles g ≠ [] ↔ ∃ t, g.Reaches owner t ∧ TransGen g.Edge t t) ∧
    (∀ names ∈ (g.resolve owner).reportedCycles g, names.head? = names.getLast? ∧ names.dropLast.Nodup ∧
      ∃ types, names = types.map g.name ∧ g.IsCycle types ∧ ∀ t ∈ types, g.Reaches owner t) ∧
    (((g.resolve owner).reportedCycles g).map closingEdge).Nodup ∧
    (TransGen g.Edge owner owner → ∃ names ∈ (g.resolve owner).reportedCycles g,
      names.head? = some (g.name owner) ∧ names.getLast? = some (g.name owner)) := by
  rw [reportedCycles_resolve]
  refine ⟨?_, fun names hnames => ?_, ?_, fun hself => ?_⟩
  · rw [Ne, List.map_eq_nil_iff, ← Ne, cycles_ancestry_ne_nil_iff]
  · obtain ⟨c, hc, rfl⟩ := List.mem_map.1 hnames
    obtain ⟨path, -, t, parent, hp, he, hm, rfl⟩ := mem_cycles_ancestry.1 hc
    have hcycle := isCycle_wayRound hp hm he
    refine ⟨by rw [List.head?_map, List.getLast?_map, hcycle.closed], ?_, _, rfl, hcycle,
      fun x hx => hp.reaches_mem (mem_of_mem_wayRound hm hx)⟩
    have hlt : ∀ x ∈ (wayRound path parent).dropLast, x.index < g.size := fun x hx =>
      index_lt_of_edge_back hp he (mem_of_mem_wayRound hm (List.dropLast_subset _ hx))
    rw [← List.map_dropLast]
    exact hcycle.nodup.map_on (fun x hx y hy => name_injOn_of_ofSource h (hlt x hx) (hlt y hy))
  · have hedges := nodup_edges_cycles_ancestry (nodup_parents_of_ofSource h) owner
    rw [List.map_map]
    refine (List.Nodup.of_map _ hedges).map_on (fun c hc c' hc' hclosing => ?_)
    have hsame := List.inj_on_of_nodup_map hedges hc hc'
    obtain ⟨path, -, t, parent, hp, he, hm, rfl⟩ := mem_cycles_ancestry.1 hc
    obtain ⟨path', -, t', parent', hp', he', hm', rfl⟩ := mem_cycles_ancestry.1 hc'
    simp only [Function.comp_apply, closingEdge_wayRound hp hm, closingEdge_wayRound hp' hm', List.cons.injEq,
      and_true] at hclosing
    have htop := name_injOn_of_ofSource h (index_lt_of_edge he) (index_lt_of_edge he') hclosing.1
    have hback := name_injOn_of_ofSource h (index_lt_of_edge_back hp he hm) (index_lt_of_edge_back hp' he' hm')
      hclosing.2
    rw [htop, hback] at hsame ⊢
    exact hsame (by rw [wayRound, wayRound, List.getLast?_concat, List.getLast?_concat])
  · obtain ⟨c, hc, hhead, hlast⟩ := exists_cycle_of_transGen hself
    exact ⟨_, List.mem_map_of_mem hc, by rw [List.head?_map, hhead]; rfl, by rw [List.getLast?_map, hlast]; rfl⟩

/-- Two interfaces above each other: one of them has the cycle from its own side, a class below them as it meets
them. -/
theorem diagnostics_report_cycles_enrolment : Graph.ofSource .enrolment = .ok .enrolment ∧
    TransGen Graph.enrolment.Edge ⟨1⟩ ⟨1⟩ ∧
    (∃ names ∈ (Graph.enrolment.resolve ⟨1⟩).reportedCycles .enrolment, names.head? = some "Enrollable" ∧
      names.getLast? = some "Enrollable") ∧
    (Graph.enrolment.resolve ⟨3⟩).reportedCycles .enrolment ≠ [] ∧
    (Graph.enrolment.resolve ⟨3⟩).reportedCycles .enrolment = [["Registrable", "Enrollable", "Registrable"]] := by
  have hup : Graph.enrolment.Edge ⟨1⟩ ⟨0⟩ := show (⟨0⟩ : TypeId) ∈ Graph.enrolment.parents ⟨1⟩ by decide
  have hback : Graph.enrolment.Edge ⟨0⟩ ⟨1⟩ := show (⟨1⟩ : TypeId) ∈ Graph.enrolment.parents ⟨0⟩ by decide
  have hself : TransGen Graph.enrolment.Edge ⟨1⟩ ⟨1⟩ := .tail (.single hup) hback
  exact ⟨Graph.ofSource_enrolment, hself, (diagnostics_report_cycles Graph.ofSource_enrolment ⟨1⟩).2.2.2 hself,
    (diagnostics_report_cycles Graph.ofSource_enrolment ⟨3⟩).1.2 ⟨⟨1⟩, Graph.reaches_enrolment, hself⟩, rfl⟩

end Resolution
end Accessors
