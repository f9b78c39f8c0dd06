import Accessors.Proofs.Resolution
/-!
# The search and the walk without a memory

A walk that remembers nothing but the path it is on takes every path on which no type is met twice (`Graph.preorder`),
and comes to a type as often as there are such paths to it.  The search enters each type once and passes over what it
has entered before.  Nothing is lost by that: what the search passes over leads the walk to types only that were entered
before (`Graph.Covers.entered_of_mem_preorder`), so that the search is the walk with the first visit of each type kept
(`Graph.visits_search`).

The depth that the search is given does not matter once it is greater than the graph is large (`Graph.search_depth`).
-/
namespace Accessors

section Firsts

variable {α β : Type} [DecidableEq β] (key : α → β)

/-- The first element of each key, in order, without the keys `seen` before. -/
def firsts : (seen : List β) → List α → List α
  | _, [] => []
  | seen, a :: l => if key a ∈ seen then firsts seen l else a :: firsts (seen ++ [key a]) l

theorem firsts_cons_of_notMem {seen : List β} {a : α} (h : key a ∉ seen) (l : List α) :
    firsts key seen (a :: l) = a :: firsts key (seen ++ [key a]) l := if_neg h

theorem firsts_eq_nil {seen : List β} : ∀ {l : List α}, (∀ a ∈ l, key a ∈ seen) → firsts key seen l = []
  | [], _ => rfl
  | a :: l, h => by
    rw [firsts, if_pos (h a List.mem_cons_self), firsts_eq_nil fun b hb => h b (List.mem_cons_of_mem a hb)]

theorem firsts_append : ∀ (seen : List β) (l l' : List α),
    firsts key seen (l ++ l') = firsts key seen l ++ firsts key (seen ++ (firsts key seen l).map key) l'
  | seen, [], l' => by rw [firsts, List.map_nil, List.append_nil, List.nil_append, List.nil_append]
  | seen, a :: l, l' => by
    rw [List.cons_append, firsts, firsts]
    split
    · exact firsts_append seen l l'
    · rw [firsts_append (seen ++ [key a]) l l', List.cons_append, List.map_cons, List.append_assoc,
        List.singleton_append]

theorem firsts_eq_self : ∀ {seen : List β} {l : List α}, (seen ++ l.map key).Nodup → firsts key seen l = l
  | _, [], _ => rfl
  | seen, a :: l, h => by
    rw [List.map_cons, List.append_cons] at h
    have hnew : key a ∉ seen := fun hm =>
      (List.nodup_append.1 (List.nodup_append.1 h).1).2.2 _ hm _ List.mem_cons_self rfl
    rw [firsts_cons_of_notMem key hnew, firsts_eq_self h]

/-- **The first elements of some keys** are found among the elements of these keys; what other keys were seen does not
matter to them. -/
theorem firsts_filter (p : β → Bool) : ∀ {seen seen' : List β} (l : List α),
    (∀ b, p b = true → (b ∈ seen ↔ b ∈ seen')) →
      (firsts key seen l).filter (fun a => p (key a)) = firsts key seen' (l.filter fun a => p (key a))
  | _, _, [], _ => rfl
  | seen, seen', a :: l, h => by
    rw [firsts, List.filter_cons]
    by_cases hp : p (key a) = true
    · rw [if_pos hp, firsts]
      by_cases hm : key a ∈ seen
      · rw [if_pos hm, if_pos ((h _ hp).1 hm), firsts_filter p l h]
      · rw [if_neg hm, if_neg (mt (h _ hp).2 hm), List.filter_cons, if_pos hp]
        refine congrArg (a :: ·) (firsts_filter p l fun b hb => ?_)
        rw [List.mem_append, List.mem_append, h b hb]
    · rw [if_neg hp]
      split
      · exact firsts_filter p l h
      · rw [List.filter_cons, if_neg hp]
        refine firsts_filter p l fun b hb => ?_
        have hne : b ≠ key a := fun he => hp (he ▸ hb)
        rw [List.mem_append, List.mem_singleton, or_iff_left hne, h b hb]

end Firsts

namespace Ancestry

/-- The types entered, each with the path by which it was. -/
def visits (a : Ancestry) : List (TypeId × List TypeId) :=
  a.paths.filterMap fun path => path.getLast?.map fun t => (t, path)

theorem map_fst_visits (a : Ancestry) : a.visits.map Prod.fst = a.entered := by
  unfold visits entered
  rw [List.map_filterMap]
  refine List.filterMap_congr (fun path _ => ?_)
  rw [Option.map_map]
  exact Option.map_id'

theorem getLast?_of_mem_visits {a : Ancestry} {v : TypeId × List TypeId} (h : v ∈ a.visits) :
    v.2.getLast? = some v.1 := by
  obtain ⟨path, -, hv⟩ := List.mem_filterMap.1 h
  obtain ⟨t, ht, rfl⟩ := Option.map_eq_some_iff.1 hv
  exact ht

theorem visits_enter (a : Ancestry) (above : List TypeId) (t : TypeId) :
    (a.enter (above ++ [t])).visits = a.visits ++ [(t, above ++ [t])] := by
  unfold visits
  rw [paths_enter, List.filterMap_append, List.filterMap_cons, List.filterMap_nil, List.getLast?_concat]
  rfl

end Ancestry

namespace Graph

/-! ## The walk -/

/-- The types of a graph that are not on a path. -/
def offPath (g : Graph) (path : List TypeId) : List TypeId :=
  ((List.range g.size).map TypeId.mk).filter (· ∉ path)

theorem length_offPath_lt {g : Graph} {path : List TypeId} {t : TypeId} (hlt : t.index < g.size) (ht : t ∉ path) :
    (g.offPath (path ++ [t])).length < (g.offPath path).length := by
  have hoff : g.offPath (path ++ [t]) = (g.offPath path).filter (· ≠ t) := by
    unfold offPath
    rw [List.filter_filter]
    exact List.filter_congr (fun x _ => by simp [and_comm])
  have hm : t ∈ g.offPath path := by
    unfold offPath
    rw [List.mem_filter]
    exact ⟨List.mem_map.2 ⟨t.index, List.mem_range.2 hlt, rfl⟩, decide_eq_true ht⟩
  rw [hoff, List.length_filter_lt_length_iff_exists]
  exact ⟨t, hm, by simp⟩

/-- Goes on at type `t`, which was reached over the types `above` it, without regard to what was visited elsewhere: to
the type itself, unless it is on the path already, and then from it to each of its supertypes. -/
def preorder (g : Graph) (above : List TypeId) (t : TypeId) : List (TypeId × List TypeId) :=
  if t ∈ above then []
  else (t, above ++ [t]) :: (g.parents t).attach.flatMap fun parent => g.preorder (above ++ [t]) parent.1
termination_by (g.offPath above).length
decreasing_by exact length_offPath_lt (index_lt_of_edge parent.2) ‹_›

theorem preorder_of_mem {g : Graph} {above : List TypeId} {t : TypeId} (h : t ∈ above) : g.preorder above t = [] := by
  rw [preorder, if_pos h]

theorem preorder_of_notMem {g : Graph} {above : List TypeId} {t : TypeId} (h : t ∉ above) :
    g.preorder above t = (t, above ++ [t]) :: (g.parents t).flatMap (g.preorder (above ++ [t])) := by
  rw [preorder, if_neg h, List.flatMap_subtype (fun _ _ => rfl), List.unattach_attach]

/-- **What was entered leads on to what was entered only**, unless over the way. -/
theorem Covers.entered_of_mem_preorder {g : Graph} {path : List TypeId} {a : Ancestry} (h : g.Covers path a)
    (above : List TypeId) (t : TypeId) (hpath : path ⊆ above) (ht : t ∈ a.entered) :
    ∀ v ∈ g.preorder above t, v.1 ∈ a.entered := by
  induction above, t using preorder.induct g with
  | case1 above t hmem =>
    rw [preorder_of_mem hmem]
    exact fun v hv => by cases hv
  | case2 above t hmem ih =>
    rw [preorder_of_notMem hmem]
    intro v hv
    rcases List.mem_cons.1 hv with rfl | hv
    · exact ht
    · obtain ⟨parent, hp, hv⟩ := List.mem_flatMap.1 hv
      exact ih ⟨parent, hp⟩ (fun x hx => List.mem_append_left _ (hpath hx))
        (h.left t ht (fun hm => hmem (hpath hm)) parent hp) v hv

/-! ## The search keeps first visits -/

theorem visits_foldl_follow (g : Graph) (depth : Nat) (path : List TypeId) (t : TypeId)
    (hcovers : ∀ parent a, g.Edge t parent → parent ∉ path → parent ∉ a.entered → g.Covers path a →
      g.Covers path (g.search depth path parent a) ∧ parent ∈ (g.search depth path parent a).entered)
    (hvisits : ∀ parent a, g.Edge t parent → parent ∉ path → parent ∉ a.entered → g.Covers path a →
      (g.search depth path parent a).visits = a.visits ++ firsts Prod.fst a.entered (g.preorder path parent)) :
    ∀ (ps : List TypeId) (a : Ancestry), ps ⊆ g.parents t → g.Covers path a →
      (ps.foldl (g.follow depth path t) a).visits =
        a.visits ++ firsts Prod.fst a.entered (ps.flatMap (g.preorder path))
  | [], a, _, _ => (List.append_nil _).symm
  | p :: ps, a, hps, h => by
    have he : g.Edge t p := hps List.mem_cons_self
    have hstep : (g.follow depth path t a p).visits = a.visits ++ firsts Prod.fst a.entered (g.preorder path p) := by
      unfold follow
      split
      · rename_i hp
        rw [preorder_of_mem hp, firsts, List.append_nil]
        rfl
      · rename_i hp
        split
        · rename_i hin
          rw [firsts_eq_nil Prod.fst (h.entered_of_mem_preorder path p (List.Subset.refl _) hin), List.append_nil]
        · rename_i hnew
          exact hvisits p a he hp hnew h
    have hentered : (g.follow depth path t a p).entered =
        a.entered ++ (firsts Prod.fst a.entered (g.preorder path p)).map Prod.fst := by
      rw [← Ancestry.map_fst_visits, hstep, List.map_append, Ancestry.map_fst_visits]
    have hc := (follow_covers g depth path t hcovers he h).1
    rw [List.foldl_cons, visits_foldl_follow g depth path t hcovers hvisits ps _
      (fun x hx => hps (List.mem_cons_of_mem _ hx)) hc, hstep, hentered, List.append_assoc, List.flatMap_cons,
      firsts_append]

/-- **A search that is deep enough visits what the walk visits**, in its order and over its paths, but each type only
the first time and none that was entered before. -/
theorem visits_search (g : Graph) (o : TypeId) : ∀ (depth : Nat) (above : List TypeId) (t : TypeId) (a : Ancestry),
    g.IsPath o t (above ++ [t]) → g.size < depth + above.length → t ∉ a.entered → g.Covers above a →
      (g.search depth above t a).visits = a.visits ++ firsts Prod.fst a.entered (g.preorder above t)
  | 0, above, t, a, hp, hd, _, _ => absurd hp.length_above_le (by omega)
  | depth + 1, above, t, a, hp, hd, ht, h => by
    have habove : t ∉ above := fun hm => (List.nodup_append.1 hp.nodup).2.2 t hm t List.mem_cons_self rfl
    have hdeep : g.size < depth + (above ++ [t]).length := by
      rw [List.length_append, List.length_singleton]; omega
    have hentered : (a.enter (above ++ [t])).entered = a.entered ++ [t] := by
      rw [Ancestry.entered_enter, List.getLast?_concat]; rfl
    rw [search_succ, visits_foldl_follow g depth (above ++ [t]) t
      (fun parent b he hpath hnew hb => search_covers g o depth _ parent b (hp.concat he hpath) hdeep hnew hb)
      (fun parent b he hpath hnew hb => visits_search g o depth _ parent b (hp.concat he hpath) hdeep hnew hb)
      (g.parents t) _ (List.Subset.refl _) h.enter, Ancestry.visits_enter, hentered, preorder_of_notMem habove,
      firsts_cons_of_notMem Prod.fst ht, List.append_assoc, List.singleton_append]

/-- **Deep enough is as deep as any**: a greater depth changes nothing about a search. -/
theorem search_depth (g : Graph) (o : TypeId) : ∀ (depth depth' : Nat) (above : List TypeId) (t : TypeId) (a : Ancestry),
    g.IsPath o t (above ++ [t]) → g.size < depth + above.length → g.size < depth' + above.length →
      g.search depth above t a = g.search depth' above t a
  | 0, _, _, _, _, hp, hd, _ => absurd hp.length_above_le (by omega)
  | _, 0, _, _, _, hp, _, hd => absurd hp.length_above_le (by omega)
  | depth + 1, depth' + 1, above, t, a, hp, hd, hd' => by
    rw [search_succ, search_succ]
    refine List.foldl_ext _ _ _ (fun b parent he => ?_)
    unfold follow
    split
    · rfl
    · rename_i hpath
      rw [search_depth g o depth depth' _ parent b (hp.concat he hpath)
        (by rw [List.length_append, List.length_singleton]; omega)
        (by rw [List.length_append, List.length_singleton]; omega)]

/-- The candidates are the roles of the types visited, each with the path to its type. -/
theorem candidates_eq_visits (g : Graph) (a : Ancestry) : Resolution.candidates g a =
    a.visits.flatMap fun v => (g.roles v.1).map fun role => ⟨role, ⟨v.2, role.origin⟩⟩ := by
  unfold Ancestry.visits
  rw [Resolution.candidates_eq, List.filterMap_eq_flatMap_toList, List.flatMap_assoc]
  refine List.flatMap_congr fun path _ => ?_
  unfold Resolution.candidatesAt
  cases path.getLast? with
  | none => rfl
  | some t => simp

/-- The names and targets that a search meets are those of the roles of the types visited. -/
theorem keys_candidates (g : Graph) (a : Ancestry) : Resolution.keys (Resolution.candidates g a) =
    (a.visits.flatMap fun v => (g.roles v.1).map fun role => (role.name, role.target)).eraseDups := by
  unfold Resolution.keys
  rw [candidates_eq_visits, List.map_flatMap]
  simp only [List.map_map]
  rfl

/-- **The search is the walk with the first visit of each type kept.**  It does not depend on the depth, if that is
greater than the graph is large; it visits just the types that its start reaches, each once; and the roles are resolved
in the order in which the name and the target of each are first met. -/
theorem ancestry_follows_preorder (g : Graph) (owner : TypeId) :
    (g.ancestry owner).visits = firsts Prod.fst [] (g.preorder [] owner) ∧
    (g.ancestry owner).visits.map Prod.snd = (g.ancestry owner).paths ∧
    (∀ depth, g.size < depth → g.search depth [] owner ⟨[], []⟩ = g.ancestry owner) ∧
    ((g.ancestry owner).visits.map Prod.fst).Nodup ∧
    (∀ t, t ∈ (g.ancestry owner).visits.map Prod.fst ↔ g.Reaches owner t) ∧
    ((g.resolve owner).roles.map fun resolved => (resolved.name, resolved.target)) =
      ((firsts Prod.fst [] (g.preorder [] owner)).flatMap fun v =>
        (g.roles v.1).map fun role => (role.name, role.target)).eraseDups := by
  have hvisits : (g.ancestry owner).visits = firsts Prod.fst [] (g.preorder [] owner) :=
    visits_search g owner (g.size + 1) [] owner ⟨[], []⟩ (IsPath.single g owner) (by simp) (fun h => by cases h)
      ⟨fun _ hx => by (cases hx), fun _ hx => by (cases hx)⟩
  refine ⟨hvisits, ?_, fun depth hd => search_depth g owner depth (g.size + 1) [] owner ⟨[], []⟩
    (IsPath.single g owner) (by simpa using hd) (by simp), ?_, fun t => ?_, ?_⟩
  · unfold Ancestry.visits
    rw [List.map_filterMap, List.filterMap_congr (g := some), List.filterMap_some]
    intro path hpath
    obtain ⟨t, hp⟩ := exists_isPath_of_mem_ancestry hpath
    rw [hp.ends]
    rfl
  · rw [Ancestry.map_fst_visits]
    exact nodup_entered_ancestry g owner
  · rw [Ancestry.map_fst_visits]
    exact mem_entered_ancestry
  · rw [Resolution.resolve_roles, List.map_map, ← hvisits, ← keys_candidates]
    exact (List.map_congr_left (fun k _ => by simp)).trans (List.map_id _)

end Graph
end Accessors
