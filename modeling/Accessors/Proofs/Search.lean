import Accessors.Ancestry
import Accessors.Proofs.Keyed
import Accessors.Proofs.Reachability
/-!
# What a search enters

The search up from a type enters the types that it reaches, each once and by a way without repeats
(`mem_entered_ancestry`, `nodup_entered_ancestry`, `exists_isPath_of_mem_ancestry`).

Two invariants carry this.  `search_preserves` is for what holds whenever a type is entered or a cycle is noted.  That
nothing is missed is not of that kind, since a type is entered before its supertypes are: `Covers` sets the types apart
whose supertypes are still being gone through, which are those on the way.
-/
namespace Accessors
namespace Ancestry

theorem entered_enter (a : Ancestry) (path : List TypeId) :
    (a.enter path).entered = a.entered ++ path.getLast?.toList := by
  unfold entered enter
  rw [List.filterMap_append]
  cases h : path.getLast? <;> simp [h]

theorem paths_enter (a : Ancestry) (path : List TypeId) : (a.enter path).paths = a.paths ++ [path] := rfl

end Ancestry

namespace Graph

/-- What the search does about one supertype of the type `t` at the end of `path`. -/
def follow (g : Graph) (depth : Nat) (path : List TypeId) (t : TypeId) (a : Ancestry) (parent : TypeId) : Ancestry :=
  if parent ∈ path then a.note ⟨path.dropWhile (· ≠ parent) ++ [parent], t⟩
  else if parent ∈ a.entered then a
  else g.search depth path parent a

theorem search_succ (g : Graph) (depth : Nat) (above : List TypeId) (t : TypeId) (a : Ancestry) :
    g.search (depth + 1) above t a =
      (g.parents t).foldl (g.follow depth (above ++ [t]) t) (a.enter (above ++ [t])) := rfl

/-- **What entering a type and noting a cycle keep, a search keeps**, where `P` holds of each type that it enters and
the way to it. -/
theorem search_preserves (g : Graph) (P : TypeId → List TypeId → Prop) (I : Ancestry → Prop)
    (hstep : ∀ t path parent, P t path → g.Edge t parent → parent ∉ path → P parent (path ++ [parent]))
    (henter : ∀ a t path, I a → P t path → t ∉ a.entered → I (a.enter path)) (hnote : ∀ a c, I a → I (a.note c)) :
    ∀ (depth : Nat) (above : List TypeId) (t : TypeId) (a : Ancestry), I a → P t (above ++ [t]) →
      t ∉ a.entered → I (g.search depth above t a)
  | 0, _, _, _, ha, _, _ => ha
  | depth + 1, above, t, a, ha, hp, ht => by
    rw [search_succ]
    refine List.foldlRecOn (motive := I) _ _ (henter a t _ ha hp ht) (fun b hb parent he => ?_)
    unfold follow
    split
    · exact hnote b _ hb
    · rename_i hpath
      split
      · exact hb
      · rename_i hnew
        exact search_preserves g P I hstep henter hnote depth _ parent b hb (hstep t _ parent hp he hpath) hnew

/-- **A search only adds paths**, and those to types that its own type reaches. -/
theorem exists_paths_search (g : Graph) (depth : Nat) (above : List TypeId) (t : TypeId) (a : Ancestry)
    (ht : t ∉ a.entered) : ∃ extra, (g.search depth above t a).paths = a.paths ++ extra ∧
      ∀ p ∈ extra, ∃ u, p.getLast? = some u ∧ g.Reaches t u := by
  refine search_preserves g (fun u path => path.getLast? = some u ∧ g.Reaches t u)
    (fun b => ∃ extra, b.paths = a.paths ++ extra ∧ ∀ p ∈ extra, ∃ u, p.getLast? = some u ∧ g.Reaches t u)
    (fun u path parent hu he _ => ⟨List.getLast?_concat, hu.2.tail he⟩) ?_ (fun _ _ hb => hb) depth above t a
    ⟨[], (List.append_nil _).symm, fun p hp => by cases hp⟩ ⟨List.getLast?_concat, .refl⟩ ht
  rintro b u path ⟨extra, hb, hextra⟩ hu -
  refine ⟨extra ++ [path], by rw [Ancestry.paths_enter, hb, List.append_assoc], fun p hp => ?_⟩
  rcases List.mem_append.1 hp with hp | hp
  · exact hextra p hp
  · rw [List.mem_singleton.1 hp]
    exact ⟨u, hu⟩

theorem entered_subset_search (g : Graph) (depth : Nat) (above : List TypeId) (t : TypeId) (a : Ancestry)
    (ht : t ∉ a.entered) : a.entered ⊆ (g.search depth above t a).entered := by
  obtain ⟨extra, hpaths, -⟩ := exists_paths_search g depth above t a ht
  unfold Ancestry.entered
  rw [hpaths, List.filterMap_append]
  exact List.subset_append_left _ _

/-- **What holds between two steps of a search along the way `path`**: the way is entered, and so are all supertypes of
whatever was entered and is not on the way. -/
structure Covers (g : Graph) (path : List TypeId) (a : Ancestry) : Prop where
  way : ∀ x ∈ path, x ∈ a.entered
  left : ∀ x ∈ a.entered, x ∉ path → ∀ p ∈ g.parents x, p ∈ a.entered

namespace Covers

variable {g : Graph} {path above : List TypeId} {t : TypeId} {a : Ancestry}

theorem enter (h : g.Covers above a) : g.Covers (above ++ [t]) (a.enter (above ++ [t])) := by
  have he : (a.enter (above ++ [t])).entered = a.entered ++ [t] := by
    rw [Ancestry.entered_enter, List.getLast?_concat]; rfl
  refine ⟨fun x hx => ?_, fun x hx hxp p hp => ?_⟩
  · rw [he]
    rcases List.mem_append.1 hx with hx | hx
    · exact List.mem_append_left _ (h.way x hx)
    · exact List.mem_append_right _ hx
  · rw [he] at hx ⊢
    rcases List.mem_append.1 hx with hx | hx
    · exact List.mem_append_left _ (h.left x hx (fun ha => hxp (List.mem_append_left _ ha)) p hp)
    · exact absurd (List.mem_append_right _ hx) hxp

theorem leave (h : g.Covers (above ++ [t]) a) (ht : ∀ p ∈ g.parents t, p ∈ a.entered) : g.Covers above a := by
  refine ⟨fun x hx => h.way x (List.mem_append_left _ hx), fun x hx hxa => ?_⟩
  by_cases hxt : x = t
  · rw [hxt]; exact ht
  · exact h.left x hx (fun hm => by
      rcases List.mem_append.1 hm with hm | hm
      · exact hxa hm
      · exact hxt (List.mem_singleton.1 hm))

end Covers

section Following

variable (g : Graph) (depth : Nat) (path : List TypeId) (t : TypeId)
  (hsearch : ∀ parent a, g.Edge t parent → parent ∉ path → parent ∉ a.entered → g.Covers path a →
    g.Covers path (g.search depth path parent a) ∧ parent ∈ (g.search depth path parent a).entered)

include hsearch

/-- One supertype is followed, given that searching from a new one covers it: what holds along the way stays, nothing
that was entered is lost, and the supertype is entered. -/
theorem follow_covers {p : TypeId} (he : g.Edge t p) {a : Ancestry} (h : g.Covers path a) :
    g.Covers path (g.follow depth path t a p) ∧ a.entered ⊆ (g.follow depth path t a p).entered ∧
      p ∈ (g.follow depth path t a p).entered := by
  unfold follow
  split
  · rename_i hp
    exact ⟨⟨h.way, h.left⟩, List.Subset.refl _, h.way p hp⟩
  · rename_i hp
    split
    · rename_i hin
      exact ⟨h, List.Subset.refl _, hin⟩
    · rename_i hnew
      obtain ⟨hc, hm⟩ := hsearch p a he hp hnew h
      exact ⟨hc, entered_subset_search g depth path p a hnew, hm⟩

theorem foldl_follow_covers : ∀ (ps : List TypeId) (a : Ancestry), ps ⊆ g.parents t → g.Covers path a →
    g.Covers path (ps.foldl (g.follow depth path t) a) ∧
      a.entered ⊆ (ps.foldl (g.follow depth path t) a).entered ∧
      ∀ p ∈ ps, p ∈ (ps.foldl (g.follow depth path t) a).entered
  | [], a, _, h => ⟨h, List.Subset.refl _, fun _ hp => by cases hp⟩
  | p :: ps, a, hps, h => by
    obtain ⟨hc, hsub, hm⟩ := follow_covers g depth path t hsearch (hps List.mem_cons_self) h
    obtain ⟨hc', hsub', hm'⟩ := foldl_follow_covers ps _ (fun x hx => hps (List.mem_cons_of_mem _ hx)) hc
    refine ⟨hc', List.Subset.trans hsub hsub', fun x hx => ?_⟩
    rcases List.mem_cons.1 hx with rfl | hx
    · exact hsub' hm
    · exact hm' x hx

end Following

/-- **A search that is deep enough misses nothing**: it enters its type, and it keeps what holds along the way. -/
theorem search_covers (g : Graph) (o : TypeId) : ∀ (depth : Nat) (above : List TypeId) (t : TypeId) (a : Ancestry),
    g.IsPath o t (above ++ [t]) → g.size < depth + above.length → t ∉ a.entered → g.Covers above a →
      g.Covers above (g.search depth above t a) ∧ t ∈ (g.search depth above t a).entered
  | 0, above, t, a, hp, hd, _, _ => absurd hp.length_above_le (by omega)
  | depth + 1, above, t, a, hp, hd, ht, h => by
    rw [search_succ]
    obtain ⟨hc, hsub, hps⟩ := foldl_follow_covers g depth (above ++ [t]) t
      (fun parent b he hpath hnew hb => search_covers g o depth (above ++ [t]) parent b (hp.concat he hpath)
        (by rw [List.length_append, List.length_singleton]; omega) hnew hb)
      (g.parents t) _ (List.Subset.refl _) h.enter
    exact ⟨hc.leave hps, hc.way t (List.mem_append_right _ List.mem_cons_self)⟩

/-! ## Graphs that differ at one type -/

theorem follow_congr_of_search {g g' : Graph} {depth : Nat} {path : List TypeId}
    (hs : ∀ parent a, parent ∉ path → g'.search depth path parent a = g.search depth path parent a) (t : TypeId) :
    g'.follow depth path t = g.follow depth path t := by
  funext a parent
  unfold follow
  split
  · rfl
  · rename_i hp
    rw [hs parent a hp]

/-- **Once the type is on the way, a search does not see the difference.** -/
theorem search_congr {g g' : Graph} {c : TypeId} (h : ∀ t, t ≠ c → g'.parents t = g.parents t) :
    ∀ (depth : Nat) (above : List TypeId) (t : TypeId) (a : Ancestry), c ∈ above → t ≠ c →
      g'.search depth above t a = g.search depth above t a
  | 0, _, _, _, _, _ => rfl
  | depth + 1, above, t, a, hc, ht => by
    have hpath : c ∈ above ++ [t] := List.mem_append_left _ hc
    rw [search_succ, search_succ, h t ht, follow_congr_of_search (fun parent b hp =>
      search_congr h depth _ parent b hpath (fun he => hp (he ▸ hpath)))]

/-! ## From the start -/

theorem ancestry_preserves (g : Graph) (o : TypeId) (I : Ancestry → Prop) (h0 : I ⟨[], []⟩)
    (henter : ∀ a t path, I a → g.IsPath o t path → t ∉ a.entered → I (a.enter path))
    (hnote : ∀ a c, I a → I (a.note c)) : I (g.ancestry o) :=
  search_preserves g (g.IsPath o) I (fun _ _ _ hp he hnew => hp.concat he hnew) henter hnote _ [] o _ h0
    (IsPath.single g o) (fun h => by cases h)

theorem exists_isPath_of_mem_ancestry {g : Graph} {o : TypeId} {path : List TypeId} (h : path ∈ (g.ancestry o).paths) :
    ∃ t, g.IsPath o t path := by
  refine ancestry_preserves g o (fun a => ∀ p ∈ a.paths, ∃ t, g.IsPath o t p) (fun _ hp => by cases hp)
    (fun a t path ha hp _ p hm => ?_) (fun _ _ ha => ha) path h
  rcases List.mem_append.1 hm with hm | hm
  · exact ha p hm
  · rw [List.mem_singleton.1 hm]; exact ⟨t, hp⟩

theorem nodup_entered_ancestry (g : Graph) (o : TypeId) : (g.ancestry o).entered.Nodup := by
  refine ancestry_preserves g o (fun a => a.entered.Nodup) List.nodup_nil (fun a t path ha hp ht => ?_)
    (fun _ _ ha => ha)
  rw [Ancestry.entered_enter, hp.ends]
  exact ha.append (List.nodup_singleton t) (by simpa using ht)

/-- **A search enters exactly what its start reaches.** -/
theorem mem_entered_ancestry {g : Graph} {o t : TypeId} : t ∈ (g.ancestry o).entered ↔ g.Reaches o t := by
  constructor
  · intro h
    obtain ⟨path, hpath, ht⟩ := List.mem_filterMap.1 h
    obtain ⟨t', hp⟩ := exists_isPath_of_mem_ancestry hpath
    rw [hp.ends] at ht
    cases ht
    exact hp.reaches
  · intro h
    have hc := search_covers g o (g.size + 1) [] o ⟨[], []⟩ (IsPath.single g o) (by simp) (fun h => by cases h)
      ⟨fun _ hx => by (cases hx), fun _ hx => by (cases hx)⟩
    induction h with
    | refl => exact hc.2
    | tail _ he ih => exact hc.1.left _ ih (fun hx => by cases hx) _ he

/-- **Every type reached has its one path.** -/
theorem filter_paths_ancestry {g : Graph} {o t : TypeId} (h : g.Reaches o t) : ∃ path ∈ (g.ancestry o).paths,
    g.IsPath o t path ∧ (g.ancestry o).paths.filter (fun p => p.getLast? = some t) = [path] := by
  obtain ⟨path, hm, hl, hf⟩ := filter_eq_singleton_of_nodup List.getLast? _ (nodup_entered_ancestry g o) t
    (mem_entered_ancestry.2 h)
  obtain ⟨t', hp⟩ := exists_isPath_of_mem_ancestry hm
  rw [hp.ends] at hl
  cases hl
  exact ⟨path, hm, hp, hf⟩

end Graph
end Accessors
