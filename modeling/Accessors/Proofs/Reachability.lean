import Accessors.Graph
import Mathlib.Data.List.Chain
import Mathlib.Data.List.Nodup
import Mathlib.Data.List.Perm.Subperm
import Mathlib.Logic.Relation
/-!
# What is above a type

The edges of a graph, the types that they lead to, and the ways along them that meet no type twice.  A way whose last
type has an edge of its own holds types of the graph only, so it is no longer than the graph is large; that is what
bounds the depth of a search.
-/
namespace Accessors
namespace Graph

/-- Every type has an edge to each of its supertypes. -/
def Edge (g : Graph) (a b : TypeId) : Prop := b ∈ g.parents a

/-- A type reaches itself and whatever edges lead to. -/
def Reaches (g : Graph) : TypeId → TypeId → Prop := Relation.ReflTransGen g.Edge

/-- A way from `a` up to `b` that meets no type twice. -/
structure IsPath (g : Graph) (a b : TypeId) (p : List TypeId) : Prop where
  starts : p.head? = some a
  ends : p.getLast? = some b
  edges : p.IsChain g.Edge
  nodup : p.Nodup

theorem index_lt_of_edge {g : Graph} {a b : TypeId} (h : g.Edge a b) : a.index < g.size := by
  unfold Edge parents node? at h
  cases hn : g.types[a.index]? with
  | none => rw [hn] at h; cases h
  | some n => exact (List.getElem?_eq_some_iff.1 hn).1

namespace IsPath

variable {g : Graph} {a b c : TypeId} {p : List TypeId}

theorem single (g : Graph) (a : TypeId) : g.IsPath a a [a] := ⟨rfl, rfl, .singleton a, List.nodup_singleton a⟩

theorem isChain_concat (h : g.IsPath a b p) (he : g.Edge b c) : (p ++ [c]).IsChain g.Edge := by
  refine h.edges.append (.singleton c) (fun x hx y hy => ?_)
  rw [h.ends] at hx
  cases hx
  cases hy
  exact he

/-- **A way goes on** over an edge to a type that is not on it. -/
theorem concat (h : g.IsPath a b p) (he : g.Edge b c) (hc : c ∉ p) : g.IsPath a c (p ++ [c]) := by
  refine ⟨?_, List.getLast?_concat, h.isChain_concat he, ?_⟩
  · rw [List.head?_append, h.starts]; rfl
  · rw [← List.concat_eq_append]
    exact h.nodup.concat hc

theorem mem_end (h : g.IsPath a b p) : b ∈ p := List.mem_of_getLast? h.ends

theorem mem_start (h : g.IsPath a b p) : a ∈ p := List.mem_of_head? h.starts

end IsPath

theorem reaches_of_isChain {g : Graph} : ∀ {a b : TypeId} {p : List TypeId}, (a :: p).IsChain g.Edge → b ∈ a :: p →
    g.Reaches a b
  | a, b, [], _, hb => by
    rw [List.mem_singleton.1 hb]
    exact .refl
  | a, b, c :: p, h, hb => by
    rw [List.isChain_cons_cons] at h
    rcases List.mem_cons.1 hb with rfl | hb
    · exact .refl
    · exact .head h.1 (reaches_of_isChain h.2 hb)

theorem IsPath.reaches_mem {g : Graph} {a b x : TypeId} {p : List TypeId} (h : g.IsPath a b p) (hx : x ∈ p) :
    g.Reaches a x := by
  cases p with
  | nil => cases hx
  | cons y p =>
    cases h.starts
    exact reaches_of_isChain h.edges hx

theorem IsPath.reaches {g : Graph} {a b : TypeId} {p : List TypeId} (h : g.IsPath a b p) : g.Reaches a b :=
  h.reaches_mem h.mem_end

theorem length_le_size {g : Graph} {p : List TypeId} (hn : p.Nodup) (hp : ∀ x ∈ p, x.index < g.size) :
    p.length ≤ g.size := by
  have hidx : (p.map TypeId.index).Nodup := List.Nodup.map (fun x y h => by cases x; cases y; cases h; rfl) hn
  have hsub : p.map TypeId.index ⊆ List.range g.size := fun i hi => by
    obtain ⟨x, hx, rfl⟩ := List.mem_map.1 hi
    exact List.mem_range.2 (hp x hx)
  have hle := (List.subperm_of_subset hidx hsub).length_le
  rwa [List.length_map, List.length_range] at hle

theorem index_lt_of_isChain {g : Graph} : ∀ {p : List TypeId} {b : TypeId}, (p ++ [b]).IsChain g.Edge →
    ∀ x ∈ p, x.index < g.size
  | [], _, _, _, hx => by cases hx
  | a :: p, b, h, x, hx => by
    rcases List.mem_cons.1 hx with rfl | hx
    · cases p with
      | nil => exact index_lt_of_edge (List.isChain_cons_cons.1 h).1
      | cons c p => exact index_lt_of_edge (List.isChain_cons_cons.1 h).1
    · exact index_lt_of_isChain (p := p) (h.tail) x hx

/-- **A way is shorter than the graph is large, but for its last type.** -/
theorem IsPath.length_above_le {g : Graph} {a b : TypeId} {above : List TypeId} (h : g.IsPath a b (above ++ [b])) :
    above.length ≤ g.size :=
  length_le_size (List.nodup_append.1 h.nodup).1 (index_lt_of_isChain h.edges)

end Graph
end Accessors
