import Accessors.Proofs.Arrangement
/-!
# Methods that are changed before they are merged

Merging asks methods for their keys, their shapes and the place of their roles, and puts provenance together.  A change
of methods that answers these questions as before (`Method.Steady`) may as well be made to what merging gives
(`Method.Steady.merge_map`).
-/
namespace Accessors
namespace Method

def Merged.map (f : Method → Method) (acc : Merged) : Merged :=
  ⟨acc.kept.map f, acc.conflicts.map fun c => ⟨f c.first, f c.second⟩⟩

/-- A change of methods that does not change how these are merged. -/
structure Steady (f : Method → Method) : Prop where
  key_iff : ∀ m n, (f m).key = (f n).key ↔ m.key = n.key
  shape_iff : ∀ m n, (f m).shape = (f n).shape ↔ m.shape = n.shape
  role_eq : ∀ m, (f m).role = m.role
  kind_eq : ∀ m, (f m).kind = m.kind
  merge_eq : ∀ k m, f { k with provenance := k.provenance.merge m.provenance } =
    { f k with provenance := (f k).provenance.merge (f m).provenance }

namespace Steady

open Merged (add absorb ofList conflicted)

variable {f : Method → Method} (hf : Steady f)

include hf

theorem conflicted_map (acc : Merged) : (acc.map f).conflicted = acc.conflicted := by
  unfold conflicted Merged.map
  rw [List.map_map]
  exact List.map_congr_left (fun c _ => hf.role_eq c.second)

theorem absorb_map (m : Method) (kept : List Method) : absorb (f m) (kept.map f) = (absorb m kept).map f := by
  unfold absorb
  rw [List.map_map, List.map_map]
  apply List.map_congr_left
  intro k _
  rw [Function.comp_apply, Function.comp_apply]
  by_cases h : k.key = m.key
  · rw [if_pos h, if_pos ((hf.key_iff k m).2 h), hf.merge_eq]
  · rw [if_neg h, if_neg (mt (hf.key_iff k m).1 h)]

theorem find?_map (kept : List Method) (m : Method) :
    (kept.map f).find? (·.key = (f m).key) = (kept.find? (·.key = m.key)).map f := by
  rw [List.find?_map]
  refine congrArg (fun p => (kept.find? p).map f) (funext fun k => ?_)
  exact decide_eq_decide.2 (hf.key_iff k m)

/-- Taking in a method that was changed does what taking in the method did. -/
theorem add_map (acc : Merged) (m : Method) : (acc.map f).add (f m) = (acc.add m).map f := by
  have hfind : (acc.map f).kept.find? (·.key = (f m).key) = (acc.kept.find? (·.key = m.key)).map f :=
    hf.find?_map acc.kept m
  rcases Merged.add_cases acc m with ⟨hnone, he⟩ | ⟨k, hsome, hcase⟩
  · rw [hnone] at hfind
    rw [he]
    unfold add
    rw [hfind]
    simp [Merged.map]
  · rw [hsome] at hfind
    have hshape := hf.shape_iff k m
    rcases hcase with ⟨hs, he⟩ | ⟨hs, hr, he⟩ | ⟨hs, hr, he⟩
    all_goals
      rw [he]
      unfold add
      rw [hfind, Option.map_some]
    · simp only [if_pos (hshape.2 hs)]
      exact congrArg (fun kept => { acc.map f with kept }) (hf.absorb_map m acc.kept)
    · simp only [if_neg (mt hshape.1 hs), hf.conflicted_map, hf.role_eq, if_pos hr]
    · simp only [if_neg (mt hshape.1 hs), hf.conflicted_map, hf.role_eq, if_neg hr]
      simp [Merged.map]

theorem ofList_map (ms : List Method) : ofList (ms.map f) = (ofList ms).map f := by
  induction ms using List.reverseRecOn with
  | nil => rfl
  | append_singleton ms m ih =>
    rw [List.map_append, List.map_singleton, Merged.ofList_concat, Merged.ofList_concat, ih, hf.add_map]

theorem slot_eq (order : List String) (m : Method) : (f m).slot order = m.slot order := by
  unfold slot
  rw [hf.role_eq, hf.kind_eq]

/-- **Methods that were changed are merged as they were.** -/
theorem merge_map (order : List String) (ms : List Method) : merge order (ms.map f) = (merge order ms).map f := by
  have hmerge : ∀ ms, merge order ms =
      ⟨arrange order ((ofList ms).kept.filter fun m => m.role ∉ (ofList ms).conflicted), (ofList ms).conflicts⟩ :=
    fun _ => rfl
  have hkept : ((ofList ms).map f).kept.filter (fun m => m.role ∉ (ofList ms).conflicted) =
      ((ofList ms).kept.filter fun m => m.role ∉ (ofList ms).conflicted).map f :=
    filter_map_of_mem (fun m _ => by rw [hf.role_eq])
  rw [hmerge, hmerge, hf.ofList_map, hf.conflicted_map, hkept, arrange_map (hf.slot_eq order)]
  rfl

end Steady
end Method
end Accessors
