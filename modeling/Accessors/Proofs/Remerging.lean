import Accessors.Proofs.Arrangement
import Mathlib.Data.Finset.Dedup
/-!
# Merging again, and in another order

What comes of methods depends on those taken in before only as far as these are arranged (`SameSlots`): one more method
keeps two states alike that were alike (`SameSlots.add`), and so do any number of them.  The merged methods of a clean
run are such a stand-in for the methods that they come from (`merge_kept_append`).

Methods that declarations ask for can be merged in any order: their key and shape tell the rest of them, up to where
they come from (`merge_perm`).
-/
namespace Accessors
namespace Method

/-! ## Lists that are arranged alike -/

theorem arrange_concat_congr {order : List String} {ms ns : List Method} (h : arrange order ms = arrange order ns)
    (m : Method) : arrange order (ms ++ [m]) = arrange order (ns ++ [m]) := by
  rw [arrange_eq_arrange_iff] at h ⊢
  intro s
  rw [List.filter_append, List.filter_append, h s]

theorem find?_key_of_arrange_eq {order : List String} {ms ns : List Method} (h : arrange order ms = arrange order ns)
    (k : Key) : ms.find? (·.key = k) = ns.find? (·.key = k) := by
  rw [← List.head?_filter, ← List.head?_filter, filter_eq_of_arrange_eq h slot_eq_of_key_eq]

/-! ## States that are alike -/

namespace Merged

/-- The same methods slot by slot, and the same conflicts. -/
structure SameSlots (order : List String) (acc acc' : Merged) : Prop where
  kept : arrange order acc.kept = arrange order acc'.kept
  conflicts : acc.conflicts = acc'.conflicts

theorem slot_absorb (order : List String) (m k : Method) :
    slot order (if k.key = m.key then { k with provenance := k.provenance.merge m.provenance } else k) =
      k.slot order := by
  split <;> rfl

theorem SameSlots.absorb {order : List String} {acc acc' : Merged} (h : SameSlots order acc acc') (m : Method) :
    arrange order (absorb m acc.kept) = arrange order (absorb m acc'.kept) := by
  unfold Merged.absorb
  rw [arrange_map (slot_absorb order m), arrange_map (slot_absorb order m), h.kept]

/-- **Taking in one more method keeps states alike.** -/
theorem SameSlots.add {order : List String} {acc acc' : Merged} (h : SameSlots order acc acc') (m : Method) :
    SameSlots order (acc.add m) (acc'.add m) := by
  have hfind := find?_key_of_arrange_eq h.kept m.key
  have hroles : acc'.conflicted = acc.conflicted := by
    unfold conflicted
    rw [h.conflicts]
  unfold Merged.add
  rw [← hfind, hroles, ← h.conflicts]
  cases acc.kept.find? (·.key = m.key) with
  | none => exact ⟨arrange_concat_congr h.kept m, rfl⟩
  | some k =>
    by_cases hs : k.shape = m.shape
    · simp only [if_pos hs]
      exact ⟨h.absorb m, rfl⟩
    · simp only [if_neg hs]
      by_cases hr : m.role ∈ acc.conflicted
      · simp only [if_pos hr]
        exact h
      · simp only [if_neg hr]
        exact ⟨h.kept, rfl⟩

theorem SameSlots.foldl_add {order : List String} : ∀ (ms : List Method) {acc acc' : Merged},
    SameSlots order acc acc' → SameSlots order (ms.foldl Merged.add acc) (ms.foldl Merged.add acc')
  | [], _, _, h => h
  | m :: ms, _, _, h => foldl_add ms (h.add m)

theorem ofList_append (ms ns : List Method) : ofList (ms ++ ns) = ns.foldl Merged.add (ofList ms) := by
  unfold ofList
  rw [List.foldl_append]

/-- Methods of pairwise different keys are all kept. -/
theorem ofList_of_nodup_keys {ms : List Method} (h : (ms.map key).Nodup) : ofList ms = ⟨ms, []⟩ := by
  induction ms using List.reverseRecOn with
  | nil => rfl
  | append_singleton ms m ih =>
    rw [List.map_append, List.map_singleton, List.nodup_append] at h
    obtain ⟨hms, -, hnew⟩ := h
    have hnone : ms.find? (·.key = m.key) = none := by
      rw [List.find?_eq_none]
      intro n hn hkey
      exact hnew n.key (List.mem_map_of_mem hn) m.key List.mem_cons_self (by simpa using hkey)
    rw [ofList_concat, ih hms]
    unfold add
    rw [hnone]

end Merged

open Merged (SameSlots ofList)

theorem merge_eq_filter (order : List String) (ms : List Method) : merge order ms =
    ⟨(arrange order (ofList ms).kept).filter fun m => m.role ∉ (ofList ms).conflicts.map (·.second.role),
      (ofList ms).conflicts⟩ := by
  rw [← arrange_filter]
  rfl

theorem merge_congr {order : List String} {ms ns : List Method} (h : SameSlots order (ofList ms) (ofList ns)) :
    merge order ms = merge order ns := by
  rw [merge_eq_filter, merge_eq_filter, h.kept, h.conflicts]

/-- What a clean run gives is all that was kept. -/
theorem kept_merge_of_isClean {order : List String} {ms : List Method} (h : (merge order ms).isClean = true) :
    (merge order ms).kept = arrange order (ofList ms).kept ∧ (ofList ms).conflicts = [] := by
  have hnone : (ofList ms).conflicts = [] := List.isEmpty_iff.1 h
  rw [merge_eq_filter, hnone]
  simp

theorem sameSlots_kept_of_isClean {order : List String} {ms : List Method} (h : (merge order ms).isClean = true) :
    SameSlots order (ofList (merge order ms).kept) (ofList ms) := by
  obtain ⟨hkept, hnone⟩ := kept_merge_of_isClean h
  have hnodup : ((arrange order (ofList ms).kept).map key).Nodup :=
    ((perm_arrange order _).map key).nodup_iff.2 (Merged.nodup_keys_ofList ms)
  rw [hkept, Merged.ofList_of_nodup_keys hnodup]
  exact ⟨arrange_arrange order _, hnone.symm⟩

/-- **The methods of a clean run stand in for those that they come from**: whatever is merged behind them, the same
methods and the same conflicts come out, provenance included; and if nothing is, they stay as they are. -/
theorem merge_kept_append {order : List String} {xs : List Method} (h : (merge order xs).isClean = true)
    (ys : List Method) :
    merge order ((merge order xs).kept ++ ys) = merge order (xs ++ ys) ∧
      merge order (merge order xs).kept = merge order xs := by
  have hsame := sameSlots_kept_of_isClean h
  refine ⟨merge_congr ?_, merge_congr hsame⟩
  rw [Merged.ofList_append, Merged.ofList_append]
  exact hsame.foldl_add ys

/-- The methods of a class with one role from its superclass and from two interfaces, and behind them one that
contradicts the role. -/
theorem merge_kept_append_enrolment :
    (merge ["courses"] (Graph.enrolment.resolve ⟨3⟩).methods).isClean = true ∧
    merge ["courses"] ((merge ["courses"] (Graph.enrolment.resolve ⟨3⟩).methods).kept ++
        [⟨⟨3⟩, .get, "courses", ⟨4⟩, .one, .of .get .one ⟨4⟩, .empty, .zero⟩]) =
      merge ["courses"] ((Graph.enrolment.resolve ⟨3⟩).methods ++
        [⟨⟨3⟩, .get, "courses", ⟨4⟩, .one, .of .get .one ⟨4⟩, .empty, .zero⟩]) :=
  have hclean : (merge ["courses"] (Graph.enrolment.resolve ⟨3⟩).methods).isClean = true := rfl
  ⟨hclean, (merge_kept_append hclean _).1⟩

/-! ## Methods in another order -/

/-- What is told of a method, but for the order of what it comes from and the place it was first read at. -/
structure Told where
  signature : Signature
  trails : Finset Trail
  discarded : Finset Discarded

def told (m : Method) : Told := ⟨m.signature, m.provenance.trails.toFinset, m.provenance.discarded.toFinset⟩

/-- **Of methods that declarations ask for, key and shape tell the rest.** -/
theorem signature_eq_of_shape_eq {owner : TypeId} {d e : Declaration} {m n : Method} (hm : m ∈ d.methods owner)
    (hn : n ∈ e.methods owner) (hkey : m.key = n.key) (hshape : m.shape = n.shape) : m.signature = n.signature := by
  rw [Declaration.methods_eq] at hm hn
  obtain ⟨kind, hneeded, rfl⟩ := List.mem_map.1 hm
  obtain ⟨kind', hneeded', rfl⟩ := List.mem_map.1 hn
  obtain rfl : kind = kind' := congrArg Key.kind hkey
  have hrole : d.role.name = e.role.name := congrArg Key.role hkey
  -- a getter's shape tells the multiplicity; of the other kinds each is asked for by one multiplicity only
  have hagree : d.role.target = e.role.target ∧ d.role.multiplicity = e.role.multiplicity := by
    unfold Declaration.method at hshape
    unfold Kind.needed at hneeded hneeded'
    cases d.role.navigable <;> cases e.role.navigable <;> cases hmd : d.role.multiplicity <;>
      cases hme : e.role.multiplicity <;> cases kind <;> simp_all [Shape.of]
  unfold signature Declaration.method
  simp only [hrole, hagree.1, hagree.2]

theorem contested_iff_of_perm {ms ns : List Method} (h : ms.Perm ns) (role : String) :
    Contested ms role ↔ Contested ns role := by
  unfold Contested
  simp only [h.mem_iff]

theorem mem_told_trails {first : Method} {rest : List Method} {t : Trail} :
    t ∈ ((rest.map provenance).foldl Provenance.merge first.provenance).trails ↔
      ∃ m ∈ first :: rest, t ∈ m.provenance.trails := by
  rw [Provenance.mem_trails_foldl_merge]
  simp

theorem mem_told_discarded {first : Method} {rest : List Method} {x : Discarded} :
    x ∈ ((rest.map provenance).foldl Provenance.merge first.provenance).discarded ↔
      ∃ m ∈ first :: rest, x ∈ m.provenance.discarded := by
  rw [Provenance.mem_discarded_foldl_merge]
  simp

theorem told_settled_of_perm {owner : TypeId} {ms ns : List Method} (h : ms.Perm ns)
    (hms : ∀ m ∈ ms, ∃ d : Declaration, m ∈ d.methods owner) (k : Key) :
    (Merged.settled ms k).map told = (Merged.settled ns k).map told := by
  by_cases hk : Contested ms k.role
  · rw [settled_eq_none_of_contested hk, settled_eq_none_of_contested ((contested_iff_of_perm h _).1 hk)]
  have hk' : ¬ Contested ns k.role := mt (contested_iff_of_perm h _).2 hk
  have hperm : (ms.filter (·.key = k)).Perm (ns.filter (·.key = k)) := h.filter _
  cases hf : ms.filter (·.key = k) with
  | nil =>
    rw [hf] at hperm
    rw [settled_eq_none_of_filter_eq_nil hf, settled_eq_none_of_filter_eq_nil hperm.nil_eq.symm]
  | cons m rest =>
    obtain ⟨n, rest', hf'⟩ : ∃ n rest', ns.filter (·.key = k) = n :: rest' := by
      cases hf' : ns.filter (·.key = k) with
      | nil => rw [hf, hf'] at hperm; cases hperm.eq_nil
      | cons n rest' => exact ⟨n, rest', rfl⟩
    rw [hf, hf'] at hperm
    have hkey : ∀ x ∈ m :: rest, x ∈ ms ∧ x.key = k := by
      intro x hx
      simpa [← hf] using hx
    have hm := hkey m List.mem_cons_self
    have hn := hkey n (hperm.mem_iff.2 List.mem_cons_self)
    -- the first method may be another one, but one that the declarations asked for alike
    have hsame : m.signature = n.signature := by
      obtain ⟨d, hd⟩ := hms m hm.1
      obtain ⟨e, he⟩ := hms n hn.1
      exact signature_eq_of_shape_eq hd he (hm.2.trans hn.2.symm) (shape_eq_of_not_contested hk hm hn)
    rw [settled_of_not_contested hk hf, settled_of_not_contested hk' hf', Option.map_some, Option.map_some]
    unfold told
    refine congrArg some (Told.mk.injEq .. ▸ ⟨hsame, ?_, ?_⟩)
    · ext t
      simp only [List.mem_toFinset, mem_told_trails, hperm.mem_iff]
    · ext x
      simp only [List.mem_toFinset, mem_told_discarded, hperm.mem_iff]

theorem owner_of_mem_methods {owner : TypeId} {d : Declaration} {m : Method} (h : m ∈ d.methods owner) :
    m.owner = owner := by
  rw [Declaration.methods_eq] at h
  obtain ⟨kind, -, rfl⟩ := List.mem_map.1 h
  rfl

/-- **The order of methods that declarations ask for decides only the order of provenance** and what counts as read
first: whatever order they are merged in, the same methods come out in the same order, and the same roles are in
conflict. -/
theorem merge_perm {owner : TypeId} {order : List String} (horder : order.Nodup) {ms ns : List Method} (h : ms.Perm ns)
    (hms : ∀ m ∈ ms, (∃ d : Declaration, m ∈ d.methods owner) ∧ m.role ∈ order) :
    (merge order ms).kept.map told = (merge order ns).kept.map told ∧
      ∀ role, role ∈ (merge order ms).conflicted ↔ role ∈ (merge order ns).conflicted := by
  have hplaced : ∀ m ∈ ms, m.owner = owner ∧ m.role ∈ order := by
    intro m hm
    obtain ⟨⟨d, hd⟩, hr⟩ := hms m hm
    exact ⟨owner_of_mem_methods hd, hr⟩
  constructor
  · rw [kept_merge horder hplaced, kept_merge horder (fun m hm => hplaced m (h.mem_iff.2 hm)), List.map_flatMap,
      List.map_flatMap]
    refine List.flatMap_congr (fun name _ => ?_)
    rw [List.map_filterMap, List.map_filterMap]
    refine List.filterMap_congr (fun kind _ => ?_)
    exact told_settled_of_perm h (fun m hm => (hms m hm).1) ⟨owner, name, kind⟩
  · intro role
    exact Merged.mem_conflicted.trans ((contested_iff_of_perm h role).trans Merged.mem_conflicted.symm)

theorem exists_declaration_of_mem_methods {r : Resolution} {m : Method} (h : m ∈ r.methods) :
    ∃ d : Declaration, m ∈ d.methods r.owner := by
  obtain ⟨role, -, h⟩ := List.mem_flatMap.1 h
  obtain ⟨d, -, h⟩ := List.mem_flatMap.1 h
  exact ⟨d, h⟩

/-- The methods of a class with one role from its superclass and from two interfaces, taken in from behind: what they
come from is then told in another order. -/
theorem merge_perm_enrolment :
    ["courses"].Nodup ∧
    (Graph.enrolment.resolve ⟨3⟩).methods.Perm (Graph.enrolment.resolve ⟨3⟩).methods.reverse ∧
    (∀ m ∈ (Graph.enrolment.resolve ⟨3⟩).methods, (∃ d : Declaration, m ∈ d.methods ⟨3⟩) ∧ m.role ∈ ["courses"]) ∧
    (merge ["courses"] (Graph.enrolment.resolve ⟨3⟩).methods).kept.map told =
      (merge ["courses"] (Graph.enrolment.resolve ⟨3⟩).methods.reverse).kept.map told ∧
    (merge ["courses"] (Graph.enrolment.resolve ⟨3⟩).methods).kept ≠
      (merge ["courses"] (Graph.enrolment.resolve ⟨3⟩).methods.reverse).kept := by
  have hperm := (List.reverse_perm (Graph.enrolment.resolve ⟨3⟩).methods).symm
  have hrole : ∀ m ∈ (Graph.enrolment.resolve ⟨3⟩).methods, m.role ∈ ["courses"] := by decide
  have hms : ∀ m ∈ (Graph.enrolment.resolve ⟨3⟩).methods,
      (∃ d : Declaration, m ∈ d.methods ⟨3⟩) ∧ m.role ∈ ["courses"] :=
    fun m hm => ⟨exists_declaration_of_mem_methods hm, hrole m hm⟩
  exact ⟨by decide, hperm, hms, (merge_perm (by decide) hperm hms).1, by decide⟩

end Method
end Accessors
