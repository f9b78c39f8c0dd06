import Accessors.Proofs.Generation
import Mathlib.Data.List.ProdSigma
/-!
# The merged methods, key by key and in order

Merging gives each key one method, unless the role of the key is contested: two methods of one key that differ in shape
take all methods of their role away (`filter_key_merge`).  The methods are arranged by slots: the place of the role,
then the kind.  Arranging puts no method before another one of its slot that was met earlier (`filter_slot_arrange`), so
the whole order of what is merged is known (`pairwise_arrange`).
-/
namespace Accessors

/-- Without repeats, elements stand in the order of their first places. -/
theorem pairwise_idxOf_eraseDups {α : Type} [BEq α] [LawfulBEq α] (l : List α) :
    l.eraseDups.Pairwise (fun a b => l.idxOf a < l.idxOf b) := by
  induction l using List.reverseRecOn with
  | nil => exact .nil
  | append_singleton l a ih =>
    have hold : ∀ x ∈ l.eraseDups, (l ++ [a]).idxOf x = l.idxOf x := by
      intro x hx
      rw [List.idxOf_append, if_pos (List.mem_eraseDups.1 hx)]
    have hkept : l.eraseDups.Pairwise (fun x y => (l ++ [a]).idxOf x < (l ++ [a]).idxOf y) :=
      ih.imp_of_mem (fun hx hy h => by rwa [hold _ hx, hold _ hy])
    rw [eraseDups_concat]
    by_cases ha : a ∈ l
    · rwa [if_pos ha]
    · rw [if_neg ha, List.pairwise_append]
      refine ⟨hkept, List.pairwise_singleton _ _, fun x hx y hy => ?_⟩
      rw [List.mem_singleton.1 hy, hold x hx, List.idxOf_append, if_neg ha]
      have := List.idxOf_lt_length_of_mem (List.mem_eraseDups.1 hx)
      omega

namespace Method

/-! ## Places and slots -/

/-- `i` is the last place of the role among the names, or it is behind all of them and the role is not there. -/
def IsPlace (order : List String) (role : String) (i : Nat) : Prop :=
  (order[i]? = some role ∧ ∀ j, order[j]? = some role → j ≤ i) ∨ (role ∉ order ∧ i = order.length)

theorem rolePlace_of_notMem {order : List String} {role : String} (h : role ∉ order) :
    rolePlace order role = order.length := by
  unfold rolePlace
  rw [List.idxOf?_eq_none_iff.2 (by simpa using h)]

theorem le_rolePlace {order : List String} {role : String} {j : Nat} (hj : order[j]? = some role) :
    j ≤ rolePlace order role := by
  obtain ⟨hlt, he⟩ := List.getElem?_eq_some_iff.1 hj
  have hmem : role ∈ order := List.mem_of_getElem? hj
  obtain ⟨i, hi⟩ := Option.isSome_iff_exists.1 (List.isSome_idxOf?.2 (List.mem_reverse.2 hmem))
  obtain ⟨hilt, -, hfirst⟩ := List.idxOf?_eq_some_iff.1 hi
  unfold rolePlace
  rw [hi]
  by_contra hbehind
  simp only [not_le] at hbehind
  -- counted from the end, `j` would come before the first place of the role
  have hback : order.length - 1 - j < i := by omega
  refine hfirst (order.length - 1 - j) hback ?_
  rw [List.getElem_reverse]
  have hsame : order.length - 1 - (order.length - 1 - j) = j := by omega
  simp [hsame, he]

theorem isPlace_rolePlace (order : List String) (role : String) : IsPlace order role (rolePlace order role) := by
  by_cases h : role ∈ order
  · exact Or.inl ⟨getElem?_rolePlace h, fun j hj => le_rolePlace hj⟩
  · exact Or.inr ⟨h, rolePlace_of_notMem h⟩

theorem rolePlace_le (order : List String) (role : String) : rolePlace order role ≤ order.length := by
  by_cases h : role ∈ order
  · exact (List.getElem?_eq_some_iff.1 (getElem?_rolePlace h)).1.le
  · exact (rolePlace_of_notMem h).le

/-- What methods are arranged by. -/
def slot (order : List String) (m : Method) : Nat × Kind := (rolePlace order m.role, m.kind)

def slots (order : List String) : List (Nat × Kind) := (List.range (order.length + 1)).product Kind.all

theorem Kind.mem_all (k : Kind) : k ∈ Kind.all := by cases k <;> decide

theorem slot_mem_slots (order : List String) (m : Method) : m.slot order ∈ slots order := by
  have := rolePlace_le order m.role
  exact List.pair_mem_product.2 ⟨List.mem_range.2 (by omega), Kind.mem_all _⟩

theorem nodup_slots (order : List String) : (slots order).Nodup :=
  List.nodup_range.product (by decide)

theorem arrange_eq_flatMap (order : List String) (ms : List Method) :
    arrange order ms = (slots order).flatMap fun s => ms.filter (·.slot order = s) := by
  rw [arrange_eq, slots]
  unfold List.product
  rw [List.flatMap_assoc]
  refine List.flatMap_congr (fun place _ => ?_)
  rw [List.flatMap_map]
  refine List.flatMap_congr (fun kind _ => List.filter_congr (fun m _ => ?_))
  simp [slot, Prod.ext_iff]

/-- **Methods of one slot stay in the order in which they were met.** -/
theorem filter_slot_arrange (order : List String) (ms : List Method) (s : Nat × Kind) :
    (arrange order ms).filter (·.slot order = s) = ms.filter (·.slot order = s) := by
  rw [arrange_eq_flatMap, filter_key_flatMap (slot order) _ _ (nodup_slots order) (fun s _ m hm => by
    simpa using (List.mem_filter.1 hm).2)]
  by_cases hs : s ∈ slots order
  · rw [if_pos hs]
  · rw [if_neg hs]
    refine (List.filter_eq_nil_iff.2 (fun m _ hm => hs ?_)).symm
    rw [← of_decide_eq_true hm]
    exact slot_mem_slots order m

/-- Methods are arranged alike just if those of each slot are the same. -/
theorem arrange_eq_arrange_iff {order : List String} {ms ns : List Method} : arrange order ms = arrange order ns ↔
    ∀ s, ms.filter (·.slot order = s) = ns.filter (·.slot order = s) := by
  constructor
  · intro h s
    rw [← filter_slot_arrange, h, filter_slot_arrange]
  · intro h
    rw [arrange_eq_flatMap, arrange_eq_flatMap]
    exact List.flatMap_congr (fun s _ => h s)

theorem arrange_arrange (order : List String) (ms : List Method) :
    arrange order (arrange order ms) = arrange order ms :=
  arrange_eq_arrange_iff.2 (filter_slot_arrange order ms)

/-- What is looked for in one slot only is found in the order in which it was met. -/
theorem filter_eq_of_arrange_eq {order : List String} {ms ns : List Method} (h : arrange order ms = arrange order ns)
    {p : Method → Bool} {s : Nat × Kind} (hp : ∀ m, p m = true → m.slot order = s) : ms.filter p = ns.filter p := by
  have hboth : ∀ l : List Method, l.filter p = (l.filter (·.slot order = s)).filter p := by
    intro l
    rw [List.filter_filter]
    refine List.filter_congr (fun m _ => ?_)
    cases hm : p m with
    | false => rfl
    | true => simp [hp m hm]
  rw [hboth ms, hboth ns, arrange_eq_arrange_iff.1 h s]

theorem slot_eq_of_key_eq {order : List String} {k : Key} (m : Method) (h : decide (m.key = k) = true) :
    m.slot order = (rolePlace order k.role, k.kind) := by
  simp only [decide_eq_true_eq] at h
  subst h
  rfl

theorem filter_key_arrange (order : List String) (ms : List Method) (k : Key) :
    (arrange order ms).filter (·.key = k) = ms.filter (·.key = k) :=
  filter_eq_of_arrange_eq (arrange_arrange order ms) slot_eq_of_key_eq

theorem arrange_filter (order : List String) (ms : List Method) (p : Method → Bool) :
    arrange order (ms.filter p) = (arrange order ms).filter p := by
  rw [arrange_eq_flatMap, arrange_eq_flatMap, List.filter_flatMap]
  refine List.flatMap_congr (fun s _ => ?_)
  rw [List.filter_filter, List.filter_filter]
  exact List.filter_congr (fun m _ => Bool.and_comm _ _)

theorem arrange_map {order : List String} {f : Method → Method} (hf : ∀ m, (f m).slot order = m.slot order)
    (ms : List Method) : arrange order (ms.map f) = (arrange order ms).map f := by
  rw [arrange_eq_flatMap, arrange_eq_flatMap, List.map_flatMap]
  exact List.flatMap_congr (fun s _ => filter_map_of_mem (fun m _ => by rw [hf]))

theorem perm_arrange (order : List String) (ms : List Method) : (arrange order ms).Perm ms := by
  refine List.perm_iff_count.2 (fun m => ?_)
  rw [List.count_eq_length_filter, List.count_eq_length_filter]
  refine congrArg List.length (filter_eq_of_arrange_eq (arrange_arrange order ms) (s := m.slot order) (fun n hn => ?_))
  rw [eq_of_beq hn]

/-- `m` comes before `n` among the methods that merging `ms` gives: by the places of their roles, then by their kinds,
and then by where in `ms` their keys are met first. -/
def Precedes (order : List String) (ms : List Method) (m n : Method) : Prop :=
  ∃ i j, IsPlace order m.role i ∧ IsPlace order n.role j ∧
    (i < j ∨ i = j ∧ (Kind.all.idxOf m.kind < Kind.all.idxOf n.kind ∨
      m.kind = n.kind ∧ (ms.map key).idxOf m.key < (ms.map key).idxOf n.key))

theorem pairwise_arrange {order : List String} {ms kept : List Method}
    (h : kept.Pairwise fun m n => (ms.map key).idxOf m.key < (ms.map key).idxOf n.key) :
    (arrange order kept).Pairwise (Precedes order ms) := by
  have hprecedes : ∀ m n : Method, (rolePlace order m.role < rolePlace order n.role ∨
      rolePlace order m.role = rolePlace order n.role ∧ (Kind.all.idxOf m.kind < Kind.all.idxOf n.kind ∨
        m.kind = n.kind ∧ (ms.map key).idxOf m.key < (ms.map key).idxOf n.key)) → Precedes order ms m n :=
    fun m n h => ⟨_, _, isPlace_rolePlace order m.role, isPlace_rolePlace order n.role, h⟩
  have hslot : ∀ {place : Nat} {kind : Kind} {m : Method},
      m ∈ kept.filter (fun m => rolePlace order m.role = place && m.kind = kind) →
        rolePlace order m.role = place ∧ m.kind = kind := fun hm => by simpa using (List.mem_filter.1 hm).2
  rw [arrange_eq, List.pairwise_flatMap]
  refine ⟨fun place _ => List.pairwise_flatMap.2 ⟨fun kind _ => ?_, ?_⟩, ?_⟩
  · -- in one slot the order is that of the keys
    refine (h.filter _).imp_of_mem (fun hm hn hmn => hprecedes _ _ (Or.inr ?_))
    obtain ⟨hpm, hkm⟩ := hslot hm
    obtain ⟨hpn, hkn⟩ := hslot hn
    exact ⟨hpm.trans hpn.symm, Or.inr ⟨hkm.trans hkn.symm, hmn⟩⟩
  · have hkinds : Kind.all.Pairwise fun k l => Kind.all.idxOf k < Kind.all.idxOf l := by decide
    refine hkinds.imp (fun hkl m hm n hn => hprecedes m n (Or.inr ?_))
    obtain ⟨hpm, rfl⟩ := hslot hm
    obtain ⟨hpn, rfl⟩ := hslot hn
    exact ⟨hpm.trans hpn.symm, Or.inl hkl⟩
  · refine List.pairwise_lt_range.imp (fun hlt m hm n hn => hprecedes m n (Or.inl ?_))
    obtain ⟨_, -, hm⟩ := List.mem_flatMap.1 hm
    obtain ⟨_, -, hn⟩ := List.mem_flatMap.1 hn
    rw [(hslot hm).1, (hslot hn).1]
    exact hlt

/-! ## What a key is given -/

/-- Two methods of one key and of this role differ in shape. -/
def Contested (ms : List Method) (role : String) : Prop :=
  ∃ m ∈ ms, ∃ n ∈ ms, Merged.Clash m n ∧ m.role = role

theorem shape_eq_of_not_contested {ms : List Method} {k : Key} (h : ¬ Contested ms k.role) {m n : Method}
    (hm : m ∈ ms ∧ m.key = k) (hn : n ∈ ms ∧ n.key = k) : m.shape = n.shape := by
  obtain ⟨hm, rfl⟩ := hm
  by_contra hne
  exact h ⟨m, hm, n, hn.1, ⟨hn.2.symm, hne⟩, rfl⟩

/-- **Each key is given one method or none.** -/
theorem filter_key_merge (order : List String) (ms : List Method) (k : Key) :
    (merge order ms).kept.filter (·.key = k) = (Merged.settled ms k).toList := by
  show (arrange order ((Merged.ofList ms).kept.filter fun m => m.role ∉ (Merged.ofList ms).conflicted)).filter _ = _
  rw [filter_key_arrange, Merged.filter_key_settled]

/-- All methods of an uncontested key have one shape, so that the first of them takes over what the others come from. -/
theorem settled_of_not_contested {ms : List Method} {k : Key} (h : ¬ Contested ms k.role) {first : Method}
    {rest : List Method} (hf : ms.filter (·.key = k) = first :: rest) :
    Merged.settled ms k =
      some { first with provenance := (rest.map provenance).foldl Provenance.merge first.provenance } := by
  have hkey : ∀ m ∈ first :: rest, m ∈ ms ∧ m.key = k := by
    intro m hm
    simpa [← hf] using hm
  have hshape : rest.filter (·.shape = first.shape) = rest := by
    refine List.filter_eq_self.2 (fun m hm => ?_)
    simpa using shape_eq_of_not_contested h (hkey m (List.mem_cons_of_mem _ hm)) (hkey first List.mem_cons_self)
  unfold Merged.settled Merged.gathered
  rw [if_neg (mt Merged.mem_conflicted.1 h), hf]
  simp only [hshape]

theorem settled_eq_none_of_filter_eq_nil {ms : List Method} {k : Key} (h : ms.filter (·.key = k) = []) :
    Merged.settled ms k = none := by
  unfold Merged.settled Merged.gathered
  rw [h]
  simp

theorem settled_eq_none_of_contested {ms : List Method} {k : Key} (h : Contested ms k.role) :
    Merged.settled ms k = none :=
  if_pos (Merged.mem_conflicted.2 h)

theorem topic_diagnostic (g : Graph) (owner : TypeId) (c : Conflict) :
    (c.diagnostic g owner).topic = ("structural-conflict", some c.second.role) := rfl

/-- **What merging methods comes to**, whatever they are.  Each contested role is reported once and nothing else is.
A contested role has no method; any other key has one method if it is met at all, which is the first one met with the
provenance of all in order.  Methods are in the order of the last places of their roles, then of kinds, then in that in
which their keys are met. -/
theorem merge_settles_keys (order : List String) (ms : List Method) (g : Graph) (owner : TypeId) :
    (∃ names : List String, names.Nodup ∧ (∀ name, name ∈ names ↔ Contested ms name) ∧
      ((merge order ms).conflicts.map fun c => (c.diagnostic g owner).topic) =
        names.map fun name => ("structural-conflict", some name)) ∧
    (∀ k, Contested ms k.role → (merge order ms).kept.filter (·.key = k) = []) ∧
    (∀ k, ¬ Contested ms k.role → (merge order ms).kept.filter (·.key = k) =
      match ms.filter (·.key = k) with
      | [] => []
      | first :: rest =>
        [{ first with provenance := (rest.map provenance).foldl Provenance.merge first.provenance }]) ∧
    (merge order ms).kept.Pairwise (Precedes order ms) := by
  refine ⟨⟨(Merged.ofList ms).conflicted, Merged.nodup_conflicted ms, fun name => Merged.mem_conflicted, ?_⟩,
    fun k hk => ?_, fun k hk => ?_, ?_⟩
  · rw [conflicts_merge]
    unfold Merged.conflicted
    rw [List.map_map]
    exact List.map_congr_left (fun c _ => topic_diagnostic g owner c)
  · rw [filter_key_merge, settled_eq_none_of_contested hk]
    rfl
  · rw [filter_key_merge]
    cases hf : ms.filter (·.key = k) with
    | nil => rw [settled_eq_none_of_filter_eq_nil hf]; rfl
    | cons first rest => rw [settled_of_not_contested hk hf]; rfl
  · have hmet : (Merged.ofList ms).kept.Pairwise fun m n => (ms.map key).idxOf m.key < (ms.map key).idxOf n.key := by
      have hkeys := pairwise_idxOf_eraseDups (ms.map key)
      rwa [← Merged.keys_ofList, List.pairwise_map] at hkeys
    exact pairwise_arrange (hmet.filter _)

end Method
end Accessors
