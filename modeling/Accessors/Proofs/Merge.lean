import Accessors.Method.Merge
import Accessors.Proofs.Keyed
/-!
# What merging keeps and what it reports

Taking methods in one after the other keeps the first of each key, in order, with the provenance of all that agree with
it (`keys_ofList`, `find?_ofList`).  A role is in conflict just if two methods of one key differ in shape
(`mem_conflicted`), and what is reported is the first method that differs from the one kept (`exists_of_mem_conflicts`).

`add_cases` says what taking in one method can do; everything else goes by its cases.
-/
namespace Accessors
namespace Method
namespace Merged

/-- Takes methods in one after the other. -/
def ofList (ms : List Method) : Merged := ms.foldl add empty

theorem ofList_concat (ms : List Method) (m : Method) : ofList (ms ++ [m]) = (ofList ms).add m := by
  unfold ofList
  rw [List.foldl_append]
  rfl

/-- **What taking in one method can do**: its key is new; or it agrees with the method kept; or it disagrees, and its
role is in conflict already, or is from now on. -/
theorem add_cases (acc : Merged) (m : Method) :
    (acc.kept.find? (·.key = m.key) = none ∧ acc.add m = { acc with kept := acc.kept ++ [m] }) ∨
    ∃ k, acc.kept.find? (·.key = m.key) = some k ∧
      ((k.shape = m.shape ∧ acc.add m = { acc with kept := absorb m acc.kept }) ∨
      (k.shape ≠ m.shape ∧ m.role ∈ acc.conflicted ∧ acc.add m = acc) ∨
      (k.shape ≠ m.shape ∧ m.role ∉ acc.conflicted ∧
        acc.add m = { acc with conflicts := acc.conflicts ++ [⟨k, m⟩] })) := by
  unfold add
  cases hf : acc.kept.find? (·.key = m.key) with
  | none => exact Or.inl ⟨rfl, rfl⟩
  | some k =>
    refine Or.inr ⟨k, rfl, ?_⟩
    by_cases hs : k.shape = m.shape
    · exact Or.inl ⟨hs, if_pos hs⟩
    · by_cases hr : m.role ∈ acc.conflicted
      · exact Or.inr (Or.inl ⟨hs, hr, (if_neg hs).trans (if_pos hr)⟩)
      · exact Or.inr (Or.inr ⟨hs, hr, (if_neg hs).trans (if_neg hr)⟩)

/-! ## What is kept -/

/-- The first method of a key, with the provenance of all later ones that have its shape. -/
def gathered (ms : List Method) (k : Key) : Option Method :=
  match ms.filter (·.key = k) with
  | [] => none
  | m :: rest =>
    some { m with provenance := ((rest.filter (·.shape = m.shape)).map provenance).foldl Provenance.merge m.provenance }

theorem gathered_eq_none {ms : List Method} {k : Key} : gathered ms k = none ↔ k ∉ ms.map key := by
  unfold gathered
  cases hf : ms.filter (·.key = k) with
  | nil =>
    refine iff_of_true rfl (fun hk => ?_)
    obtain ⟨m, hm, rfl⟩ := List.mem_map.1 hk
    exact List.filter_eq_nil_iff.1 hf m hm (decide_eq_true rfl)
  | cons m rest =>
    have hm := List.mem_filter.1 (hf ▸ List.mem_cons_self : m ∈ ms.filter (·.key = k))
    exact iff_of_false (fun h => by cases h) (fun h => h (List.mem_map.2 ⟨m, hm.1, of_decide_eq_true hm.2⟩))

/-- What is gathered is the first method of its key but for the provenance. -/
theorem first_of_gathered {ms : List Method} {k : Key} {f : Method} (h : gathered ms k = some f) :
    ∃ m ∈ ms, m.key = k ∧ f.key = k ∧ f.shape = m.shape := by
  unfold gathered at h
  cases hf : ms.filter (·.key = k) with
  | nil => rw [hf] at h; cases h
  | cons m rest =>
    have hm := List.mem_filter.1 (hf ▸ List.mem_cons_self : m ∈ ms.filter (·.key = k))
    rw [hf] at h
    cases h
    have hk : m.key = k := of_decide_eq_true hm.2
    exact ⟨m, hm.1, hk, hk, rfl⟩

theorem gathered_concat_of_ne {ms : List Method} {m : Method} {k : Key} (h : m.key ≠ k) :
    gathered (ms ++ [m]) k = gathered ms k := by
  unfold gathered
  rw [List.filter_append, List.filter_cons_of_neg (by simpa using h), List.filter_nil, List.append_nil]

theorem gathered_concat_none {ms : List Method} {m : Method} (h : gathered ms m.key = none) :
    gathered (ms ++ [m]) m.key = some m := by
  have hnil : ms.filter (·.key = m.key) = [] := List.filter_eq_nil_iff.2 (fun n hn hk =>
    gathered_eq_none.1 h (List.mem_map.2 ⟨n, hn, of_decide_eq_true hk⟩))
  unfold gathered
  rw [List.filter_append, hnil, List.filter_cons_of_pos (by simp)]
  rfl

theorem gathered_concat_some {ms : List Method} {m f : Method} (h : gathered ms m.key = some f) :
    gathered (ms ++ [m]) m.key =
      some (if f.shape = m.shape then { f with provenance := f.provenance.merge m.provenance } else f) := by
  unfold gathered at h ⊢
  rw [List.filter_append, List.filter_cons_of_pos (by simp), List.filter_nil]
  cases hf : ms.filter (·.key = m.key) with
  | nil => rw [hf] at h; cases h
  | cons a rest =>
    rw [hf] at h
    cases h
    simp only [List.cons_append, List.filter_append]
    by_cases hs : a.shape = m.shape
    · rw [if_pos hs, List.filter_cons_of_pos (by simpa using hs.symm), List.filter_nil, List.map_append,
        List.foldl_append]
      rfl
    · rw [if_neg hs, List.filter_cons_of_neg (by simpa using Ne.symm hs), List.filter_nil, List.append_nil]

theorem map_key_absorb (m : Method) (kept : List Method) : (absorb m kept).map key = kept.map key := by
  unfold absorb
  rw [List.map_map]
  refine List.map_congr_left (fun k _ => ?_)
  rw [Function.comp_apply]
  split <;> rfl

theorem find?_absorb (m : Method) (kept : List Method) (k : Key) : (absorb m kept).find? (·.key = k) =
    (kept.find? (·.key = k)).map fun f =>
      if f.key = m.key then { f with provenance := f.provenance.merge m.provenance } else f := by
  unfold absorb
  rw [List.find?_map]
  refine congrArg₂ Option.map rfl (congrArg₂ List.find? (funext (fun f => ?_)) rfl)
  rw [Function.comp_apply]
  split <;> rfl

/-- **One method of each key is kept**, in the order in which the keys are met. -/
theorem keys_ofList (ms : List Method) : (ofList ms).kept.map key = (ms.map key).eraseDups := by
  induction ms using List.reverseRecOn with
  | nil => rfl
  | append_singleton ms m ih =>
    rw [ofList_concat, List.map_append, List.map_cons, List.map_nil, eraseDups_concat, ← ih]
    have hnew : (ofList ms).kept.find? (·.key = m.key) = none ↔ m.key ∉ ms.map key := by
      rw [← List.mem_eraseDups, ← ih, List.find?_eq_none, List.mem_map]
      simp
    rcases add_cases (ofList ms) m with ⟨hf, he⟩ | ⟨f, hf, hcase⟩
    · rw [he, if_neg (hnew.1 hf), List.map_append]
      rfl
    · rw [if_pos (not_not.1 (fun h => by rw [hnew.2 h] at hf; cases hf))]
      rcases hcase with ⟨-, he⟩ | ⟨-, -, he⟩ | ⟨-, -, he⟩ <;> rw [he]
      exact map_key_absorb m _

theorem nodup_keys_ofList (ms : List Method) : ((ofList ms).kept.map key).Nodup := by
  rw [keys_ofList]
  exact nodup_eraseDups _

/-- **What is kept of a key** is what can be gathered of it. -/
theorem find?_ofList (ms : List Method) (k : Key) : (ofList ms).kept.find? (·.key = k) = gathered ms k := by
  induction ms using List.reverseRecOn generalizing k with
  | nil => rfl
  | append_singleton ms m ih =>
    rw [ofList_concat]
    have hm := ih m.key
    rcases add_cases (ofList ms) m with ⟨hf, he⟩ | ⟨f, hf, ⟨hs, he⟩ | ⟨hs, -, he⟩ | ⟨hs, -, he⟩⟩
    all_goals rw [hf] at hm
    all_goals rw [he]
    · rw [List.find?_append, ih k]
      by_cases hk : m.key = k
      · rw [← hk, ← hm, gathered_concat_none hm.symm]
        simp
      · rw [gathered_concat_of_ne hk, List.find?_cons_of_neg (by simpa using hk)]
        simp
    · rw [find?_absorb, ih k]
      by_cases hk : m.key = k
      · rw [← hk, ← hm, gathered_concat_some hm.symm, if_pos hs]
        obtain ⟨-, -, -, hfk, -⟩ := first_of_gathered hm.symm
        rw [Option.map_some, if_pos hfk]
      · rw [gathered_concat_of_ne hk]
        cases hg : gathered ms k with
        | none => rfl
        | some f' =>
          obtain ⟨-, -, -, hfk, -⟩ := first_of_gathered hg
          rw [Option.map_some, if_neg (fun h => hk (h.symm.trans hfk))]
    all_goals
      rw [ih k]
      by_cases hk : m.key = k
      · rw [← hk, ← hm, gathered_concat_some hm.symm, if_neg hs]
      · rw [gathered_concat_of_ne hk]

/-! ## What is reported -/

/-- Two methods of one key that disagree on its shape. -/
def Clash (m n : Method) : Prop := m.key = n.key ∧ m.shape ≠ n.shape

theorem Clash.symm {m n : Method} (h : Clash m n) : Clash n m := ⟨h.1.symm, h.2.symm⟩

theorem Clash.role_eq {m n : Method} (h : Clash m n) : m.role = n.role := congrArg Key.role h.1

theorem conflicted_subset_add (acc : Merged) (m : Method) : acc.conflicted ⊆ (acc.add m).conflicted := by
  rcases add_cases acc m with ⟨-, he⟩ | ⟨f, -, ⟨-, he⟩ | ⟨-, -, he⟩ | ⟨-, -, he⟩⟩ <;> rw [he]
  · exact List.Subset.refl _
  · exact List.Subset.refl _
  · exact List.Subset.refl _
  · unfold conflicted
    rw [List.map_append]
    exact List.subset_append_left _ _

/-- **A conflict tells the first method of its role that clashes** with one before it. -/
theorem exists_of_mem_conflicts {ms : List Method} {c : Conflict} (h : c ∈ (ofList ms).conflicts) :
    ∃ before after, ms = before ++ c.second :: after ∧ c.second.role ∉ (ofList before).conflicted ∧
      ∃ n ∈ before, Clash n c.second := by
  induction ms using List.reverseRecOn with
  | nil => cases h
  | append_singleton ms m ih =>
    have hold : c ∈ (ofList ms).conflicts → ∃ before after, ms ++ [m] = before ++ c.second :: after ∧
        c.second.role ∉ (ofList before).conflicted ∧ ∃ n ∈ before, Clash n c.second := fun hc => by
      obtain ⟨before, after, rfl, hr, hn⟩ := ih hc
      exact ⟨before, after ++ [m], by simp, hr, hn⟩
    rw [ofList_concat] at h
    rcases add_cases (ofList ms) m with ⟨-, he⟩ | ⟨f, hf, ⟨-, he⟩ | ⟨-, -, he⟩ | ⟨hs, hr, he⟩⟩ <;> rw [he] at h
    · exact hold h
    · exact hold h
    · exact hold h
    · rcases List.mem_append.1 h with h | h
      · exact hold h
      · rw [List.mem_singleton.1 h]
        rw [find?_ofList] at hf
        obtain ⟨n, hn, hk, -, hsh⟩ := first_of_gathered hf
        exact ⟨ms, [], rfl, hr, n, hn, hk, fun he => hs (hsh.trans he)⟩

/-- A method that clashes with one taken in before it puts its role in conflict. -/
theorem mem_conflicted_add {ms : List Method} {m n : Method} (hn : n ∈ ms) (h : Clash n m)
    (ih : ∀ a ∈ ms, ∀ b ∈ ms, Clash a b → a.role ∈ (ofList ms).conflicted) :
    m.role ∈ ((ofList ms).add m).conflicted := by
  rcases add_cases (ofList ms) m with ⟨hf, -⟩ | ⟨f, hf, ⟨hs, he⟩ | ⟨-, hr, he⟩ | ⟨-, -, he⟩⟩
  · rw [find?_ofList, gathered_eq_none] at hf
    exact absurd (List.mem_map.2 ⟨n, hn, h.1⟩) hf
  · -- the method kept agrees with `m`, so it is the two before `m` that clash
    rw [find?_ofList] at hf
    obtain ⟨a, ha, hk, -, hsh⟩ := first_of_gathered hf
    have hrole : a.role = m.role := congrArg Key.role hk
    rw [he, ← hrole]
    exact ih a ha n hn ⟨hk.trans h.1.symm, fun hsn => h.2 (hsn.symm.trans (hsh.symm.trans hs))⟩
  · rw [he]
    exact hr
  · rw [he]
    unfold conflicted
    rw [List.map_append]
    exact List.mem_append_right _ List.mem_cons_self

/-- **The roles in conflict** are those of which two methods clash. -/
theorem mem_conflicted {ms : List Method} {role : String} :
    role ∈ (ofList ms).conflicted ↔ ∃ m ∈ ms, ∃ n ∈ ms, Clash m n ∧ m.role = role := by
  constructor
  · intro h
    obtain ⟨c, hc, rfl⟩ := List.mem_map.1 h
    obtain ⟨before, after, rfl, -, n, hn, hclash⟩ := exists_of_mem_conflicts hc
    exact ⟨n, List.mem_append_left _ hn, c.second, List.mem_append_right _ List.mem_cons_self, hclash, hclash.role_eq⟩
  · rintro ⟨m, hm, n, hn, h, rfl⟩
    induction ms using List.reverseRecOn generalizing m n with
    | nil => cases hm
    | append_singleton ms x ih =>
      have ih' : ∀ a ∈ ms, ∀ b ∈ ms, Clash a b → a.role ∈ (ofList ms).conflicted := fun a ha b hb hab => ih a ha b hb hab
      rw [ofList_concat]
      rcases List.mem_append.1 hm with hm | hm <;> rcases List.mem_append.1 hn with hn | hn
      · exact conflicted_subset_add _ x (ih m hm n hn h)
      · cases List.mem_singleton.1 hn
        rw [h.role_eq]
        exact mem_conflicted_add hm h ih'
      · cases List.mem_singleton.1 hm
        exact mem_conflicted_add hn h.symm ih'
      · cases List.mem_singleton.1 hm
        cases List.mem_singleton.1 hn
        exact absurd rfl h.2

theorem nodup_conflicted (ms : List Method) : (ofList ms).conflicted.Nodup := by
  induction ms using List.reverseRecOn with
  | nil => exact List.nodup_nil
  | append_singleton ms m ih =>
    rw [ofList_concat]
    rcases add_cases (ofList ms) m with ⟨-, he⟩ | ⟨f, -, ⟨-, he⟩ | ⟨-, -, he⟩ | ⟨-, hr, he⟩⟩ <;> rw [he]
    · exact ih
    · exact ih
    · exact ih
    · unfold conflicted at ih hr ⊢
      rw [List.map_append]
      exact ih.append (List.nodup_singleton _) (by simpa using hr)

end Merged

/-! ## Arrangement -/

theorem getElem?_rolePlace {order : List String} {role : String} (h : role ∈ order) :
    order[rolePlace order role]? = some role := by
  unfold rolePlace
  obtain ⟨i, hi⟩ := Option.isSome_iff_exists.1 (List.isSome_idxOf?.2 (List.mem_reverse.2 h))
  obtain ⟨hlt, he, -⟩ := List.idxOf?_eq_some_iff.1 hi
  rw [hi, ← List.getElem?_reverse (by simpa using hlt), List.getElem?_eq_getElem hlt, he]

theorem rolePlace_eq_iff {order : List String} (hn : order.Nodup) {role name : String} (hr : role ∈ order) {i : Nat}
    (hi : order[i]? = some name) : rolePlace order role = i ↔ role = name := by
  have hp := getElem?_rolePlace hr
  constructor
  · rintro rfl
    rw [hi] at hp
    exact (Option.some.inj hp).symm
  · rintro rfl
    exact (List.getElem?_inj (List.getElem?_eq_some_iff.1 hp).1 hn).1 (hp.trans hi.symm)

theorem arrange_eq (order : List String) (ms : List Method) :
    arrange order ms = (List.range (order.length + 1)).flatMap fun place => Kind.all.flatMap fun kind =>
      ms.filter fun m => rolePlace order m.role = place && m.kind = kind := by
  unfold arrange
  refine List.flatMap_congr (fun place _ => List.flatMap_congr (fun kind _ => ?_))
  rw [List.filter_map, List.map_map]
  exact List.map_id _

/-- **Methods of given roles are arranged role by role**, and those of one role kind by kind. -/
theorem arrange_of_nodup {order : List String} (hn : order.Nodup) {ms : List Method} (hms : ∀ m ∈ ms, m.role ∈ order) :
    arrange order ms =
      order.flatMap fun name => Kind.all.flatMap fun kind => ms.filter fun m => m.role = name && m.kind = kind := by
  have hlast : (Kind.all.flatMap fun kind => ms.filter fun m => rolePlace order m.role = order.length && m.kind = kind) =
      [] := List.flatMap_eq_nil_iff.2 (fun kind _ => List.filter_eq_nil_iff.2 (fun m hm h => by
    rw [Bool.and_eq_true, decide_eq_true_eq] at h
    have := (List.getElem?_eq_some_iff.1 (getElem?_rolePlace (hms m hm))).1
    omega))
  rw [arrange_eq, List.range_succ, List.flatMap_append, List.flatMap_singleton, hlast, List.append_nil]
  refine flatMap_range_length order _ _ (fun i name hi => List.flatMap_congr (fun kind _ =>
    List.filter_congr (fun m hm => ?_)))
  rw [decide_eq_decide.2 (rolePlace_eq_iff hn (hms m hm) hi)]

theorem conflicts_merge (order : List String) (ms : List Method) :
    (merge order ms).conflicts = (Merged.ofList ms).conflicts := rfl

namespace Merged

/-- What can be gathered of a key, unless its role is in conflict. -/
def settled (ms : List Method) (k : Key) : Option Method :=
  if k.role ∈ (ofList ms).conflicted then none else gathered ms k

theorem settled_eq_gathered {ms : List Method} (h : (ofList ms).conflicted = []) (k : Key) :
    settled ms k = gathered ms k := by
  simp [settled, h]

/-- **Of the roles that are not in conflict**, what can be gathered of a key is all that there is of it. -/
theorem filter_key_settled (ms : List Method) (k : Key) :
    ((ofList ms).kept.filter fun m => m.role ∉ (ofList ms).conflicted).filter (·.key = k) =
      (settled ms k).toList := by
  rw [List.filter_filter]
  unfold settled
  by_cases hk : k.role ∈ (ofList ms).conflicted
  · rw [if_pos hk]
    refine List.filter_eq_nil_iff.2 (fun m _ hm => ?_)
    simp only [Bool.and_eq_true, decide_eq_true_eq] at hm
    obtain ⟨rfl, hrole⟩ := hm
    exact hrole hk
  · rw [if_neg hk, ← find?_ofList, ← filter_eq_toList_find? key _ (nodup_keys_ofList ms)]
    refine List.filter_congr (fun m _ => ?_)
    by_cases hm : m.key = k
    · subst hm
      simpa [key] using hk
    · simp [hm]

end Merged

/-- **Methods of one owner** are merged role by role and kind by kind. -/
theorem kept_merge {order : List String} (hn : order.Nodup) {owner : TypeId} {ms : List Method}
    (hms : ∀ m ∈ ms, m.owner = owner ∧ m.role ∈ order) : (merge order ms).kept =
      order.flatMap fun name => Kind.all.filterMap fun kind => Merged.settled ms ⟨owner, name, kind⟩ := by
  have hkept : ∀ m ∈ (Merged.ofList ms).kept, m.owner = owner ∧ m.role ∈ order := fun m hm => by
    have hk := List.mem_map_of_mem (f := key) hm
    rw [Merged.keys_ofList, List.mem_eraseDups] at hk
    obtain ⟨n, hn, hk⟩ := List.mem_map.1 hk
    obtain ⟨ho, hr⟩ := hms n hn
    have howner : n.owner = m.owner := congrArg Key.owner hk
    have hrole : n.role = m.role := congrArg Key.role hk
    rw [← howner, ← hrole]
    exact ⟨ho, hr⟩
  show arrange order ((Merged.ofList ms).kept.filter fun m => m.role ∉ (Merged.ofList ms).conflicted) = _
  rw [arrange_of_nodup hn (fun m hm => (hkept m (List.mem_filter.1 hm).1).2)]
  refine List.flatMap_congr (fun name _ => ?_)
  rw [List.filterMap_eq_flatMap_toList]
  refine List.flatMap_congr (fun kind _ => ?_)
  rw [← Merged.filter_key_settled]
  refine List.filter_congr (fun m hm => ?_)
  rw [← Bool.decide_and]
  refine decide_eq_decide.2 ⟨fun ⟨hr, hk⟩ => ?_, fun h => ⟨congrArg Key.role h, congrArg Key.kind h⟩⟩
  rw [← hr, ← hk, ← (hkept m (List.mem_filter.1 hm).1).1]
  rfl

end Method
end Accessors
