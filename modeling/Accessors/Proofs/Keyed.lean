import Mathlib.Data.List.Induction
import Mathlib.Data.List.Nodup
/-!
# Lists whose elements have keys

Where no key occurs twice, looking a key up and filtering by it come to the same.
-/
namespace Accessors

variable {α β : Type}

theorem eraseDups_concat [BEq α] [LawfulBEq α] (l : List α) (a : α) :
    (l ++ [a]).eraseDups = if a ∈ l then l.eraseDups else l.eraseDups ++ [a] := by
  rw [List.eraseDups_append]
  by_cases h : a ∈ l
  · have : [a].removeAll l = [] := by simp [List.removeAll, h]
    rw [this, if_pos h]; simp
  · have : [a].removeAll l = [a] := by simp [List.removeAll, h]
    rw [this, if_neg h]; rfl

theorem nodup_eraseDups [BEq α] [LawfulBEq α] (l : List α) : l.eraseDups.Nodup := by
  induction l using List.reverseRecOn with
  | nil => exact List.nodup_nil
  | append_singleton l a ih =>
    rw [eraseDups_concat]
    split
    · exact ih
    · rename_i h
      exact ih.append (List.nodup_singleton a) (by simpa using h)

theorem eraseDups_sublist [BEq α] [LawfulBEq α] (l : List α) : l.eraseDups.Sublist l := by
  induction l using List.reverseRecOn with
  | nil => exact List.Sublist.refl []
  | append_singleton l a ih =>
    rw [eraseDups_concat]
    split
    · exact ih.trans (List.sublist_append_left l [a])
    · exact ih.append (List.Sublist.refl [a])

theorem eraseDups_eq_self_iff [BEq α] [LawfulBEq α] {l : List α} : l.eraseDups = l ↔ l.Nodup := by
  constructor
  · exact fun h => h ▸ nodup_eraseDups l
  · intro h
    induction l using List.reverseRecOn with
    | nil => rfl
    | append_singleton l a ih =>
      obtain ⟨hl, -, hdisjoint⟩ := List.nodup_append.1 h
      have ha : a ∉ l := fun hm => hdisjoint a hm a List.mem_cons_self rfl
      rw [eraseDups_concat, if_neg ha, ih hl]

theorem eraseDups_map [BEq α] [LawfulBEq α] [BEq β] [LawfulBEq β] {f : α → β} (hf : Function.Injective f) (l : List α) :
    (l.map f).eraseDups = l.eraseDups.map f := by
  induction l using List.reverseRecOn with
  | nil => rfl
  | append_singleton l a ih =>
    rw [List.map_append, List.map_singleton, eraseDups_concat, eraseDups_concat, ih]
    by_cases h : a ∈ l
    · rw [if_pos h, if_pos (List.mem_map_of_mem h)]
    · rw [if_neg h, if_neg (fun hm => h ((List.mem_map_of_injective hf).1 hm)), List.map_append, List.map_singleton]

theorem flatMap_filter (p : α → Bool) (f : α → List β) : ∀ (l : List α),
    (l.filter p).flatMap f = l.flatMap (fun a => if p a then f a else [])
  | [] => rfl
  | a :: l => by
    rw [List.flatMap_cons, ← flatMap_filter p f l]
    by_cases h : p a = true
    · rw [List.filter_cons_of_pos h, List.flatMap_cons, if_pos h]
    · rw [List.filter_cons_of_neg h, if_neg h, List.nil_append]

theorem filter_map_of_mem {f : α → β} {p : β → Bool} {q : α → Bool} {l : List α} (h : ∀ a ∈ l, p (f a) = q a) :
    (l.map f).filter p = (l.filter q).map f := by
  rw [List.filter_map]
  exact congrArg _ (List.filter_congr h)

/-- **In a list where no key occurs twice, each key that occurs is that of one element.** -/
theorem filter_eq_singleton_of_nodup [DecidableEq β] (f : α → Option β) : ∀ (l : List α), (l.filterMap f).Nodup →
    ∀ b ∈ l.filterMap f, ∃ a ∈ l, f a = some b ∧ l.filter (fun x => f x = some b) = [a]
  | [], _, _, hb => by cases hb
  | a :: l, hn, b, hb => by
    cases ha : f a with
    | none =>
      rw [List.filterMap_cons_none ha] at hn hb
      obtain ⟨x, hx, hfx, hl⟩ := filter_eq_singleton_of_nodup f l hn b hb
      refine ⟨x, List.mem_cons_of_mem _ hx, hfx, ?_⟩
      rw [List.filter_cons_of_neg (by simp [ha]), hl]
    | some c =>
      rw [List.filterMap_cons_some ha, List.nodup_cons] at hn
      rw [List.filterMap_cons_some ha] at hb
      rcases List.mem_cons.1 hb with rfl | hb
      · refine ⟨a, List.mem_cons_self, ha, ?_⟩
        rw [List.filter_cons_of_pos (by simp [ha]), List.filter_eq_nil_iff.2]
        intro x hx hfx
        exact hn.1 (List.mem_filterMap.2 ⟨x, hx, of_decide_eq_true hfx⟩)
      · obtain ⟨x, hx, hfx, hl⟩ := filter_eq_singleton_of_nodup f l hn.2 b hb
        refine ⟨x, List.mem_cons_of_mem _ hx, hfx, ?_⟩
        have hcb : c ≠ b := fun h => hn.1 (h ▸ hb)
        rw [List.filter_cons_of_neg (by simp [ha, hcb]), hl]

/-- **Where no key occurs twice, the elements of a key are the one that a look-up finds**, if there is one. -/
theorem filter_eq_toList_find? [DecidableEq β] (f : α → β) (l : List α) (hn : (l.map f).Nodup) (b : β) :
    l.filter (fun x => f x = b) = (l.find? (fun x => f x = b)).toList := by
  rw [← List.head?_filter]
  by_cases h : b ∈ l.map f
  · obtain ⟨a, -, -, hf⟩ := filter_eq_singleton_of_nodup (fun x => some (f x)) l
      (by rwa [List.filterMap_eq_map']) b (by rwa [List.filterMap_eq_map'])
    simp only [Option.some.injEq] at hf
    rw [hf]
    rfl
  · have hnil : l.filter (fun x => f x = b) = [] := List.filter_eq_nil_iff.2 (fun x hx hfx =>
      h (List.mem_map.2 ⟨x, hx, of_decide_eq_true hfx⟩))
    rw [hnil]
    rfl

/-- **Where no key occurs twice, looking a key up** finds the one element that has it. -/
theorem find?_eq_some_iff_of_nodup [DecidableEq β] (f : α → β) {l : List α} (hn : (l.map f).Nodup) {a : α} {b : β} :
    l.find? (fun x => f x = b) = some a ↔ a ∈ l ∧ f a = b := by
  have hsome : l.find? (fun x => f x = b) = some a ↔ a ∈ (l.find? (fun x => f x = b)).toList :=
    Option.mem_toList.symm
  rw [hsome, ← filter_eq_toList_find? f l hn, List.mem_filter, decide_eq_true_eq]

theorem flatMap_range_length : ∀ (l : List α) (atPlace : Nat → List β) (f : α → List β),
    (∀ i a, l[i]? = some a → atPlace i = f a) → (List.range l.length).flatMap atPlace = l.flatMap f
  | [], _, _, _ => rfl
  | a :: l, atPlace, f, h => by
    rw [List.length_cons, List.range_succ_eq_map, List.flatMap_cons, List.flatMap_cons, List.flatMap_map, h 0 a rfl,
      flatMap_range_length l (fun i => atPlace i.succ) f (fun i b hb => h i.succ b hb)]

/-- **Lists joined in the order of their keys** hold together what has one key. -/
theorem filter_key_flatMap [DecidableEq α] (key : β → α) (f : α → List β) : ∀ (l : List α), l.Nodup →
    (∀ a ∈ l, ∀ b ∈ f a, key b = a) → ∀ a, (l.flatMap f).filter (fun b => key b = a) = if a ∈ l then f a else []
  | [], _, _, _ => rfl
  | c :: l, hn, hf, a => by
    rw [List.nodup_cons] at hn
    have ih := filter_key_flatMap key f l hn.2 (fun a ha => hf a (List.mem_cons_of_mem _ ha)) a
    rw [List.flatMap_cons, List.filter_append, ih]
    by_cases hc : c = a
    · have hhead : (f c).filter (fun b => key b = a) = f c := List.filter_eq_self.2 (fun b hb =>
        decide_eq_true ((hf c List.mem_cons_self b hb).trans hc))
      rw [hhead, ← hc, if_neg hn.1, if_pos List.mem_cons_self, List.append_nil]
    · have hhead : (f c).filter (fun b => key b = a) = [] := List.filter_eq_nil_iff.2 (fun b hb h =>
        hc ((hf c List.mem_cons_self b hb).symm.trans (of_decide_eq_true h)))
      simp [hhead, Ne.symm hc]

theorem filter_key_infix_flatMap [DecidableEq α] (key : β → α) (f : α → List β) (l : List α) (hn : l.Nodup)
    (hf : ∀ a ∈ l, ∀ b ∈ f a, key b = a) (a : α) : (l.flatMap f).filter (fun b => key b = a) <:+: l.flatMap f := by
  rw [filter_key_flatMap key f l hn hf]
  split
  · rename_i ha
    obtain ⟨before, after, rfl⟩ := List.append_of_mem ha
    exact ⟨before.flatMap f, after.flatMap f, by simp⟩
  · exact List.nil_infix

/-- What is asked for of one key only is looked for among what has the key. -/
theorem filter_flatMap_of_key [DecidableEq α] (key : β → α) (f : α → List β) (l : List α) (hn : l.Nodup)
    (hf : ∀ a ∈ l, ∀ b ∈ f a, key b = a) (p : β → Bool) (a : α) (hp : ∀ b ∈ l.flatMap f, p b = true → key b = a) :
    (l.flatMap f).filter p = if a ∈ l then (f a).filter p else [] := by
  have hboth : (l.flatMap f).filter p = ((l.flatMap f).filter (fun b => key b = a)).filter p := by
    rw [List.filter_filter]
    refine List.filter_congr (fun b hb => ?_)
    cases hpb : p b with
    | false => rfl
    | true => simp [hp b hb hpb]
  rw [hboth, filter_key_flatMap key f l hn hf]
  split <;> rfl

theorem exists_eraseDups_append [BEq α] [LawfulBEq α] (l l' : List α) :
    ∃ new, (l ++ l').eraseDups = l.eraseDups ++ new ∧ ∀ x ∈ new, x ∉ l := by
  refine ⟨(l'.removeAll l).eraseDups, List.eraseDups_append, fun x hx => ?_⟩
  rw [List.mem_eraseDups] at hx
  simpa using (List.mem_filter.1 hx).2

end Accessors
