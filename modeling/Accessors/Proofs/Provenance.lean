import Accessors.Provenance
import Accessors.Proofs.Keyed
/-!
# What a merged provenance holds

Putting one more element behind a list unless it is there already only ever adds to the list, at its end.  So merging
keeps what it starts from, adds what is new in the order in which it is first met, and does not depend on how several
provenances are put together (`Provenance.merge_unites`).
-/
namespace Accessors

variable {α : Type} [DecidableEq α]

theorem mem_pushNew {l : List α} {a x : α} : x ∈ pushNew l a ↔ x ∈ l ∨ x = a := by
  unfold pushNew
  split
  · rename_i h
    exact ⟨Or.inl, fun hx => hx.elim id (fun he => he ▸ h)⟩
  · simp

theorem prefix_pushNew (l : List α) (a : α) : l <+: pushNew l a := by
  unfold pushNew
  split
  · exact List.prefix_refl l
  · exact List.prefix_append l [a]

theorem mem_foldl_pushNew : ∀ {xs l : List α} {x : α}, x ∈ xs.foldl pushNew l ↔ x ∈ l ∨ x ∈ xs
  | [], l, x => by simp
  | a :: xs, l, x => by
    rw [List.foldl_cons, mem_foldl_pushNew, mem_pushNew, List.mem_cons, or_assoc]

theorem prefix_foldl_pushNew : ∀ (xs l : List α), l <+: xs.foldl pushNew l
  | [], l => List.prefix_refl l
  | a :: xs, l => (prefix_pushNew l a).trans (prefix_foldl_pushNew xs _)

theorem nodup_pushNew {l : List α} (h : l.Nodup) (a : α) : (pushNew l a).Nodup := by
  unfold pushNew
  split
  · exact h
  · rename_i ha
    exact h.append (List.nodup_singleton a) (by simpa using ha)

theorem nodup_foldl_pushNew : ∀ (xs : List α) {l : List α}, l.Nodup → (xs.foldl pushNew l).Nodup
  | [], _, h => h
  | a :: xs, _, h => nodup_foldl_pushNew xs (nodup_pushNew h a)

theorem pushNew_of_mem {l : List α} {a : α} (h : a ∈ l) : pushNew l a = l := if_pos h

theorem pushNew_of_notMem {l : List α} {a : α} (h : a ∉ l) : pushNew l a = l ++ [a] := if_neg h

/-- **Nothing is added** just if all of it is there already. -/
theorem foldl_pushNew_eq_self_iff {xs l : List α} : xs.foldl pushNew l = l ↔ ∀ a ∈ xs, a ∈ l := by
  constructor
  · intro h a ha
    rw [← h]
    exact mem_foldl_pushNew.2 (.inr ha)
  · intro h
    induction xs with
    | nil => rfl
    | cons a xs ih =>
      obtain ⟨ha, hxs⟩ := List.forall_mem_cons.1 h
      rw [List.foldl_cons, pushNew_of_mem ha]
      exact ih hxs

/-- **What is added on the way does not matter**: adding a list to which one more element was put is adding the list and
then the element. -/
theorem foldl_pushNew_pushNew (l xs : List α) (a : α) :
    (pushNew xs a).foldl pushNew l = pushNew (xs.foldl pushNew l) a := by
  by_cases h : a ∈ xs
  · rw [pushNew_of_mem h, pushNew_of_mem (mem_foldl_pushNew.2 (.inr h))]
  · rw [pushNew_of_notMem h, List.foldl_append, List.foldl_cons, List.foldl_nil]

theorem foldl_pushNew_assoc (l xs : List α) : ∀ ys : List α,
    ys.foldl pushNew (xs.foldl pushNew l) = (ys.foldl pushNew xs).foldl pushNew l := by
  intro ys
  induction ys generalizing xs with
  | nil => rfl
  | cons a ys ih => rw [List.foldl_cons, List.foldl_cons, ← foldl_pushNew_pushNew, ih]

/-- **Added to a list without repeats**, a list leaves what both hold, each element where it is met first. -/
theorem foldl_pushNew_of_nodup {l : List α} (h : l.Nodup) (xs : List α) :
    xs.foldl pushNew l = (l ++ xs).eraseDups := by
  induction xs using List.reverseRecOn with
  | nil => rw [List.foldl_nil, List.append_nil, eraseDups_eq_self_iff.2 h]
  | append_singleton xs a ih =>
    rw [List.foldl_append, List.foldl_cons, List.foldl_nil, ← List.append_assoc, eraseDups_concat, ih]
    unfold pushNew
    simp only [List.mem_eraseDups]

namespace Provenance

theorem trails_prefix_merge (p q : Provenance) : p.trails <+: (p.merge q).trails := prefix_foldl_pushNew q.trails p.trails

theorem trails_prefix_foldl_merge : ∀ (qs : List Provenance) (p : Provenance), p.trails <+: (qs.foldl merge p).trails
  | [], _ => List.prefix_refl _
  | q :: qs, p => (trails_prefix_merge p q).trans (trails_prefix_foldl_merge qs _)

/-- **Merging many** loses no trail and adds none. -/
theorem mem_trails_foldl_merge {t : Trail} : ∀ {qs : List Provenance} {p : Provenance},
    t ∈ (qs.foldl merge p).trails ↔ ∃ q ∈ p :: qs, t ∈ q.trails
  | [], p => by simp
  | q :: qs, p => by
    rw [List.foldl_cons, mem_trails_foldl_merge]
    simp only [List.exists_mem_cons_iff, merge, mem_foldl_pushNew, or_assoc]

theorem mem_discarded_foldl_merge {x : Discarded} : ∀ {qs : List Provenance} {p : Provenance},
    x ∈ (qs.foldl merge p).discarded ↔ ∃ q ∈ p :: qs, x ∈ q.discarded
  | [], p => by simp
  | q :: qs, p => by
    rw [List.foldl_cons, mem_discarded_foldl_merge]
    simp only [List.exists_mem_cons_iff, merge, mem_foldl_pushNew, or_assoc]

/-- No trail and no discarded alternative occurs twice. -/
structure Nodup (p : Provenance) : Prop where
  trails : p.trails.Nodup
  discarded : p.discarded.Nodup

theorem merge_assoc (p q r : Provenance) : (p.merge q).merge r = p.merge (q.merge r) :=
  congrArg₂ mk (foldl_pushNew_assoc p.trails q.trails r.trails) (foldl_pushNew_assoc p.discarded q.discarded r.discarded)

theorem merge_eq_left_iff {p q : Provenance} : p.merge q = p ↔
    (∀ t ∈ q.trails, t ∈ p.trails) ∧ ∀ x ∈ q.discarded, x ∈ p.discarded := by
  rw [← foldl_pushNew_eq_self_iff, ← foldl_pushNew_eq_self_iff]
  constructor
  · exact fun h => ⟨congrArg trails h, congrArg discarded h⟩
  · exact fun ⟨htrails, hdiscarded⟩ => congrArg₂ mk htrails hdiscarded

theorem Nodup.merge {p : Provenance} (h : p.Nodup) (q : Provenance) : (p.merge q).Nodup :=
  ⟨nodup_foldl_pushNew q.trails h.trails, nodup_foldl_pushNew q.discarded h.discarded⟩

theorem Nodup.merge_eq {p : Provenance} (h : p.Nodup) (q : Provenance) :
    p.merge q = ⟨(p.trails ++ q.trails).eraseDups, (p.discarded ++ q.discarded).eraseDups⟩ :=
  congrArg₂ Provenance.mk (foldl_pushNew_of_nodup h.trails q.trails) (foldl_pushNew_of_nodup h.discarded q.discarded)

/-- **Merging unites provenances in the order in which things are first met**, repeats within them or not.  How three are
put together does not matter; what the first one holds stays in front; nothing changes just if the second one has nothing
new, as where it is the first one again.  The result holds what either does, and has no repeats unless the first one has:
then it is both lists with only the first of equal elements left. -/
theorem merge_unites (p q r : Provenance) :
    (p.merge q).merge r = p.merge (q.merge r) ∧
    (p.trails <+: (p.merge q).trails ∧ p.discarded <+: (p.merge q).discarded) ∧
    (p.merge q = p ↔ (∀ t ∈ q.trails, t ∈ p.trails) ∧ ∀ x ∈ q.discarded, x ∈ p.discarded) ∧
    p.merge p = p ∧
    (∀ t, t ∈ (p.merge q).trails ↔ t ∈ p.trails ∨ t ∈ q.trails) ∧
    (∀ x, x ∈ (p.merge q).discarded ↔ x ∈ p.discarded ∨ x ∈ q.discarded) ∧
    (p.Nodup → (p.merge q).Nodup ∧
      p.merge q = ⟨(p.trails ++ q.trails).eraseDups, (p.discarded ++ q.discarded).eraseDups⟩) :=
  ⟨merge_assoc p q r, ⟨trails_prefix_merge p q, prefix_foldl_pushNew q.discarded p.discarded⟩, merge_eq_left_iff,
    merge_eq_left_iff.2 ⟨fun _ ht => ht, fun _ hx => hx⟩, fun _ => mem_foldl_pushNew, fun _ => mem_foldl_pushNew,
    fun h => ⟨h.merge q, h.merge_eq q⟩⟩

/-- A provenance of one trail takes in another one that has the trail and, twice, a new one. -/
theorem merge_unites_repeats :
    (ofTrail ⟨[⟨0⟩], .declared⟩).merge
        ⟨[⟨[⟨0⟩, ⟨1⟩], .declared⟩, ⟨[⟨0⟩], .declared⟩, ⟨[⟨0⟩, ⟨1⟩], .declared⟩], []⟩ =
      ⟨[⟨[⟨0⟩], .declared⟩, ⟨[⟨0⟩, ⟨1⟩], .declared⟩], []⟩ := by
  have hp : (ofTrail ⟨[⟨0⟩], .declared⟩).Nodup := ⟨by decide, by decide⟩
  obtain ⟨-, -, -, -, -, -, hmerge⟩ := merge_unites (ofTrail ⟨[⟨0⟩], .declared⟩)
    ⟨[⟨[⟨0⟩, ⟨1⟩], .declared⟩, ⟨[⟨0⟩], .declared⟩, ⟨[⟨0⟩, ⟨1⟩], .declared⟩], []⟩ empty
  exact (hmerge hp).2.trans (by decide)

end Provenance
end Accessors
