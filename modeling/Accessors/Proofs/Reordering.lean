import Accessors.Proofs.Embedding
import Mathlib.Logic.Equiv.Basic
/-!
# The order of definitions

Writing the definitions of a source in another order changes nothing but the places of types and the order in which
methods and diagnostics are listed (`Graph.ofSource_reordered`).

A reordering embeds each of the two sources in the other one.  Opposite ends come to a type in the order of the types
that they are written in, so the roles of a type may change places.  Those of one target do not: they are written in
the body of the type or in that of the target, and stand in the order of that body.
-/
namespace Accessors

/-! ## Places in another order -/

section Places

open Equiv (Perm)

/-- Moves the places behind the first one. -/
def movedBehind (σ : Perm Nat) : Perm Nat where
  toFun
    | 0 => 0
    | i + 1 => σ i + 1
  invFun
    | 0 => 0
    | i + 1 => σ.symm i + 1
  left_inv i := by cases i <;> simp
  right_inv i := by cases i <;> simp

/-- **A list in another order** has each element at a place of its own. -/
theorem exists_places_of_perm {α : Type} {l l' : List α} (h : l.Perm l') : ∃ σ : Perm Nat, ∀ i : Nat, l'[σ i]? = l[i]? := by
  induction h with
  | nil => exact ⟨Equiv.refl _, fun _ => rfl⟩
  | cons a _ ih =>
    obtain ⟨σ, hσ⟩ := ih
    refine ⟨movedBehind σ, fun i => ?_⟩
    cases i with
    | zero => rfl
    | succ i => exact hσ i
  | swap a b l =>
    refine ⟨Equiv.swap 0 1, fun i => ?_⟩
    match i with
    | 0 => rw [Equiv.swap_apply_left]; rfl
    | 1 => rw [Equiv.swap_apply_right]; rfl
    | i + 2 => rw [Equiv.swap_apply_of_ne_of_ne (by omega) (by omega)]; rfl
  | trans _ _ ih ih' =>
    obtain ⟨σ, hσ⟩ := ih
    obtain ⟨τ, hτ⟩ := ih'
    exact ⟨σ.trans τ, fun i => (hτ (σ i)).trans (hσ i)⟩

end Places

theorem Source.exists_embeds_of_perm {s s' : Source} (h : s.definitions.Perm s'.definitions) :
    ∃ f, s.Embeds f s' ∧ Function.Surjective f := by
  obtain ⟨σ, hσ⟩ := exists_places_of_perm h
  refine ⟨fun t => ⟨σ t.index⟩, ⟨fun t u he => ?_, fun t => hσ t.index⟩, fun t => ⟨⟨σ.symm t.index⟩, ?_⟩⟩
  · have hindex := σ.injective (TypeId.mk.inj he)
    cases t
    cases u
    exact congrArg TypeId.mk hindex
  · exact congrArg TypeId.mk (σ.apply_symm_apply t.index)

namespace Graph

/-! ## What reordering keeps -/

theorem exists_ofSource_of_perm {s s' : Source} (h : s.definitions.Perm s'.definitions) (hs : ∃ g, ofSource s = .ok g) :
    ∃ g', ofSource s' = .ok g' := by
  obtain ⟨f, hf, -⟩ := Source.exists_embeds_of_perm h
  obtain ⟨hn, hheritage, htargets⟩ := exists_ofSource_iff.1 hs
  have hperm := h.map Located.value
  have hn' : ((s'.definitions.map Located.value).map fun d => d.name.value).Nodup := (hperm.map _).nodup_iff.1 hn
  have hfound := definedAs?_of_embeds hf hn'
  refine exists_ofSource_iff.2 ⟨hn', fun d hd => ?_, fun d hd a ha => ?_⟩
  · obtain ⟨her, hher⟩ := hheritage d (hperm.mem_iff.2 hd)
    exact ⟨_, heritage_map hf.injective hfound hher⟩
  · obtain ⟨⟨t, kind⟩, hdef⟩ := htargets d (hperm.mem_iff.2 hd) a ha
    exact ⟨_, hfound _ t kind hdef⟩

end Graph

/-- What a method is to those who know types by their names. -/
def Method.summary (g : Graph) (m : Method) : String × Method.Kind × String × Multiplicity :=
  (m.role, m.kind, g.name m.target, m.multiplicity)

namespace Graph

/-- The two reports list the same methods and diagnostics, but for the order. -/
structure SameButForOrder (g g' : Graph) (r r' : TypeReport) : Prop where
  failed_iff : r.failed = true ↔ r'.failed = true
  methods : (r.methods.map (Method.summary g)).Perm (r'.methods.map (Method.summary g'))
  diagnostics : (r.diagnostics.map Diagnostic.topic).Perm (r'.diagnostics.map Diagnostic.topic)

theorem Relabels.sameButForOrder {f : TypeId → TypeId} {g g' : Graph} (h : g.Relabels f g')
    (hf : Function.Surjective f) (hname : ∀ t, g'.name (f t) = g.name t) (t : TypeId) :
    SameButForOrder g g' (g.reportOn t) (g'.reportOn (f t)) := by
  cases hms : (g.reportOn t).methods? with
  | none =>
    obtain ⟨name, hd⟩ := methods?_reportOn_eq_none.1 hms
    have hms' : (g'.reportOn (f t)).methods? = none := methods?_reportOn_eq_none.2 ⟨name, (h.disputed_iff hf).2 hd⟩
    refine ⟨?_, ?_, (h.perm_topics hf).symm⟩
    · unfold TypeReport.failed
      rw [hms, hms']
    · unfold TypeReport.methods
      rw [hms, hms']
      exact .nil
  | some ms =>
    obtain ⟨ms', hms', hperm⟩ := h.perm_methods hf hms
    refine ⟨?_, ?_, (h.perm_topics hf).symm⟩
    · unfold TypeReport.failed
      rw [hms, hms']
      rfl
    · have hsummary : ms.map (Method.summary g) =
          (ms.map (Transfer.renaming h.injective).method).map (Method.summary g') := by
        rw [List.map_map]
        refine List.map_congr_left (fun m _ => ?_)
        unfold Method.summary
        rw [← hname]
        rfl
      unfold TypeReport.methods
      rw [hms, hms']
      show (ms.map (Method.summary g)).Perm (ms'.map (Method.summary g'))
      rw [hsummary]
      exact (hperm.map _).symm

/-- **The order in which types are written does not matter.**  A source has a graph just if one with the same
definitions in another order has one.  The same names are then defined, and what is reported on the type of a name is
the same but for the order. -/
theorem ofSource_reordered {s s' : Source} (h : s.definitions.Perm s'.definitions) :
    ((∃ g, ofSource s = .ok g) ↔ ∃ g', ofSource s' = .ok g') ∧
    ∀ g g', ofSource s = .ok g → ofSource s' = .ok g' → ∀ name,
      ((∃ t, g.find? name = some t) ↔ ∃ t', g'.find? name = some t') ∧
      ∀ t t', g.find? name = some t → g'.find? name = some t' →
        SameButForOrder g g' (g.reportOn t) (g'.reportOn t') := by
  refine ⟨⟨exists_ofSource_of_perm h, exists_ofSource_of_perm h.symm⟩, fun g g' hs hs' name => ?_⟩
  obtain ⟨f, hf, hsurj⟩ := Source.exists_embeds_of_perm h
  obtain ⟨f', hf', -⟩ := Source.exists_embeds_of_perm h.symm
  refine ⟨⟨fun ⟨t, ht⟩ => ⟨f t, find?_of_embeds hf hs hs' ht⟩, fun ⟨t', ht'⟩ => ⟨f' t', find?_of_embeds hf' hs' hs ht'⟩⟩,
    fun t t' ht ht' => ?_⟩
  have hplace : t' = f t := Option.some.inj (ht'.symm.trans (find?_of_embeds hf hs hs' ht))
  rw [hplace]
  exact (relabels_of_embeds hf hs hs').sameButForOrder hsurj (name_of_embeds hf hs hs') t

end Graph

/-! ## An example -/

/-- The faculty written the other way round. -/
def Source.facultyReversed : Source := { faculty with definitions := faculty.definitions.reverse }

def Graph.facultyReversed : Graph := (Graph.ofSource .facultyReversed).toOption.getD ⟨none, []⟩

/-- The person stands elsewhere and lists its courses before its mentor; otherwise nothing is different. -/
theorem Graph.ofSource_reordered_faculty :
    Source.faculty.definitions.Perm Source.facultyReversed.definitions ∧
    Graph.ofSource .faculty = .ok .faculty ∧ Graph.ofSource .facultyReversed = .ok .facultyReversed ∧
    faculty.find? "Person" = some ⟨0⟩ ∧ facultyReversed.find? "Person" = some ⟨2⟩ ∧
    SameButForOrder faculty facultyReversed (faculty.reportOn ⟨0⟩) (facultyReversed.reportOn ⟨2⟩) ∧
    (faculty.reportOn ⟨0⟩).methods.map (fun m => (m.kind, m.role)) = [(.get, "students"), (.add, "students"),
      (.remove, "students"), (.get, "mentor"), (.set, "mentor"), (.get, "courses"), (.add, "courses"),
      (.remove, "courses")] ∧
    (facultyReversed.reportOn ⟨2⟩).methods.map (fun m => (m.kind, m.role)) = [(.get, "students"), (.add, "students"),
      (.remove, "students"), (.get, "courses"), (.add, "courses"), (.remove, "courses"), (.get, "mentor"),
      (.set, "mentor")] := by
  have hperm : Source.faculty.definitions.Perm Source.facultyReversed.definitions := (List.reverse_perm _).symm
  have hs : Graph.ofSource .faculty = .ok .faculty := rfl
  have hs' : Graph.ofSource .facultyReversed = .ok .facultyReversed := rfl
  have ht : faculty.find? "Person" = some ⟨0⟩ := rfl
  have ht' : facultyReversed.find? "Person" = some ⟨2⟩ := rfl
  obtain ⟨-, hsame⟩ := ofSource_reordered hperm
  obtain ⟨-, hreports⟩ := hsame _ _ hs hs' "Person"
  exact ⟨hperm, hs, hs', ht, ht', hreports _ _ ht ht', rfl, rfl⟩

end Accessors
