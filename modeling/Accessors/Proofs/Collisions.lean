import Accessors.Emission
import Mathlib.Data.List.Induction
import Mathlib.Data.List.Nodup
/-!
# Names that methods share

A scan over the methods of a type notes who claims a name first (`lookup_claims`), and so a name is reported just if
methods of two roles claim it (`mem_names`), once (`nodup_names`), and with the first two (`find?_of_mem_collisions`).
Files are made type by type (`emit_report`), one of each type that neither failed nor has a name reported
(`mem_filesFor`).
-/
namespace Accessors
namespace Collision.Scan

/-- Looks at methods one after the other. -/
def ofList (b : Backend) (ms : List Method) : Scan := ms.foldl (add b) ⟨[], []⟩

/-- The names reported so far. -/
def names (s : Scan) : List String := s.collisions.map Collision.name

theorem ofList_concat (b : Backend) (ms : List Method) (m : Method) : ofList b (ms ++ [m]) = (ofList b ms).add b m := by
  simp [ofList, List.foldl_append]

/-- **What looking at one method can do**: its name is new; or it is claimed by its own role or reported already; or
it is reported from now on. -/
theorem add_cases (b : Backend) (s : Scan) (m : Method) :
    (s.claims.lookup (b.methodName m) = none ∧ s.add b m = { s with claims := s.claims ++ [(b.methodName m, m)] }) ∨
    ∃ first, s.claims.lookup (b.methodName m) = some first ∧
      (((first.role = m.role ∨ b.methodName m ∈ s.names) ∧ s.add b m = s) ∨
      ((first.role ≠ m.role ∧ b.methodName m ∉ s.names) ∧
        s.add b m = { s with collisions := s.collisions ++ [⟨b.methodName m, first, m⟩] })) := by
  have hnames : s.collisions.any (·.name = b.methodName m) = decide (b.methodName m ∈ s.names) := by
    rw [Bool.eq_iff_iff]
    simp [names]
  unfold add
  simp only [hnames]
  cases hf : s.claims.lookup (b.methodName m) with
  | none => exact Or.inl ⟨rfl, rfl⟩
  | some first =>
    refine Or.inr ⟨first, rfl, ?_⟩
    by_cases hr : first.role = m.role
    · simp [hr]
    · by_cases hn : b.methodName m ∈ s.names
      · simp [hn]
      · simp [hr, hn]

/-- **A name is claimed** by the first method of that name. -/
theorem lookup_claims (b : Backend) (ms : List Method) (name : String) :
    (ofList b ms).claims.lookup name = ms.find? (fun m => b.methodName m = name) := by
  induction ms using List.reverseRecOn with
  | nil => rfl
  | append_singleton ms m ih =>
    rw [ofList_concat, List.find?_append, ← ih]
    rcases add_cases b (ofList b ms) m with ⟨hf, he⟩ | ⟨first, hf, ⟨-, he⟩ | ⟨-, he⟩⟩ <;> rw [he]
    · rw [List.lookup_append, List.lookup_cons]
      by_cases hn : b.methodName m = name
      · simp [hn]
      · simp [hn, beq_false_of_ne (Ne.symm hn)]
    all_goals
      by_cases hn : b.methodName m = name
      · rw [← hn, hf]; rfl
      · simp [hn]

theorem of_lookup_claims {b : Backend} {ms : List Method} {name : String} {first : Method}
    (h : (ofList b ms).claims.lookup name = some first) : first ∈ ms ∧ b.methodName first = name := by
  rw [lookup_claims] at h
  have hname := List.find?_some h
  exact ⟨List.mem_of_find?_eq_some h, by simpa using hname⟩

theorem names_subset_add (b : Backend) (s : Scan) (m : Method) : s.names ⊆ (s.add b m).names := by
  rcases add_cases b s m with ⟨-, he⟩ | ⟨first, -, ⟨-, he⟩ | ⟨-, he⟩⟩ <;> rw [he]
  · exact List.Subset.refl _
  · exact List.Subset.refl _
  · simp [names]

/-- A method puts its name among those reported if one of another role was looked at before it. -/
theorem mem_names_add {b : Backend} {ms : List Method} {m n : Method} (hn : n ∈ ms)
    (hname : b.methodName n = b.methodName m) (hrole : n.role ≠ m.role)
    (ih : ∀ x ∈ ms, ∀ y ∈ ms, b.methodName x = b.methodName y → x.role ≠ y.role → b.methodName y ∈ (ofList b ms).names) :
    b.methodName m ∈ ((ofList b ms).add b m).names := by
  rcases add_cases b (ofList b ms) m with ⟨hf, -⟩ | ⟨first, hf, ⟨hcase, he⟩ | ⟨-, he⟩⟩
  · rw [lookup_claims, List.find?_eq_none] at hf
    exact absurd (decide_eq_true hname) (hf n hn)
  · rw [he]
    rcases hcase with hr | hm
    · -- the first one has the role of `m`, so the name was reported for it and `n`
      obtain ⟨hfirst, hfname⟩ := of_lookup_claims hf
      rw [← hname]
      exact ih first hfirst n hn (hfname.trans hname.symm) (fun h => hrole (h.symm.trans hr))
    · exact hm
  · rw [he]
    simp [names]

theorem exists_of_mem_names {b : Backend} {ms : List Method} {name : String} (h : name ∈ (ofList b ms).names) :
    ∃ m ∈ ms, ∃ n ∈ ms, b.methodName m = name ∧ b.methodName n = name ∧ m.role ≠ n.role := by
  induction ms using List.reverseRecOn with
  | nil => cases h
  | append_singleton ms m ih =>
    have hold : name ∈ (ofList b ms).names → ∃ x ∈ ms ++ [m], ∃ y ∈ ms ++ [m],
        b.methodName x = name ∧ b.methodName y = name ∧ x.role ≠ y.role := fun hm => by
      obtain ⟨x, hx, y, hy, h⟩ := ih hm
      exact ⟨x, List.mem_append_left _ hx, y, List.mem_append_left _ hy, h⟩
    rw [ofList_concat] at h
    rcases add_cases b (ofList b ms) m with ⟨-, he⟩ | ⟨first, hf, ⟨-, he⟩ | ⟨⟨hr, -⟩, he⟩⟩ <;> rw [he] at h
    · exact hold h
    · exact hold h
    · simp only [names, List.map_append, List.mem_append] at h
      rcases h with h | h
      · exact hold h
      · obtain rfl : name = b.methodName m := by simpa using h
        obtain ⟨hfirst, hfname⟩ := of_lookup_claims hf
        exact ⟨first, List.mem_append_left _ hfirst, m, by simp, hfname, rfl, hr⟩

/-- **The names reported** are those that methods of two roles claim. -/
theorem mem_names {b : Backend} {ms : List Method} {name : String} : name ∈ (ofList b ms).names ↔
    ∃ m ∈ ms, ∃ n ∈ ms, b.methodName m = name ∧ b.methodName n = name ∧ m.role ≠ n.role := by
  refine ⟨exists_of_mem_names, ?_⟩
  rintro ⟨m, hm, n, hn, rfl, hname, hrole⟩
  induction ms using List.reverseRecOn generalizing m n with
  | nil => cases hm
  | append_singleton ms x ih =>
    have ih' : ∀ y ∈ ms, ∀ z ∈ ms, b.methodName y = b.methodName z → y.role ≠ z.role →
        b.methodName z ∈ (ofList b ms).names := fun y hy z hz he hr => he ▸ ih y hy z hz he.symm hr
    rw [ofList_concat]
    rcases List.mem_append.1 hm with hm | hm <;> rcases List.mem_append.1 hn with hn | hn
    · exact names_subset_add b _ x (ih m hm n hn hname hrole)
    · cases List.mem_singleton.1 hn
      rw [← hname]
      exact mem_names_add hm hname.symm hrole ih'
    · cases List.mem_singleton.1 hm
      exact mem_names_add hn hname hrole.symm ih'
    · cases List.mem_singleton.1 hm
      cases List.mem_singleton.1 hn
      exact absurd rfl hrole

/-- **No name is reported twice.** -/
theorem nodup_names (b : Backend) (ms : List Method) : (ofList b ms).names.Nodup := by
  induction ms using List.reverseRecOn with
  | nil => exact List.nodup_nil
  | append_singleton ms m ih =>
    rw [ofList_concat]
    rcases add_cases b (ofList b ms) m with ⟨-, he⟩ | ⟨first, -, ⟨-, he⟩ | ⟨⟨-, hn⟩, he⟩⟩ <;> rw [he]
    · exact ih
    · exact ih
    · simp only [names, List.map_append, List.map_singleton]
      exact ih.append (List.nodup_singleton _) (List.disjoint_singleton.2 hn)

/-- **Whom a collision names**: the first method of the name, and the first one of another role that has the name. -/
theorem find?_of_mem_collisions {b : Backend} {ms : List Method} {c : Collision}
    (h : c ∈ (ofList b ms).collisions) : ms.find? (fun m => b.methodName m = c.name) = some c.first ∧
      ms.find? (fun m => b.methodName m = c.name ∧ m.role ≠ c.first.role) = some c.second := by
  induction ms using List.reverseRecOn with
  | nil => cases h
  | append_singleton ms m ih =>
    have hold : c ∈ (ofList b ms).collisions → (ms ++ [m]).find? (fun m => b.methodName m = c.name) = some c.first ∧
        (ms ++ [m]).find? (fun m => b.methodName m = c.name ∧ m.role ≠ c.first.role) = some c.second := fun hc => by
      rw [List.find?_append, List.find?_append, (ih hc).1, (ih hc).2]
      exact ⟨rfl, rfl⟩
    rw [ofList_concat] at h
    rcases add_cases b (ofList b ms) m with ⟨-, he⟩ | ⟨first, hf, ⟨-, he⟩ | ⟨⟨hr, hn⟩, he⟩⟩ <;> rw [he] at h
    · exact hold h
    · exact hold h
    · rcases List.mem_append.1 h with h | h
      · exact hold h
      · obtain rfl := List.mem_singleton.1 h
        obtain ⟨hfirst, hfname⟩ := of_lookup_claims hf
        -- no other role claims the name before, or it would have been reported
        have hnone : ms.find? (fun n => b.methodName n = b.methodName m ∧ n.role ≠ first.role) = none :=
          List.find?_eq_none.2 (fun n hnm hn' => by
            obtain ⟨hname, hrole⟩ := of_decide_eq_true hn'
            exact hn (mem_names.2 ⟨first, hfirst, n, hnm, hfname, hname, hrole.symm⟩))
        rw [lookup_claims] at hf
        rw [List.find?_append, List.find?_append, hf, hnone]
        exact ⟨rfl, by simp [Ne.symm hr]⟩

end Collision.Scan

namespace Backend

open Collision

/-- **Nothing is reported** just if methods that share a name share their role. -/
theorem collisions_eq_nil_iff {b : Backend} {ms : List Method} :
    b.collisions ms = [] ↔ ∀ m ∈ ms, ∀ n ∈ ms, b.methodName m = b.methodName n → m.role = n.role := by
  have hnames : b.collisions ms = [] ↔ ∀ name, name ∉ (Scan.ofList b ms).names := by
    rw [← List.eq_nil_iff_forall_not_mem]
    exact List.map_eq_nil_iff.symm
  rw [hnames]
  simp only [Scan.mem_names]
  constructor
  · intro h m hm n hn he
    by_contra hr
    exact h _ ⟨m, hm, n, hn, rfl, he.symm, hr⟩
  · rintro h name ⟨m, hm, n, hn, rfl, he, hr⟩
    exact hr (h m hm n hn he.symm)

/-! ## Files -/

/-- The file of a type with these methods. -/
def fileOf (b : Backend) (g : Graph) (n : TypeNode) (ms : List Method) : GeneratedFile :=
  ⟨b, Path.join b.directory (b.fileName n), b.render g n ms⟩

/-- The files that a type contributes to those of its graph. -/
def filesFor (b : Backend) (g : Graph) (t : TypeId) : List GeneratedFile := (b.emitReport g (g.reportOn t)).files

/-- **What is emitted for a report** is what its types contribute, one after the other. -/
theorem emit_eq (b : Backend) (g : Graph) (r : Report) : b.emit g r =
    ⟨r.types.flatMap fun t => (b.emitReport g t).files, r.types.flatMap fun t => (b.emitReport g t).diagnostics⟩ := by
  unfold emit
  induction r.types with
  | nil => rfl
  | cons t ts ih =>
    rw [List.foldr_cons, ih]
    rfl

theorem emit_report (b : Backend) (g : Graph) : b.emit g g.report =
    ⟨g.ids.flatMap (b.filesFor g), g.ids.flatMap fun t => (b.emitReport g (g.reportOn t)).diagnostics⟩ := by
  rw [emit_eq]
  unfold Graph.report
  rw [List.flatMap_map, List.flatMap_map]
  rfl

theorem files_emit (b : Backend) (g : Graph) : (b.emit g g.report).files = g.ids.flatMap (b.filesFor g) :=
  congrArg Emission.files (emit_report b g)

theorem diagnostics_emit (b : Backend) (g : Graph) :
    (b.emit g g.report).diagnostics = g.ids.flatMap fun t => (b.emitReport g (g.reportOn t)).diagnostics :=
  congrArg Emission.diagnostics (emit_report b g)

theorem filesFor_of_collisions_eq_nil {b : Backend} {g : Graph} {t : TypeId} {n : TypeNode} {ms : List Method}
    (hms : (g.reportOn t).methods? = some ms) (hn : g.node? t = some n) (hc : b.collisions ms = []) :
    b.filesFor g t = [b.fileOf g n ms] := by
  have howner : (g.reportOn t).owner = t := rfl
  unfold filesFor emitReport
  rw [hms, howner, hn]
  unfold emitType
  simp only [hc]
  rfl

/-- **Where a type has a file**, it did not fail, no name is reported, and there is no other. -/
theorem mem_filesFor {b : Backend} {g : Graph} {t : TypeId} {f : GeneratedFile} : f ∈ b.filesFor g t ↔
    ∃ n ms, g.node? t = some n ∧ (g.reportOn t).methods? = some ms ∧ b.collisions ms = [] ∧ f = b.fileOf g n ms := by
  constructor
  · intro h
    have howner : (g.reportOn t).owner = t := rfl
    unfold filesFor emitReport at h
    rw [howner] at h
    split at h
    · rename_i ms n hms hn
      unfold emitType at h
      split at h
      · rename_i hc
        exact ⟨n, ms, hn, hms, hc, List.mem_singleton.1 h⟩
      · cases h
    · cases h
  · rintro ⟨n, ms, hn, hms, hc, rfl⟩
    rw [filesFor_of_collisions_eq_nil hms hn hc]
    exact List.mem_cons_self

end Backend
end Accessors
