import Accessors.Proofs.Merge
import Accessors.Proofs.Resolution
import Accessors.Report
/-!
# The methods of a type

Which methods a type is given follows from its navigable declarations alone.  If two of one name disagree on the target
or the multiplicity, the type fails and that name is reported, with the getter (`methods?_reportOn_eq_none`,
`conflicts_reportOn`); otherwise each name gets the methods that its declarations ask for, in order, with the
provenance of all of them (`methods?_reportOn`).
-/
namespace Accessors

/-! ## What declarations ask for -/

namespace Declaration

/-- The method of one kind for a declaration. -/
def method (owner : TypeId) (d : Declaration) (kind : Method.Kind) : Method :=
  { owner
    kind
    role := d.role.name
    target := d.role.target
    multiplicity := d.role.multiplicity
    shape := .of kind d.role.multiplicity d.role.target
    provenance := d.provenance
    span := d.role.span }

theorem methods_eq (owner : TypeId) (d : Declaration) :
    d.methods owner = (Method.Kind.needed d.role.multiplicity d.role.navigable).map (d.method owner) := rfl

/-- Two declarations of one target and one multiplicity. -/
def Agrees (d e : Declaration) : Prop := d.role.target = e.role.target ∧ d.role.multiplicity = e.role.multiplicity

theorem key_method (owner : TypeId) (d : Declaration) (kind : Method.Kind) :
    (d.method owner kind).key = ⟨owner, d.role.name, kind⟩ := rfl

theorem Agrees.shape_eq {d e : Declaration} (h : d.Agrees e) (owner : TypeId) (kind : Method.Kind) :
    (d.method owner kind).shape = (e.method owner kind).shape := by
  unfold method
  rw [h.1, h.2]

/-- **Getters tell declarations apart**: theirs have one shape just if they agree. -/
theorem agrees_iff_shape_get (owner : TypeId) (d e : Declaration) :
    d.Agrees e ↔ (d.method owner .get).shape = (e.method owner .get).shape := by
  unfold Agrees method Method.Shape.of
  cases d.role.multiplicity <;> cases e.role.multiplicity <;> simp

end Declaration

namespace Method

/-- What a method is, whatever trails lead to it and wherever it is written. -/
structure Signature where
  owner : TypeId
  kind : Kind
  role : String
  target : TypeId
  multiplicity : Multiplicity
  shape : Shape
deriving DecidableEq

def signature (m : Method) : Signature := ⟨m.owner, m.kind, m.role, m.target, m.multiplicity, m.shape⟩

/-- The methods that a role asks for which can be reached from its holder, in order of kinds. -/
def signatures (owner : TypeId) (d : Declaration) : List Signature :=
  (Kind.needed d.role.multiplicity true).map fun kind =>
    ⟨owner, kind, d.role.name, d.role.target, d.role.multiplicity, .of kind d.role.multiplicity d.role.target⟩

theorem signatures_eq_of_agrees {d e : Declaration} (h : d.Agrees e) (hn : d.role.name = e.role.name) (owner : TypeId) :
    signatures owner d = signatures owner e := by
  unfold signatures
  rw [h.1, h.2, hn]

theorem Kind.get_mem_needed (m : Multiplicity) : Kind.get ∈ Kind.needed m true := by
  cases m <;> decide

theorem Kind.nodup_needed (m : Multiplicity) (navigable : Bool) : (Kind.needed m navigable).Nodup := by
  cases m <;> cases navigable <;> decide

theorem Kind.filterMap_all_needed {α : Type} (m : Multiplicity) (f : Kind → α) :
    (Kind.all.filterMap fun kind => if kind ∈ Kind.needed m true then some (f kind) else none) =
      (Kind.needed m true).map f := by
  cases m <;> rfl

/-- The methods that declarations ask for, one declaration after the other. -/
def ofDeclarations (owner : TypeId) (ds : List Declaration) : List Method := ds.flatMap (Declaration.methods owner)

theorem mem_ofDeclarations {owner : TypeId} {ds : List Declaration} {m : Method} : m ∈ ofDeclarations owner ds ↔
    ∃ d ∈ ds, ∃ kind ∈ Kind.needed d.role.multiplicity d.role.navigable, m = d.method owner kind := by
  unfold ofDeclarations
  rw [List.mem_flatMap]
  simp only [Declaration.methods_eq, List.mem_map, eq_comm]

/-- What the declarations of one role, which agree, ask for. -/
def block (owner : TypeId) : List Declaration → List Method
  | [] => []
  | d :: ds => (Kind.needed d.role.multiplicity true).map fun kind =>
      { d.method owner kind with provenance := (ds.map Declaration.provenance).foldl Provenance.merge d.provenance }

theorem block_cons (owner : TypeId) (d : Declaration) (ds : List Declaration) : block owner (d :: ds) =
    (Kind.needed d.role.multiplicity true).map fun kind =>
      { d.method owner kind with provenance := (ds.map Declaration.provenance).foldl Provenance.merge d.provenance } := rfl

theorem map_signature_block (owner : TypeId) (ds : List Declaration) :
    (block owner ds).map signature = ds.head?.elim [] (signatures owner) := by
  cases ds with
  | nil => rfl
  | cons d ds => exact List.map_map

theorem role_of_mem_block {owner : TypeId} {name : String} : ∀ {ds : List Declaration},
    (∀ d ∈ ds, d.role.name = name) → ∀ m ∈ block owner ds, m.role = name
  | [], _, _, hm => by cases hm
  | d :: ds, h, m, hm => by
    obtain ⟨kind, -, rfl⟩ := List.mem_map.1 hm
    exact h d List.mem_cons_self

theorem nodup_keys_block (owner : TypeId) : ∀ (ds : List Declaration), ((block owner ds).map key).Nodup
  | [] => List.nodup_nil
  | d :: ds => by
    unfold block
    rw [List.map_map]
    exact List.Nodup.map (fun k l h => congrArg Key.kind h) (Kind.nodup_needed _ _)

theorem filter_key_methods (owner : TypeId) (name : String) (kind : Kind) (d : Declaration) :
    (d.methods owner).filter (fun m => m.key = ⟨owner, name, kind⟩) =
      if d.role.name = name ∧ kind ∈ Kind.needed d.role.multiplicity d.role.navigable then [d.method owner kind]
      else [] := by
  rw [Declaration.methods_eq, List.filter_map]
  split
  · rename_i h
    obtain ⟨k, -, he, hf⟩ := filter_eq_singleton_of_nodup some _
      (by rw [List.filterMap_some]; exact Kind.nodup_needed d.role.multiplicity d.role.navigable) kind
      (by rw [List.filterMap_some]; exact h.2)
    have hcongr : ∀ k ∈ Kind.needed d.role.multiplicity d.role.navigable,
        ((fun m : Method => decide (m.key = ⟨owner, name, kind⟩)) ∘ d.method owner) k = decide (some k = some kind) :=
      fun k _ => decide_eq_decide.2 (by rw [Declaration.key_method, h.1]; simp)
    rw [List.filter_congr hcongr, hf, ← Option.some.inj he]
    rfl
  · rename_i h
    refine List.map_eq_nil_iff.2 (List.filter_eq_nil_iff.2 (fun k hk hkey => h ?_))
    have hkey := of_decide_eq_true hkey
    rw [Declaration.key_method] at hkey
    cases hkey
    exact ⟨rfl, hk⟩

theorem filter_key_ofDeclarations (owner : TypeId) (name : String) (kind : Kind) (ds : List Declaration) :
    (ofDeclarations owner ds).filter (fun m => m.key = ⟨owner, name, kind⟩) =
      (ds.filter fun d => d.role.name = name ∧ kind ∈ Kind.needed d.role.multiplicity d.role.navigable).map
        (fun d => d.method owner kind) := by
  unfold ofDeclarations
  rw [List.filter_flatMap, List.map_eq_flatMap, flatMap_filter]
  refine List.flatMap_congr (fun d _ => ?_)
  rw [filter_key_methods]
  simp only [decide_eq_true_eq]

/-- Navigable declarations of one name and one multiplicity ask for a kind all together, or none of them does. -/
theorem filter_needed {name : String} {ds : List Declaration} (m : Multiplicity)
    (hnav : ∀ d ∈ ds, d.role.navigable = true) (hmul : ∀ d ∈ ds, d.role.name = name → d.role.multiplicity = m)
    (kind : Kind) :
    ds.filter (fun d => d.role.name = name ∧ kind ∈ Kind.needed d.role.multiplicity d.role.navigable) =
      if kind ∈ Kind.needed m true then ds.filter (fun d => d.role.name = name) else [] := by
  have hiff : ∀ d ∈ ds, (d.role.name = name ∧ kind ∈ Kind.needed d.role.multiplicity d.role.navigable) ↔
      (d.role.name = name ∧ kind ∈ Kind.needed m true) := fun d hd => by
    refine and_congr_right (fun hn => ?_)
    rw [hnav d hd, hmul d hd hn]
  rw [List.filter_congr (q := fun d => decide (d.role.name = name ∧ kind ∈ Kind.needed m true))
    (fun d hd => decide_eq_decide.2 (hiff d hd))]
  split
  · rename_i hk
    exact List.filter_congr (fun d _ => by simp [hk])
  · rename_i hk
    exact List.filter_eq_nil_iff.2 (fun d _ => by simp [hk])

/-- What is gathered for one kind of a name whose declarations agree: the first one's method, with the provenance of
all. -/
theorem gathered_ofDeclarations (owner : TypeId) {name : String} {ds rest : List Declaration} {d : Declaration}
    (hf : ds.filter (fun d => d.role.name = name) = d :: rest) (hnav : ∀ d ∈ ds, d.role.navigable = true)
    (hagree : ∀ d ∈ ds, ∀ e ∈ ds, d.role.name = name → e.role.name = name → d.Agrees e) (kind : Kind) :
    Merged.gathered (ofDeclarations owner ds) ⟨owner, name, kind⟩ =
      if kind ∈ Kind.needed d.role.multiplicity true then
        some { d.method owner kind with
          provenance := (rest.map Declaration.provenance).foldl Provenance.merge d.provenance }
      else none := by
  have hmem : ∀ e ∈ d :: rest, e ∈ ds ∧ e.role.name = name := fun e he => by
    rw [← hf, List.mem_filter, decide_eq_true_eq] at he
    exact he
  obtain ⟨hd, hname⟩ := hmem d List.mem_cons_self
  have hshape : (rest.map fun e => e.method owner kind).filter (·.shape = (d.method owner kind).shape) =
      rest.map fun e => e.method owner kind := List.filter_eq_self.2 (fun m hm => by
    obtain ⟨e, he, rfl⟩ := List.mem_map.1 hm
    obtain ⟨he, hn⟩ := hmem e (List.mem_cons_of_mem d he)
    exact decide_eq_true ((hagree e he d hd hn hname).shape_eq owner kind))
  unfold Merged.gathered
  rw [filter_key_ofDeclarations, filter_needed d.role.multiplicity hnav
    (fun e he hn => (hagree e he d hd hn hname).2), hf]
  by_cases hk : kind ∈ Kind.needed d.role.multiplicity true
  · rw [if_pos hk, if_pos hk, List.map_cons]
    simp only [hshape, List.map_map]
    rfl
  · rw [if_neg hk, if_neg hk]
    rfl

/-- **What is gathered for one name** whose declarations agree is what its block holds. -/
theorem filterMap_gathered (owner : TypeId) (name : String) {ds : List Declaration}
    (hnav : ∀ d ∈ ds, d.role.navigable = true)
    (hagree : ∀ d ∈ ds, ∀ e ∈ ds, d.role.name = name → e.role.name = name → d.Agrees e) :
    (Kind.all.filterMap fun kind => Merged.gathered (ofDeclarations owner ds) ⟨owner, name, kind⟩) =
      block owner (ds.filter fun d => d.role.name = name) := by
  cases hf : ds.filter (fun d => d.role.name = name) with
  | nil =>
    refine List.filterMap_eq_nil_iff.2 (fun kind _ => Merged.gathered_eq_none.2 (fun hk => ?_))
    obtain ⟨m, hm, hkey⟩ := List.mem_map.1 hk
    obtain ⟨d, hd, k, -, rfl⟩ := mem_ofDeclarations.1 hm
    exact List.filter_eq_nil_iff.1 hf d hd (decide_eq_true (congrArg Key.role hkey))
  | cons d rest =>
    simp only [gathered_ofDeclarations owner hf hnav hagree]
    exact Kind.filterMap_all_needed _ _

/-! ## Conflicts -/

theorem getter_mem_ofDeclarations {owner : TypeId} {ds : List Declaration} {d : Declaration} (hd : d ∈ ds)
    (hnav : d.role.navigable = true) : d.method owner .get ∈ ofDeclarations owner ds :=
  mem_ofDeclarations.2 ⟨d, hd, .get, hnav ▸ Kind.get_mem_needed _, rfl⟩

/-- **The names in conflict** are those of which two declarations disagree. -/
theorem mem_conflicted_ofDeclarations {owner : TypeId} {ds : List Declaration}
    (hnav : ∀ d ∈ ds, d.role.navigable = true) {name : String} :
    name ∈ (Merged.ofList (ofDeclarations owner ds)).conflicted ↔
      ∃ d ∈ ds, ∃ e ∈ ds, d.role.name = name ∧ e.role.name = name ∧ ¬ d.Agrees e := by
  rw [Merged.mem_conflicted]
  constructor
  · rintro ⟨m, hm, n, hn, ⟨hkey, hshape⟩, rfl⟩
    obtain ⟨d, hd, k, -, rfl⟩ := mem_ofDeclarations.1 hm
    obtain ⟨e, he, l, -, rfl⟩ := mem_ofDeclarations.1 hn
    rw [Declaration.key_method, Declaration.key_method] at hkey
    obtain ⟨-, hname, rfl⟩ := Key.mk.inj hkey
    exact ⟨d, hd, e, he, rfl, hname.symm, fun h => hshape (h.shape_eq owner k)⟩
  · rintro ⟨d, hd, e, he, rfl, hname, h⟩
    refine ⟨_, getter_mem_ofDeclarations hd (hnav d hd), _, getter_mem_ofDeclarations he (hnav e he), ⟨?_, ?_⟩, rfl⟩
    · rw [Declaration.key_method, Declaration.key_method, hname]
    · exact fun hs => h ((Declaration.agrees_iff_shape_get owner d e).2 hs)

/-- A declaration's getter comes before its other methods. -/
theorem getter_mem_of_prefix {owner : TypeId} : ∀ {ds : List Declaration}, (∀ d ∈ ds, d.role.navigable = true) →
    ∀ (before after : List Method), ofDeclarations owner ds = before ++ after → ∀ m ∈ before,
      ∃ d ∈ ds, ∃ kind, m = d.method owner kind ∧ d.method owner .get ∈ before
  | [], _, before, after, h, m, hm => by
    rw [(List.append_eq_nil_iff.1 h.symm).1] at hm
    cases hm
  | d :: ds, hnav, before, after, h, m, hm => by
    unfold ofDeclarations at h
    rw [List.flatMap_cons, List.append_eq_append_iff] at h
    rcases h with ⟨rest, rfl, h⟩ | ⟨rest, h, -⟩
    · rcases List.mem_append.1 hm with hm | hm
      · rw [Declaration.methods_eq, hnav d List.mem_cons_self] at hm ⊢
        obtain ⟨kind, -, rfl⟩ := List.mem_map.1 hm
        exact ⟨d, List.mem_cons_self, kind, rfl,
          List.mem_append_left _ (List.mem_map_of_mem (Kind.get_mem_needed _))⟩
      · obtain ⟨e, he, kind, rfl, hget⟩ := getter_mem_of_prefix
          (fun e he => hnav e (List.mem_cons_of_mem _ he)) _ _ h m hm
        exact ⟨e, List.mem_cons_of_mem _ he, kind, rfl, List.mem_append_right _ hget⟩
    · have hm' : m ∈ d.methods owner := h ▸ List.mem_append_left _ hm
      rw [Declaration.methods_eq] at hm'
      obtain ⟨kind, -, rfl⟩ := List.mem_map.1 hm'
      refine ⟨d, List.mem_cons_self, kind, rfl, ?_⟩
      cases before with
      | nil => cases hm
      | cons x before =>
        have hx : x = d.method owner .get := by
          rw [Declaration.methods_eq, hnav d List.mem_cons_self] at h
          unfold Kind.needed at h
          cases hmul : d.role.multiplicity <;> rw [hmul] at h <;> exact (List.cons.inj h).1.symm
        rw [hx]
        exact List.mem_cons_self

/-- **A conflict is told by the getters.** -/
theorem kind_of_mem_conflicts {owner : TypeId} {ds : List Declaration} (hnav : ∀ d ∈ ds, d.role.navigable = true)
    {c : Conflict} (hc : c ∈ (Merged.ofList (ofDeclarations owner ds)).conflicts) : c.second.kind = .get := by
  obtain ⟨before, after, hsplit, hrole, n, hn, hclash⟩ := Merged.exists_of_mem_conflicts hc
  obtain ⟨e, -, l, rfl, he⟩ := getter_mem_of_prefix hnav _ _ hsplit n hn
  obtain ⟨d, -, k, hk, hd⟩ := getter_mem_of_prefix hnav (before ++ [c.second]) after
    (by rw [hsplit]; simp) c.second (List.mem_append_right _ List.mem_cons_self)
  rcases List.mem_append.1 hd with hd | hd
  · -- both getters come before, so they agree, and so do the two methods that clash
    exfalso
    have hkey := hclash.1
    rw [hk, Declaration.key_method, Declaration.key_method] at hkey
    have hname : e.role.name = d.role.name := (Key.mk.inj hkey).2.1
    have hagree : e.Agrees d := by
      rw [Declaration.agrees_iff_shape_get owner]
      by_contra hs
      refine hrole (Merged.mem_conflicted.2 ⟨_, he, _, hd, ⟨?_, hs⟩, ?_⟩)
      · rw [Declaration.key_method, Declaration.key_method, hname]
      · rw [hk]; exact hname
    have hshape := hclash.2
    rw [hk, (Key.mk.inj hkey).2.2] at hshape
    exact hshape (hagree.shape_eq owner k)
  · rw [← List.mem_singleton.1 hd]
    rfl

end Method

/-! ## From a resolution to a report -/

namespace Resolution

/-- The declarations of roles that can be reached from their holders. -/
def navigable (r : Resolution) : List Declaration :=
  (r.roles.flatMap ResolvedRole.declarations).filter (·.role.navigable)

/-- Two navigable declarations of a name differ in target or multiplicity. -/
def Disputed (r : Resolution) (name : String) : Prop :=
  ∃ d ∈ r.navigable, ∃ e ∈ r.navigable, d.role.name = name ∧ e.role.name = name ∧ ¬ d.Agrees e

theorem mem_navigable {r : Resolution} {d : Declaration} :
    d ∈ r.navigable ↔ (∃ x ∈ r.roles, d ∈ x.declarations) ∧ d.role.navigable = true := by
  unfold navigable
  rw [List.mem_filter, List.mem_flatMap]

theorem agrees_of_not_disputed {r : Resolution} (h : ∀ name, ¬ r.Disputed name) {d e : Declaration}
    (hd : d ∈ r.navigable) (he : e ∈ r.navigable) (hn : d.role.name = e.role.name) : d.Agrees e := by
  by_contra hde
  exact h _ ⟨d, hd, e, he, rfl, hn.symm, hde⟩

/-- Where nothing is disputed, a name stands for one association. -/
theorem key_eq_of_name_eq {r : Resolution} (h : ∀ name, ¬ r.Disputed name) {d e : Declaration} (hd : d ∈ r.navigable)
    (he : e ∈ r.navigable) (hn : e.role.name = d.role.name) : (e.role.name, e.role.target) = (d.role.name, d.role.target) :=
  Prod.ext hn (agrees_of_not_disputed h he hd hn).1

/-- Only navigable declarations ask for methods. -/
theorem methods_eq (r : Resolution) : r.methods = Method.ofDeclarations r.owner r.navigable := by
  unfold methods Method.ofDeclarations navigable
  rw [flatMap_filter, ← List.flatMap_assoc]
  refine List.flatMap_congr (fun d _ => ?_)
  rw [Declaration.methods_eq]
  split
  · rfl
  · rename_i h
    rw [Bool.not_eq_true] at h
    rw [h]
    rfl

theorem nodup_roleOrder (r : Resolution) : r.roleOrder.Nodup := nodup_eraseDups _

theorem name_mem_roleOrder {g : Graph} {o : TypeId} {d : Declaration} (h : d ∈ (g.resolve o).navigable) :
    d.role.name ∈ (g.resolve o).roleOrder := by
  obtain ⟨⟨x, hx, hd⟩, -⟩ := mem_navigable.1 h
  obtain ⟨-, -, -, -, hname, -⟩ := mem_declarations_resolve hx hd
  unfold roleOrder
  rw [List.mem_eraseDups, hname]
  exact List.mem_map_of_mem hx

/-- The navigable declarations of one association, however they are selected. -/
theorem filter_navigable (g : Graph) (o : TypeId) (p : Declaration → Bool) (k : String × TypeId)
    (hp : ∀ d ∈ (g.resolve o).navigable, p d = true → (d.role.name, d.role.target) = k) :
    (g.resolve o).navigable.filter p =
      (declared g o (candidates g (g.ancestry o)) k).filter (fun d => p d && d.role.navigable) := by
  unfold navigable at hp ⊢
  rw [flatMap_declarations_resolve] at hp ⊢
  have hkey := filter_flatMap_of_key (fun d : Declaration => (d.role.name, d.role.target))
    (declared g o (candidates g (g.ancestry o))) (keys (candidates g (g.ancestry o))) (nodup_keys _)
    (fun k _ d hd => (of_mem_declared hd).1) (fun d => p d && d.role.navigable) k (fun d hd h => by
      rw [Bool.and_eq_true] at h
      exact hp d (List.mem_filter.2 ⟨hd, h.2⟩) h.1)
  rw [List.filter_filter, hkey]
  split
  · rfl
  · rename_i hk
    exact (List.filter_eq_nil_iff.2 (fun d hd => absurd (of_mem_declared hd).2 hk)).symm

end Resolution

namespace Diagnostic

/-- What a diagnostic is about: the kind of its cause and, if it is one, the role at fault. -/
def topic (d : Diagnostic) : String × Option String := (d.cause.kind, d.cause.role?)

end Diagnostic

theorem Resolution.map_topic_diagnostics (g : Graph) (r : Resolution) : (r.diagnostics g).map Diagnostic.topic =
    r.cycles.map (fun _ => ("cyclic-inheritance", none)) ++
      (r.roles.flatMap fun role => role.tieBreaks.map (·.kept.role.name)).map fun name =>
        ("multiplicity-tie-break", some name) := by
  unfold diagnostics
  rw [List.map_append, List.map_map, List.map_flatMap, List.map_flatMap]
  refine congrArg _ (List.flatMap_congr (fun role _ => ?_))
  rw [List.map_map, List.map_map]
  rfl

/-- The role and the method that a structural conflict is about. -/
def Diagnostic.conflict? (d : Diagnostic) : Option (String × String) :=
  match d.cause with
  | .structuralConflict role method _ _ => some (role, method)
  | _ => none

namespace Graph

open Resolution Method

theorem navigable_of_mem_navigable {r : Resolution} : ∀ d ∈ r.navigable, d.role.navigable = true :=
  fun _ hd => (mem_navigable.1 hd).2

theorem reportOn_eq (g : Graph) (o : TypeId) : g.reportOn o =
    { owner := o
      methods? :=
        if (Merged.ofList (ofDeclarations o (g.resolve o).navigable)).conflicts.isEmpty then
          some (merge (g.resolve o).roleOrder (ofDeclarations o (g.resolve o).navigable)).kept
        else none
      diagnostics := (g.resolve o).diagnostics g ++
        (Merged.ofList (ofDeclarations o (g.resolve o).navigable)).conflicts.map (Conflict.diagnostic g o) } := by
  have howner : (g.resolve o).owner = o := rfl
  unfold reportOn
  simp only [methods_eq, howner, Merged.isClean, conflicts_merge]

theorem methods?_reportOn_eq_ite (g : Graph) (o : TypeId) : (g.reportOn o).methods? =
    if (merge (g.resolve o).roleOrder (g.resolve o).methods).isClean then
      some (merge (g.resolve o).roleOrder (g.resolve o).methods).kept
    else none := rfl

theorem diagnostics_reportOn_eq (g : Graph) (o : TypeId) : (g.reportOn o).diagnostics = (g.resolve o).diagnostics g ++
    (merge (g.resolve o).roleOrder (g.resolve o).methods).conflicts.map (Conflict.diagnostic g o) := rfl

theorem map_topic_reportOn (g : Graph) (o : TypeId) : (g.reportOn o).diagnostics.map Diagnostic.topic =
    ((g.resolve o).diagnostics g).map Diagnostic.topic ++
      (Merged.ofList (g.resolve o).methods).conflicted.map fun name => ("structural-conflict", some name) := by
  rw [diagnostics_reportOn_eq, List.map_append, List.map_map, conflicts_merge]
  unfold Merged.conflicted
  rw [List.map_map]
  rfl

theorem mem_conflicted_resolve {g : Graph} {o : TypeId} {name : String} :
    name ∈ (Merged.ofList (ofDeclarations o (g.resolve o).navigable)).conflicted ↔ (g.resolve o).Disputed name :=
  mem_conflicted_ofDeclarations navigable_of_mem_navigable

/-- **A type fails** just if a name is disputed. -/
theorem methods?_reportOn_eq_none {g : Graph} {o : TypeId} :
    (g.reportOn o).methods? = none ↔ ∃ name, (g.resolve o).Disputed name := by
  simp only [reportOn_eq, ← mem_conflicted_resolve]
  unfold Merged.conflicted
  cases (Merged.ofList (ofDeclarations o (g.resolve o).navigable)).conflicts with
  | nil => simp
  | cons c cs => exact iff_of_true rfl ⟨c.second.role, List.mem_cons_self⟩

/-- **A type of which no name is disputed** is given, name by name, what the navigable declarations of the name ask
for. -/
theorem methods?_reportOn {g : Graph} {o : TypeId} (h : ∀ name, ¬ (g.resolve o).Disputed name) :
    (g.reportOn o).methods? = some ((g.resolve o).roleOrder.flatMap fun name =>
      block o ((g.resolve o).navigable.filter fun d => d.role.name = name)) := by
  have hnil : (Merged.ofList (ofDeclarations o (g.resolve o).navigable)).conflicted = [] :=
    List.eq_nil_iff_forall_not_mem.2 (fun name hm => h name (mem_conflicted_resolve.1 hm))
  have hms : ∀ m ∈ ofDeclarations o (g.resolve o).navigable, m.owner = o ∧ m.role ∈ (g.resolve o).roleOrder :=
    fun m hm => by
      obtain ⟨d, hd, kind, -, rfl⟩ := mem_ofDeclarations.1 hm
      exact ⟨rfl, name_mem_roleOrder hd⟩
  rw [reportOn_eq]
  simp only [List.map_eq_nil_iff.1 hnil, List.isEmpty_nil, if_true]
  rw [kept_merge (g.resolve o).nodup_roleOrder hms]
  simp only [Merged.settled_eq_gathered hnil]
  refine congrArg some (List.flatMap_congr (fun name _ => filterMap_gathered o name navigable_of_mem_navigable
    (fun d hd e he hn hn' => agrees_of_not_disputed h hd he (hn.trans hn'.symm))))

theorem not_disputed_of_methods? {g : Graph} {o : TypeId} {ms : List Method} (h : (g.reportOn o).methods? = some ms) :
    ∀ name, ¬ (g.resolve o).Disputed name := fun name hn => by
  rw [methods?_reportOn_eq_none.2 ⟨name, hn⟩] at h
  cases h

theorem role_of_mem_block_filter {o : TypeId} {name : String} {ds : List Declaration} {m : Method}
    (h : m ∈ block o (ds.filter fun d => d.role.name = name)) : m.role = name :=
  role_of_mem_block (fun _ hd => of_decide_eq_true (List.mem_filter.1 hd).2) m h

theorem nodup_keys_blocks (o : TypeId) (ds : List Declaration) {names : List String} (hn : names.Nodup) :
    ((names.flatMap fun name => block o (ds.filter fun d => d.role.name = name)).map key).Nodup := by
  rw [List.map_flatMap, List.nodup_flatMap]
  refine ⟨fun name _ => nodup_keys_block o _, hn.imp (fun {a b} hab => List.disjoint_left.2 ?_)⟩
  intro k ha hb
  obtain ⟨m, hm, rfl⟩ := List.mem_map.1 ha
  obtain ⟨n, hn, hk⟩ := List.mem_map.1 hb
  rw [← role_of_mem_block_filter hm, ← role_of_mem_block_filter hn] at hab
  exact hab (congrArg Key.role hk).symm

/-- **The methods of a type that did not fail** are those that its navigable declarations ask for. -/
theorem mem_signatures_reportOn {g : Graph} {o : TypeId} {ms : List Method} (h : (g.reportOn o).methods? = some ms)
    {x : Signature} : x ∈ ms.map signature ↔ ∃ d ∈ (g.resolve o).navigable, x ∈ signatures o d := by
  have hclean := not_disputed_of_methods? h
  rw [methods?_reportOn hclean, Option.some.injEq] at h
  subst h
  rw [List.map_flatMap, List.mem_flatMap]
  constructor
  · rintro ⟨name, -, hx⟩
    rw [map_signature_block, List.head?_filter] at hx
    cases hf : (g.resolve o).navigable.find? (fun d => d.role.name = name) with
    | none => rw [hf] at hx; cases hx
    | some d => rw [hf] at hx; exact ⟨d, List.mem_of_find?_eq_some hf, hx⟩
  · rintro ⟨d, hd, hx⟩
    refine ⟨d.role.name, name_mem_roleOrder hd, ?_⟩
    rw [map_signature_block, List.head?_filter]
    cases hf : (g.resolve o).navigable.find? (fun e => e.role.name = d.role.name) with
    | none => exact absurd (decide_eq_true rfl) (List.find?_eq_none.1 hf d hd)
    | some e =>
      have hname : e.role.name = d.role.name := by simpa using List.find?_some hf
      have hagree := agrees_of_not_disputed hclean hd (List.mem_of_find?_eq_some hf) hname.symm
      rwa [Option.elim_some, ← signatures_eq_of_agrees hagree hname.symm]

theorem owner_of_mem_methods? {g : Graph} {o : TypeId} {ms : List Method} (h : (g.reportOn o).methods? = some ms)
    {m : Method} (hm : m ∈ ms) : m.owner = o := by
  obtain ⟨d, -, hsig⟩ := (mem_signatures_reportOn h).1 (List.mem_map_of_mem hm)
  obtain ⟨kind, -, hsig⟩ := List.mem_map.1 hsig
  exact (congrArg Method.Signature.owner hsig).symm

theorem shape_of_mem_methods? {g : Graph} {o : TypeId} {ms : List Method} (h : (g.reportOn o).methods? = some ms)
    {m : Method} (hm : m ∈ ms) : m.shape = .of m.kind m.multiplicity m.target := by
  obtain ⟨d, -, hsig⟩ := (mem_signatures_reportOn h).1 (List.mem_map_of_mem hm)
  obtain ⟨kind, -, hsig⟩ := List.mem_map.1 hsig
  obtain ⟨-, rfl, -, htarget, hmul, hshape⟩ := Method.Signature.mk.inj hsig
  rw [← hshape, htarget, hmul]

theorem conflict?_of_mem_diagnostics {g : Graph} {r : Resolution} {d : Diagnostic} (h : d ∈ r.diagnostics g) :
    d.conflict? = none := by
  rcases List.mem_append.1 h with h | h
  · obtain ⟨c, -, rfl⟩ := List.mem_map.1 h
    rfl
  · obtain ⟨role, -, h⟩ := List.mem_flatMap.1 h
    obtain ⟨t, -, rfl⟩ := List.mem_map.1 h
    rfl

/-- **The conflicts reported** are one for each name in conflict, and it is the getters that they tell about. -/
theorem conflicts_reportOn (g : Graph) (o : TypeId) :
    (g.reportOn o).diagnostics.filterMap Diagnostic.conflict? =
      (Merged.ofList (ofDeclarations o (g.resolve o).navigable)).conflicted.map fun name => (name, "get") := by
  have hnone : ((g.resolve o).diagnostics g).filterMap Diagnostic.conflict? = [] :=
    List.filterMap_eq_nil_iff.2 (fun d hd => conflict?_of_mem_diagnostics hd)
  rw [reportOn_eq, List.filterMap_append, hnone, List.nil_append, List.filterMap_map]
  unfold Merged.conflicted
  rw [List.map_map, ← List.filterMap_eq_map]
  refine List.filterMap_congr (fun c hc => ?_)
  have hkind := kind_of_mem_conflicts navigable_of_mem_navigable hc
  show some (c.second.role, c.second.kind.text) = some (c.second.role, "get")
  rw [hkind]
  rfl

/-- **What a type is given.**  It fails just if two navigable declarations of one name disagree on target or
multiplicity, and each such name is reported once, with the getter.  Otherwise it has, for each name in order, the
methods that the navigable declarations of the name ask for, no two of one key and those of one role together. -/
theorem reportOn_generates (g : Graph) (owner : TypeId) :
    ((g.reportOn owner).methods? = none ↔ ∃ name, (g.resolve owner).Disputed name) ∧
    (∃ names : List String, names.Nodup ∧ (∀ name, name ∈ names ↔ (g.resolve owner).Disputed name) ∧
      (g.reportOn owner).diagnostics.filterMap Diagnostic.conflict? = names.map fun name => (name, "get")) ∧
    ∀ ms, (g.reportOn owner).methods? = some ms →
      (∀ d ∈ (g.resolve owner).navigable, ∀ e ∈ (g.resolve owner).navigable, d.role.name = e.role.name → d.Agrees e) ∧
      ms.map Method.signature = ((g.resolve owner).roleOrder.flatMap fun name =>
        ((g.resolve owner).navigable.find? fun d => d.role.name = name).elim [] (Method.signatures owner)) ∧
      (ms.map Method.key).Nodup ∧ ∀ name, ms.filter (fun m => m.role = name) <:+: ms := by
  refine ⟨methods?_reportOn_eq_none, ⟨_, Merged.nodup_conflicted _, fun name => mem_conflicted_resolve,
    conflicts_reportOn g owner⟩, fun ms hms => ?_⟩
  have hclean := not_disputed_of_methods? hms
  rw [methods?_reportOn hclean, Option.some.injEq] at hms
  subst hms
  have horder := (g.resolve owner).nodup_roleOrder
  refine ⟨fun d hd e he hn => agrees_of_not_disputed hclean hd he hn, ?_, nodup_keys_blocks owner _ horder, fun name =>
    filter_key_infix_flatMap Method.role _ _ horder (fun name _ m hm => role_of_mem_block_filter hm) name⟩
  rw [List.map_flatMap]
  refine List.flatMap_congr (fun name _ => ?_)
  rw [map_signature_block, List.head?_filter]

/-- A class with one role from its superclass and from two interfaces has the methods of the role once. -/
theorem reportOn_generates_enrolment : ∃ ms, (enrolment.reportOn ⟨3⟩).methods? = some ms ∧
    ms.map Method.signature =
      [⟨⟨3⟩, .get, "courses", ⟨4⟩, .many, ⟨[], .many ⟨4⟩⟩⟩, ⟨⟨3⟩, .add, "courses", ⟨4⟩, .many, ⟨[.one ⟨4⟩], .bool⟩⟩,
        ⟨⟨3⟩, .remove, "courses", ⟨4⟩, .many, ⟨[.one ⟨4⟩], .bool⟩⟩] ∧
    (ms.map Method.key).Nodup := by
  obtain ⟨-, -, hgen⟩ := reportOn_generates enrolment ⟨3⟩
  obtain ⟨ms, hms⟩ : ∃ ms, (enrolment.reportOn ⟨3⟩).methods? = some ms := ⟨_, rfl⟩
  obtain ⟨-, hsig, hkeys, -⟩ := hgen ms hms
  exact ⟨ms, hms, hsig.trans rfl, hkeys⟩

end Graph
end Accessors
