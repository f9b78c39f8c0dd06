import Accessors.Graph.Draft
import Accessors.Proofs.Reachability
import Mathlib.Data.List.Forall2
/-!
# Graphs that a source can give rise to

Looking up the names of a source leaves no edge that leads out of the graph and no class above an interface, and each
type holds the roles that say so (`wellFormed_of_ofSource`).
-/
namespace Accessors

/-! ## Steps that may stop -/

section Passes

variable {ε α β : Type}

theorem forall₂_of_mapM_eq_ok (f : α → Except ε β) : ∀ {l : List α} {l' : List β}, l.mapM f = .ok l' →
    List.Forall₂ (fun a b => f a = .ok b) l l'
  | [], l', h => by
    rw [List.mapM_nil] at h
    cases h
    exact .nil
  | a :: l, l', h => by
    rw [List.mapM_cons, except_bind_eq_ok] at h
    obtain ⟨b, hb, h⟩ := h
    rw [except_bind_eq_ok] at h
    obtain ⟨bs, hbs, h⟩ := h
    cases h
    exact .cons hb (forall₂_of_mapM_eq_ok f hbs)

theorem mapM_eq_ok_of_forall₂ {f : α → Except ε β} {l : List α} {l' : List β}
    (h : List.Forall₂ (fun a b => f a = .ok b) l l') : l.mapM f = .ok l' := by
  induction h with
  | nil => rfl
  | cons hb _ ih =>
    rw [List.mapM_cons, hb, ih]
    rfl

/-- A pass over a list comes through just if each of its steps does. -/
theorem exists_mapM_eq_ok_iff {f : α → Except ε β} {l : List α} :
    (∃ l', l.mapM f = .ok l') ↔ ∀ a ∈ l, ∃ b, f a = .ok b := by
  induction l with
  | nil => exact iff_of_true ⟨[], rfl⟩ (fun a ha => by cases ha)
  | cons a l ih =>
    rw [List.forall_mem_cons, ← ih]
    constructor
    · rintro ⟨l', h⟩
      cases forall₂_of_mapM_eq_ok f h with
      | cons hb hbs => exact ⟨⟨_, hb⟩, _, mapM_eq_ok_of_forall₂ hbs⟩
    · rintro ⟨⟨b, hb⟩, l', hl'⟩
      exact ⟨b :: l', mapM_eq_ok_of_forall₂ (.cons hb (forall₂_of_mapM_eq_ok f hl'))⟩

theorem getElem?_of_forall₂ {R : α → β → Prop} : ∀ {l : List α} {l' : List β}, List.Forall₂ R l l' →
    ∀ {i : Nat} {b : β}, l'[i]? = some b → ∃ a, l[i]? = some a ∧ R a b
  | _, _, .nil, _, _, hb => by cases hb
  | _, _, .cons (a := a) hab _, 0, _, hb => by
    cases hb
    exact ⟨a, rfl, hab⟩
  | _, _, .cons _ h, i + 1, _, hb => getElem?_of_forall₂ h (i := i) hb

theorem exists_getElem?_of_forall₂ {R : α → β → Prop} {l : List α} {l' : List β} (h : List.Forall₂ R l l')
    {i : Nat} {a : α} (ha : l[i]? = some a) : ∃ b, l'[i]? = some b ∧ R a b :=
  getElem?_of_forall₂ (R := fun b a => R a b) h.flip ha

theorem foldlM_preserves (f : β → α → Except ε β) (I : β → Prop)
    (hstep : ∀ b a b', I b → f b a = .ok b' → I b') : ∀ (l : List α) (b b' : β), I b → l.foldlM f b = .ok b' → I b'
  | [], b, b', hb, h => by
    rw [List.foldlM_nil] at h
    cases h
    exact hb
  | a :: l, b, b', hb, h => by
    rw [List.foldlM_cons, except_bind_eq_ok] at h
    obtain ⟨c, hc, h⟩ := h
    exact foldlM_preserves f I hstep l c b' (hstep b a c hb hc) h

theorem except_bind_eq_error {x : Except ε α} {f : α → Except ε β} {e : ε} :
    (x >>= f) = .error e ↔ x = .error e ∨ ∃ a, x = .ok a ∧ f a = .error e := by
  cases x <;> simp [bind, Except.bind]

theorem exists_of_mapM_eq_error {f : α → Except ε β} {e : ε} : ∀ {l : List α},
    l.mapM f = .error e → ∃ a ∈ l, f a = .error e
  | [], h => by
    rw [List.mapM_nil] at h
    cases h
  | a :: l, h => by
    rw [List.mapM_cons, except_bind_eq_error] at h
    rcases h with h | ⟨b, -, h⟩
    · exact ⟨a, List.mem_cons_self, h⟩
    · rcases except_bind_eq_error.1 h with h | ⟨bs, -, h⟩
      · obtain ⟨x, hx, hfx⟩ := exists_of_mapM_eq_error h
        exact ⟨x, List.mem_cons_of_mem _ hx, hfx⟩
      · cases h

/-- **A fold that stops** came through all steps before the one that stops it. -/
theorem exists_of_foldlM_eq_error {f : β → α → Except ε β} {e : ε} :
    ∀ {l : List α} {b : β}, l.foldlM f b = .error e →
      ∃ before a after c, l = before ++ a :: after ∧ before.foldlM f b = .ok c ∧ f c a = .error e
  | [], b, h => by
    rw [List.foldlM_nil] at h
    cases h
  | a :: l, b, h => by
    rw [List.foldlM_cons, except_bind_eq_error] at h
    rcases h with h | ⟨c, hc, h⟩
    · exact ⟨[], a, l, b, rfl, rfl, h⟩
    · obtain ⟨before, x, after, c', rfl, hc', hx⟩ := exists_of_foldlM_eq_error h
      exact ⟨a :: before, x, after, c', rfl, by rw [List.foldlM_cons, hc]; exact hc', hx⟩

end Passes

namespace Graph

theorem definedAs?_eq_some {ds : List Definition} {name : String} {t : TypeId} {k : DefinitionKind}
    (h : definedAs? ds name = some (t, k)) : ∃ d, ds[t.index]? = some d ∧ d.kind = k ∧ d.name.value = name := by
  unfold definedAs? at h
  obtain ⟨⟨d, i⟩, hf, he⟩ := Option.map_eq_some_iff.1 h
  cases he
  have hm := List.mem_zipIdx_iff_getElem?.1 (List.mem_of_find?_eq_some hf)
  have hname := List.find?_some hf
  exact ⟨d, hm, rfl, of_decide_eq_true hname⟩

/-! ## Supertypes -/

/-- **What adding a supertype can do**: its name is found and was not there before, and it is an interface, or a class
to be the first superclass of a class. -/
theorem Lineage.add_eq_ok {ds : List Definition} {d : Definition} {l l' : Lineage} {parent : Located String} :
    l.add ds d parent = .ok l' ↔ ∃ t kind, definedAs? ds parent.value = some (t, kind) ∧ ¬ l.contains t = true ∧
      ((kind = .ofInterface ∧ l' = { l with interfaces := l.interfaces ++ [t] }) ∨
      (kind = .ofClass ∧ d.kind = .ofClass ∧ l.superclass = none ∧
        l' = { l with superclass := some (t, parent.value) })) := by
  unfold Lineage.add
  constructor
  · intro h
    split at h
    · cases h
    · rename_i t kind hdef
      split at h
      · cases h
      · rename_i hnew
        refine ⟨t, kind, hdef, hnew, ?_⟩
        split at h
        · cases h
          exact .inl ⟨rfl, rfl⟩
        · cases h
        · rename_i hkind
          split at h
          · rename_i hnone
            cases h
            exact .inr ⟨rfl, hkind, hnone, rfl⟩
          · cases h
  · rintro ⟨t, kind, hdef, hnew, ⟨rfl, rfl⟩ | ⟨rfl, hkind, hnone, rfl⟩⟩
    · simp only [hdef, hnew]
      cases d.kind <;> rfl
    · simp only [hdef, hnew, hkind, hnone]
      rfl

/-- The supertypes looked up so far are defined, each as what it is listed as. -/
structure Lineage.Defined (ds : List Definition) (l : Lineage) : Prop where
  superclass : ∀ c ∈ l.superclass, ∃ d, ds[c.1.index]? = some d ∧ d.kind = .ofClass
  interfaces : ∀ t ∈ l.interfaces, ∃ d, ds[t.index]? = some d ∧ d.kind = .ofInterface

theorem Lineage.Defined.add {ds : List Definition} {d : Definition} {l l' : Lineage} {parent : Located String}
    (h : l.Defined ds) (hl : l.add ds d parent = .ok l') : l'.Defined ds := by
  obtain ⟨t, kind, hdef, -, hcase⟩ := Lineage.add_eq_ok.1 hl
  obtain ⟨e, he, hk, -⟩ := definedAs?_eq_some hdef
  rcases hcase with ⟨rfl, rfl⟩ | ⟨rfl, -, -, rfl⟩
  · refine ⟨h.superclass, fun x hx => ?_⟩
    rcases List.mem_append.1 hx with hx | hx
    · exact h.interfaces x hx
    · rw [List.mem_singleton.1 hx]; exact ⟨e, he, hk⟩
  · refine ⟨fun c hc => ?_, h.interfaces⟩
    cases hc
    exact ⟨e, he, hk⟩

/-- **The heritage of a definition** is of the definition's kind, its supertypes are defined, and those of an interface
are interfaces. -/
theorem heritage_eq_ok {ds : List Definition} {d : Definition} {h : Heritage} (hh : heritage ds d = .ok h) :
    (h.isClass = true ↔ d.kind = .ofClass) ∧
      ∀ p ∈ h.parents, ∃ e, ds[p.index]? = some e ∧ (d.kind = .ofInterface → e.kind = .ofInterface) := by
  unfold heritage at hh
  cases hl : d.supertypes.foldlM (Lineage.add ds d) ⟨none, []⟩ with
  | error e => rw [hl] at hh; cases hh
  | ok l =>
    rw [hl] at hh
    have hdef : l.Defined ds := foldlM_preserves (Lineage.add ds d) (Lineage.Defined ds)
      (fun _ _ _ hb hs => hb.add hs) _ _ _ ⟨fun c hc => by (cases hc), fun t ht => by (cases ht)⟩ hl
    cases hk : d.kind with
    | ofClass =>
      simp only [Except.map, hk, Except.ok.injEq] at hh
      subst hh
      refine ⟨by simp [Heritage.isClass], fun p hp => ?_⟩
      rcases List.mem_append.1 hp with hp | hp
      · obtain ⟨c, hc, rfl⟩ := Option.map_eq_some_iff.1 (Option.mem_toList.1 hp)
        obtain ⟨e, he, -⟩ := hdef.superclass c hc
        exact ⟨e, he, fun h => by cases h⟩
      · obtain ⟨e, he, hek⟩ := hdef.interfaces p hp
        exact ⟨e, he, fun _ => hek⟩
    | ofInterface =>
      simp only [Except.map, hk, Except.ok.injEq] at hh
      subst hh
      refine ⟨by simp [Heritage.isClass], fun p hp => ?_⟩
      obtain ⟨e, he, hek⟩ := hdef.interfaces p hp
      exact ⟨e, he, fun _ => hek⟩

/-! ## Roles -/

theorem holder_of_declaredRole {ds : List Definition} {t : TypeId} {d : Definition} {a : Located Association} {r : Role}
    (h : declaredRole ds t d a = .ok r) : r.holder = t := by
  unfold declaredRole at h
  split at h
  · cases h
  · cases h
    rfl

/-! ## The graph -/

/-- The type that a definition gives rise to at its place, given what was looked up for it. -/
def node (opposite : List Role) (i : Nat) (d : Located Definition) (heritage : Heritage) (declared : List Role) :
    TypeNode :=
  { id := ⟨i⟩
    name := d.value.name.value
    heritage
    roles := declared ++ opposite.filter (·.holder = ⟨i⟩)
    span := d.span
    nameSpan := d.value.name.span }

/-- The types of a graph, given what was looked up for each of the definitions, and the far ends of all associations. -/
def nodes (definitions : List (Located Definition)) (heritages : List Heritage) (declared : List (List Role))
    (opposite : List Role) : List TypeNode :=
  (definitions.zip (heritages.zip declared)).zipIdx.map fun ((d, heritage, roles), i) => node opposite i d heritage roles

theorem ofSource_eq_ok {s : Source} {g : Graph} : ofSource s = .ok g ↔
    checkDistinct [] (s.definitions.map Located.value) = .ok () ∧ ∃ heritages declared,
      (s.definitions.map Located.value).mapM (heritage (s.definitions.map Located.value)) = .ok heritages ∧
      (s.definitions.map Located.value).zipIdx.mapM (fun (d, i) =>
        d.associations.mapM (declaredRole (s.definitions.map Located.value) ⟨i⟩ d)) = .ok declared ∧
      g = ⟨s.namespaceName.map Located.value,
        nodes s.definitions heritages declared (oppositeRoles (s.definitions.map Located.value))⟩ := by
  unfold ofSource
  simp only [except_bind_eq_ok]
  constructor
  · rintro ⟨⟨⟩, hcheck, heritages, hh, declared, hd, h⟩
    cases h
    exact ⟨hcheck, heritages, declared, hh, hd, rfl⟩
  · rintro ⟨hcheck, heritages, declared, hh, hd, rfl⟩
    exact ⟨(), hcheck, heritages, hh, declared, hd, rfl⟩

/-- A target is found just if it is defined. -/
theorem exists_declaredRole_iff {ds : List Definition} {t : TypeId} {d : Definition} {a : Located Association} :
    (∃ r, declaredRole ds t d a = .ok r) ↔ ∃ found, definedAs? ds a.value.target.value = some found := by
  unfold declaredRole
  cases definedAs? ds a.value.target.value with
  | none => exact iff_of_false (fun ⟨_, h⟩ => by cases h) (fun ⟨_, h⟩ => by cases h)
  | some found => exact iff_of_true ⟨_, rfl⟩ ⟨_, rfl⟩

/-- **What a definition gives rise to**: its supertypes and its associations are looked up, and its type stands at its
place. -/
theorem exists_node_of_ofSource {s : Source} {g : Graph} (h : ofSource s = .ok g) {i : Nat} {d : Located Definition}
    (hd : s.definitions[i]? = some d) :
    ∃ her declared, heritage (s.definitions.map Located.value) d.value = .ok her ∧
      d.value.associations.mapM (declaredRole (s.definitions.map Located.value) ⟨i⟩ d.value) = .ok declared ∧
      g.types[i]? = some (node (oppositeRoles (s.definitions.map Located.value)) i d her declared) := by
  obtain ⟨-, heritages, declared, hh, hr, rfl⟩ := ofSource_eq_ok.1 h
  have hplain : (s.definitions.map Located.value)[i]? = some d.value := by rw [List.getElem?_map, hd]; rfl
  obtain ⟨her, hher, hheritage⟩ := exists_getElem?_of_forall₂ (forall₂_of_mapM_eq_ok _ hh) hplain
  obtain ⟨roles, hroles, hdeclared⟩ := exists_getElem?_of_forall₂ (forall₂_of_mapM_eq_ok _ hr)
    (i := i) (a := (d.value, i)) (by rw [List.getElem?_zipIdx, hplain, Nat.zero_add]; rfl)
  have hzip : (s.definitions.zip (heritages.zip declared))[i]? = some (d, her, roles) :=
    List.getElem?_zip_eq_some.2 ⟨hd, List.getElem?_zip_eq_some.2 ⟨hher, hroles⟩⟩
  refine ⟨her, roles, hheritage, hdeclared, ?_⟩
  unfold nodes
  rw [List.getElem?_map, List.getElem?_zipIdx, hzip, Nat.zero_add]
  rfl

theorem size_of_ofSource {s : Source} {g : Graph} (h : ofSource s = .ok g) : g.size = s.definitions.length := by
  obtain ⟨-, heritages, declared, hh, hd, rfl⟩ := ofSource_eq_ok.1 h
  have hlen := (forall₂_of_mapM_eq_ok _ hh).length_eq
  have hlen' := (forall₂_of_mapM_eq_ok _ hd).length_eq
  rw [List.length_map] at hlen
  rw [List.length_zipIdx, List.length_map] at hlen'
  unfold size nodes
  rw [List.length_map, List.length_zipIdx, List.length_zip, List.length_zip, ← hlen, ← hlen', Nat.min_self, Nat.min_self]

/-- **What a node comes from**: the definition at its place, whose supertypes and associations were all looked up. -/
theorem node_of_ofSource {s : Source} {g : Graph} (h : ofSource s = .ok g) {i : Nat} {n : TypeNode}
    (hn : g.types[i]? = some n) :
    ∃ d, (s.definitions.map Located.value)[i]? = some d ∧ n.id = ⟨i⟩ ∧
      heritage (s.definitions.map Located.value) d = .ok n.heritage ∧
      ∀ r ∈ n.roles, r.holder = ⟨i⟩ := by
  have hi : i < s.definitions.length := size_of_ofSource h ▸ (List.getElem?_eq_some_iff.1 hn).1
  obtain ⟨her, declared, hher, hdeclared, hnode⟩ := exists_node_of_ofSource h (List.getElem?_eq_getElem hi)
  rw [hn] at hnode
  cases hnode
  refine ⟨_, by rw [List.getElem?_map, List.getElem?_eq_getElem hi]; rfl, rfl, hher, fun r hr => ?_⟩
  rcases List.mem_append.1 hr with hr | hr
  · obtain ⟨k, hk⟩ := List.mem_iff_getElem?.1 hr
    obtain ⟨a, -, ha⟩ := getElem?_of_forall₂ (forall₂_of_mapM_eq_ok _ hdeclared) hk
    exact holder_of_declaredRole ha
  · exact of_decide_eq_true (List.mem_filter.1 hr).2

/-! ## Names -/

/-- **Names are distinct** just if none occurs twice and none was seen before. -/
theorem checkDistinct_eq_ok_iff : ∀ {ds : List Definition} {seen : List String}, checkDistinct seen ds = .ok () ↔
    (ds.map fun d => d.name.value).Nodup ∧ ∀ d ∈ ds, d.name.value ∉ seen
  | [], _ => iff_of_true rfl ⟨List.nodup_nil, fun _ hd => by cases hd⟩
  | d :: ds, seen => by
    have hmem : d.name.value ∈ ds.map (fun d => d.name.value) ↔ ∃ e ∈ ds, e.name.value = d.name.value := List.mem_map
    rw [List.map_cons, List.nodup_cons, List.forall_mem_cons, hmem]
    unfold checkDistinct
    by_cases hd : d.name.value ∈ seen
    · rw [if_pos hd]
      exact iff_of_false (fun h => by cases h) (fun h => h.2.1 hd)
    · rw [if_neg hd, checkDistinct_eq_ok_iff]
      constructor
      · rintro ⟨hn, hseen⟩
        refine ⟨⟨?_, hn⟩, hd, fun e he hm => hseen e he (List.mem_cons_of_mem _ hm)⟩
        rintro ⟨e, he, hname⟩
        exact hseen e he (hname ▸ List.mem_cons_self)
      · rintro ⟨⟨hnew, hn⟩, -, hseen⟩
        refine ⟨hn, fun e he hm => ?_⟩
        rcases List.mem_cons.1 hm with hname | hm
        · exact hnew ⟨e, he, hname⟩
        · exact hseen e he hm

/-- **A source has a graph** just if no name is defined twice, all supertypes may be taken, and all targets are
defined. -/
theorem exists_ofSource_iff {s : Source} : (∃ g, ofSource s = .ok g) ↔
    ((s.definitions.map Located.value).map fun d => d.name.value).Nodup ∧
    (∀ d ∈ s.definitions.map Located.value, ∃ her, heritage (s.definitions.map Located.value) d = .ok her) ∧
    ∀ d ∈ s.definitions.map Located.value, ∀ a ∈ d.associations, ∃ found,
      definedAs? (s.definitions.map Located.value) a.value.target.value = some found := by
  constructor
  · rintro ⟨g, h⟩
    obtain ⟨hcheck, heritages, declared, hh, hd, -⟩ := ofSource_eq_ok.1 h
    refine ⟨(checkDistinct_eq_ok_iff.1 hcheck).1, exists_mapM_eq_ok_iff.1 ⟨_, hh⟩, fun d hmem a ha => ?_⟩
    obtain ⟨i, hi⟩ := List.mem_iff_getElem?.1 hmem
    have hroles := exists_mapM_eq_ok_iff.1 ⟨_, hd⟩ (d, i) (List.mem_zipIdx_iff_getElem?.2 hi)
    exact exists_declaredRole_iff.1 (exists_mapM_eq_ok_iff.1 hroles a ha)
  · rintro ⟨hn, hher, htargets⟩
    obtain ⟨heritages, hh⟩ := exists_mapM_eq_ok_iff.2 hher
    have hroles : ∀ p ∈ (s.definitions.map Located.value).zipIdx, ∃ roles,
        p.1.associations.mapM (declaredRole (s.definitions.map Located.value) ⟨p.2⟩ p.1) = .ok roles := fun p hp => by
      have hmem := List.mem_of_getElem? (List.mem_zipIdx_iff_getElem?.1 hp)
      exact exists_mapM_eq_ok_iff.2 (fun a ha => exists_declaredRole_iff.2 (htargets p.1 hmem a ha))
    obtain ⟨declared, hd⟩ := exists_mapM_eq_ok_iff.2 hroles
    exact ⟨_, ofSource_eq_ok.2 ⟨checkDistinct_eq_ok_iff.2 ⟨hn, fun _ _ hm => by cases hm⟩, heritages, declared, hh, hd,
      rfl⟩⟩

/-- **The types of a graph have the names of the definitions**, in order. -/
theorem names_of_ofSource {s : Source} {g : Graph} (h : ofSource s = .ok g) :
    g.types.map TypeNode.name = s.definitions.map fun d => d.value.name.value := by
  refine List.ext_getElem? (fun i => ?_)
  rw [List.getElem?_map, List.getElem?_map]
  cases hd : s.definitions[i]? with
  | none =>
    have hi : g.types.length ≤ i := (size_of_ofSource h).trans_le (List.getElem?_eq_none_iff.1 hd)
    rw [List.getElem?_eq_none_iff.2 hi]
    rfl
  | some d =>
    obtain ⟨_, _, -, -, hn⟩ := exists_node_of_ofSource h hd
    rw [hn]
    rfl

/-- **No two types of a graph share a name.** -/
theorem nodup_names_of_ofSource {s : Source} {g : Graph} (h : ofSource s = .ok g) :
    (g.types.map TypeNode.name).Nodup := by
  have hnames : s.definitions.map (fun d => d.value.name.value) =
      (s.definitions.map Located.value).map fun d => d.name.value := by
    rw [List.map_map]
    rfl
  rw [names_of_ofSource h, hnames]
  exact (checkDistinct_eq_ok_iff.1 (ofSource_eq_ok.1 h).1).1

/-- What holds of every graph that a source gives rise to. -/
structure WellFormed (g : Graph) : Prop where
  id_eq : ∀ (i : Nat) (n : TypeNode), g.types[i]? = some n → n.id = ⟨i⟩
  target_lt : ∀ a b, g.Edge a b → b.index < g.size
  isInterface_of_edge : ∀ a b, g.isInterface a = true → g.Edge a b → g.isInterface b = true
  holder_eq : ∀ t r, r ∈ g.roles t → r.holder = t

theorem mem_parents {g : Graph} {a b : TypeId} : b ∈ g.parents a ↔ ∃ n, g.node? a = some n ∧ b ∈ n.heritage.parents := by
  unfold parents
  cases g.node? a <;> simp

theorem mem_roles {g : Graph} {t : TypeId} {r : Role} : r ∈ g.roles t ↔ ∃ n, g.node? t = some n ∧ r ∈ n.roles := by
  unfold roles
  cases g.node? t <;> simp

theorem isInterface_iff {g : Graph} {t : TypeId} :
    g.isInterface t = true ↔ ∃ n, g.node? t = some n ∧ n.heritage.isClass = false := by
  unfold isInterface Heritage.isInterface
  cases g.node? t <;> simp

theorem ne_of_isClass_of_isInterface {g : Graph} {c i : TypeId} (hc : g.isClass c = true) (hi : g.isInterface i = true) :
    i ≠ c := by
  rintro rfl
  unfold isClass at hc
  obtain ⟨n, hn, hi⟩ := isInterface_iff.1 hi
  rw [hn] at hc
  simp only [Option.any_some, hi] at hc
  cases hc

/-- **Above an interface there are interfaces only.** -/
theorem WellFormed.isInterface_of_reaches {g : Graph} (hg : g.WellFormed) {i t : TypeId} (hi : g.isInterface i = true)
    (h : g.Reaches i t) : g.isInterface t = true := by
  induction h with
  | refl => exact hi
  | tail _ he ih => exact hg.isInterface_of_edge _ _ ih he

theorem index_lt_of_getElem? {s : Source} {g : Graph} (h : ofSource s = .ok g) {t : TypeId} {d : Definition}
    (hd : (s.definitions.map Located.value)[t.index]? = some d) : t.index < g.size := by
  rw [size_of_ofSource h, ← List.length_map Located.value]
  exact (List.getElem?_eq_some_iff.1 hd).1

/-- A type is an interface just if its definition says so. -/
theorem isInterface_ofSource_iff {s : Source} {g : Graph} (h : ofSource s = .ok g) {t : TypeId} {d : Definition}
    (hd : (s.definitions.map Located.value)[t.index]? = some d) : g.isInterface t = true ↔ d.kind = .ofInterface := by
  obtain ⟨n, hn⟩ : ∃ n, g.node? t = some n := ⟨_, List.getElem?_eq_getElem (index_lt_of_getElem? h hd)⟩
  obtain ⟨e, he, -, hher, -⟩ := node_of_ofSource h hn
  rw [hd] at he
  cases he
  have hclass := (heritage_eq_ok hher).1
  rw [isInterface_iff]
  constructor
  · rintro ⟨m, hm, hi⟩
    rw [hn] at hm
    cases hm
    cases hk : d.kind with
    | ofClass => rw [hclass.2 hk] at hi; cases hi
    | ofInterface => rfl
  · intro hk
    refine ⟨n, hn, Bool.eq_false_iff.2 (fun hc => ?_)⟩
    rw [hclass.1 hc] at hk
    cases hk

/-- **A graph that comes from a source is well formed.** -/
theorem wellFormed_of_ofSource {s : Source} {g : Graph} (h : ofSource s = .ok g) : g.WellFormed where
  id_eq i n hn := by
    obtain ⟨_, -, hid, -⟩ := node_of_ofSource h hn
    exact hid
  target_lt a b he := by
    obtain ⟨n, hn, hb⟩ := mem_parents.1 he
    obtain ⟨d, -, -, hher, -⟩ := node_of_ofSource h hn
    obtain ⟨e, hb', -⟩ := (heritage_eq_ok hher).2 b hb
    exact index_lt_of_getElem? h hb'
  isInterface_of_edge a b ha he := by
    obtain ⟨n, hn, hb⟩ := mem_parents.1 he
    obtain ⟨d, hd, -, hher, -⟩ := node_of_ofSource h hn
    obtain ⟨e, he, hek⟩ := (heritage_eq_ok hher).2 b hb
    exact (isInterface_ofSource_iff h he).2 (hek ((isInterface_ofSource_iff h hd).1 ha))
  holder_eq t r hr := by
    obtain ⟨n, hn, hr⟩ := mem_roles.1 hr
    obtain ⟨_, -, -, -, hroles⟩ := node_of_ofSource h hn
    exact hroles r hr

end Graph

/-! ## An example -/

/-- Two interfaces above each other and a third one above them; a class that has one role from its superclass and from
two of the interfaces. -/
def Source.enrolment : Source :=
  (Source.empty.withDefinition
      (((Definition.draft .ofInterface "Registrable").withSupertype "Enrollable").withRole "courses" "Course" .any)
    |>.withDefinition
      (((Definition.draft .ofInterface "Enrollable").withSupertype "Registrable").withRole "courses" "Course" .any)
    |>.withDefinition ((Definition.draft .ofClass "Person").withRole "courses" "Course" .any)
    |>.withDefinition (((Definition.draft .ofClass "Student").withSupertype "Person").withSupertype "Registrable")
    |>.withDefinition (Definition.draft .ofClass "Course")
    |>.withDefinition
      (((Definition.draft .ofInterface "Listed").withSupertype "Enrollable").withRole "courses" "Course" .any))

def Graph.enrolment : Graph := (Graph.ofSource .enrolment).toOption.getD ⟨none, []⟩

theorem Graph.ofSource_enrolment : Graph.ofSource .enrolment = .ok .enrolment := rfl

theorem Graph.reaches_enrolment : Graph.enrolment.Reaches ⟨3⟩ ⟨1⟩ :=
  .head (show (⟨0⟩ : TypeId) ∈ Graph.enrolment.parents ⟨3⟩ by decide)
    (.single (show (⟨1⟩ : TypeId) ∈ Graph.enrolment.parents ⟨0⟩ by decide))

end Accessors
