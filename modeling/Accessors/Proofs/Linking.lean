import Accessors.Proofs.Keyed
import Accessors.Proofs.WellFormed
/-!
# A graph says what its source says

Looking a name up in the graph finds the definition of that name and no other (`Graph.find?_ofSource`).  Read that way,
each type inherits from the types that its definition names, and holds one role for each association written in it and
one for each association that reaches back to it, wherever that is written (`Graph.ofSource_transcribes_definitions`).
-/
namespace Accessors

/-- An association and the type in whose body it is written. -/
structure Source.Written where
  writer : TypeId
  definition : Definition
  association : Located Association

/-- All associations of a source, in the order in which they are written. -/
def Source.written (s : Source) : List Source.Written :=
  s.definitions.zipIdx.flatMap fun (d, i) => d.value.associations.map fun a => ⟨⟨i⟩, d.value, a⟩

namespace Graph

/-! ## Names -/

section Names

variable {ds : List Definition} (hn : (ds.map fun d => d.name.value).Nodup)

include hn

/-- **Where no name is defined twice**, a name stands for each definition that has it. -/
theorem definedAs?_eq_some_iff {name : String} {t : TypeId} {k : DefinitionKind} :
    definedAs? ds name = some (t, k) ↔ ∃ d, ds[t.index]? = some d ∧ d.kind = k ∧ d.name.value = name := by
  refine ⟨definedAs?_eq_some, ?_⟩
  rintro ⟨d, hd, rfl, rfl⟩
  have hkeys : (ds.zipIdx.map fun p => p.1.name.value).Nodup := by
    rw [← List.zipIdx_map_fst 0 ds, List.map_map] at hn
    exact hn
  have hfind := (find?_eq_some_iff_of_nodup (fun p : Definition × Nat => p.1.name.value) hkeys).2
    ⟨(List.mem_zipIdx_iff_getElem? (x := (d, t.index))).2 hd, rfl⟩
  unfold definedAs?
  rw [hfind]
  rfl

end Names

section Linked

variable {s : Source} {g : Graph} (h : ofSource s = .ok g)

include h

theorem nodup_names_of_definitions : ((s.definitions.map Located.value).map fun d => d.name.value).Nodup :=
  (checkDistinct_eq_ok_iff.1 (ofSource_eq_ok.1 h).1).1

/-- **A name is looked up** where it is defined. -/
theorem find?_eq_some_iff {name : String} {t : TypeId} :
    g.find? name = some t ↔ ∃ d, s.definitions[t.index]? = some d ∧ d.value.name.value = name := by
  unfold find?
  rw [Option.map_eq_some_iff]
  constructor
  · rintro ⟨n, hf, rfl⟩
    obtain ⟨hm, hname⟩ := (find?_eq_some_iff_of_nodup TypeNode.name (nodup_names_of_ofSource h)).1 hf
    obtain ⟨i, hi⟩ := List.mem_iff_getElem?.1 hm
    have hlt : i < s.definitions.length := size_of_ofSource h ▸ (List.getElem?_eq_some_iff.1 hi).1
    obtain ⟨_, _, -, -, hnode⟩ := exists_node_of_ofSource h (List.getElem?_eq_getElem hlt)
    rw [hi] at hnode
    cases hnode
    exact ⟨_, List.getElem?_eq_getElem hlt, hname⟩
  · rintro ⟨d, hd, rfl⟩
    obtain ⟨_, _, -, -, hnode⟩ := exists_node_of_ofSource h hd
    exact ⟨_, (find?_eq_some_iff_of_nodup TypeNode.name (nodup_names_of_ofSource h)).2
      ⟨List.mem_of_getElem? hnode, rfl⟩, rfl⟩

/-- **The graph finds what the linking found.** -/
theorem find?_ofSource (name : String) :
    g.find? name = (definedAs? (s.definitions.map Located.value) name).map Prod.fst := by
  refine Option.ext (fun t => ?_)
  rw [find?_eq_some_iff h, Option.map_eq_some_iff]
  constructor
  · rintro ⟨d, hd, rfl⟩
    exact ⟨(t, d.value.kind), (definedAs?_eq_some_iff (nodup_names_of_definitions h)).2
      ⟨d.value, by rw [List.getElem?_map, hd]; rfl, rfl, rfl⟩, rfl⟩
  · rintro ⟨⟨t, k⟩, hdef, rfl⟩
    obtain ⟨d, hd, -, hname⟩ := definedAs?_eq_some hdef
    rw [List.getElem?_map] at hd
    obtain ⟨d', hd', rfl⟩ := Option.map_eq_some_iff.1 hd
    exact ⟨d', hd', hname⟩

/-- What a name is defined as is what the type of that name is. -/
theorem kind_of_definedAs? {name : String} {t : TypeId} {k : DefinitionKind}
    (hdef : definedAs? (s.definitions.map Located.value) name = some (t, k)) :
    (g.isClass t = true ↔ k = .ofClass) ∧ (g.isInterface t = true ↔ k = .ofInterface) := by
  obtain ⟨d, hd, rfl, -⟩ := definedAs?_eq_some hdef
  have hinterface := isInterface_ofSource_iff h hd
  obtain ⟨n, hn⟩ : ∃ n, g.node? t = some n := ⟨_, List.getElem?_eq_getElem (index_lt_of_getElem? h hd)⟩
  refine ⟨?_, hinterface⟩
  unfold isClass
  unfold isInterface Heritage.isInterface at hinterface
  rw [hn] at hinterface ⊢
  cases hk : d.kind <;> simp_all

end Linked

/-! ## Supertypes -/

/-- The types that some names stand for, each with what it is defined as, and the lineage that they make up. -/
structure Lineage.Holds (ds : List Definition) (d : Definition) (parents : List (Located String))
    (named : List (TypeId × DefinitionKind)) (l : Lineage) : Prop where
  found : parents.map (fun p => definedAs? ds p.value) = named.map some
  distinct : (named.map Prod.fst).Nodup
  superclass : (l.superclass.map Prod.fst).toList = (named.filter (·.2 = .ofClass)).map Prod.fst
  interfaces : l.interfaces = (named.filter (·.2 = .ofInterface)).map Prod.fst
  kinds : d.kind = .ofInterface → ∀ p ∈ named, p.2 = .ofInterface

theorem Lineage.Holds.contains_iff {ds : List Definition} {d : Definition} {parents : List (Located String)}
    {named : List (TypeId × DefinitionKind)} {l : Lineage} (h : l.Holds ds d parents named) {t : TypeId} :
    l.contains t = true ↔ t ∈ named.map Prod.fst := by
  have hsuper : l.superclass.any (·.1 = t) = true ↔ t ∈ (l.superclass.map Prod.fst).toList := by
    cases l.superclass <;> simp [eq_comm]
  unfold contains
  rw [Bool.or_eq_true, hsuper, List.contains_iff_mem, h.superclass, h.interfaces]
  simp only [List.mem_map, List.mem_filter, decide_eq_true_eq]
  constructor
  · rintro (⟨p, ⟨hp, -⟩, rfl⟩ | ⟨p, ⟨hp, -⟩, rfl⟩) <;> exact ⟨p, hp, rfl⟩
  · rintro ⟨p, hp, rfl⟩
    cases hk : p.2 with
    | ofClass => exact .inl ⟨p, ⟨hp, hk⟩, rfl⟩
    | ofInterface => exact .inr ⟨p, ⟨hp, hk⟩, rfl⟩

/-- **What adding one supertype does**: its name is found, the type is a new one, and it comes behind those of its
kind. -/
theorem Lineage.Holds.add {ds : List Definition} {d : Definition} {parents : List (Located String)}
    {named : List (TypeId × DefinitionKind)} {l l' : Lineage} {parent : Located String}
    (h : l.Holds ds d parents named) (hl : l.add ds d parent = .ok l') :
    ∃ p, l'.Holds ds d (parents ++ [parent]) (named ++ [p]) := by
  obtain ⟨t, kind, hdef, hnew, hcase⟩ := Lineage.add_eq_ok.1 hl
  rw [h.contains_iff] at hnew
  have hfound : (parents ++ [parent]).map (fun p => definedAs? ds p.value) = (named ++ [(t, kind)]).map some := by
    rw [List.map_append, List.map_append, h.found, List.map_singleton, List.map_singleton, hdef]
  have hdistinct : ((named ++ [(t, kind)]).map Prod.fst).Nodup := by
    rw [List.map_append]
    exact h.distinct.append (List.nodup_singleton t) (List.disjoint_singleton.2 hnew)
  refine ⟨(t, kind), hfound, hdistinct, ?_, ?_, fun hd p hp => ?_⟩
  · rw [List.filter_append, List.map_append, ← h.superclass]
    rcases hcase with ⟨rfl, rfl⟩ | ⟨rfl, -, hnone, rfl⟩
    · simp
    · rw [hnone]
      simp
  · rw [List.filter_append, List.map_append, ← h.interfaces]
    rcases hcase with ⟨rfl, rfl⟩ | ⟨rfl, -, -, rfl⟩ <;> simp
  · rcases List.mem_append.1 hp with hp | hp
    · exact h.kinds hd p hp
    · rw [List.mem_singleton.1 hp]
      rcases hcase with ⟨rfl, -⟩ | ⟨-, hclass, -⟩
      · rfl
      · rw [hd] at hclass
        cases hclass

theorem Lineage.exists_holds {ds : List Definition} {d : Definition} : ∀ {parents before : List (Located String)}
    {named : List (TypeId × DefinitionKind)} {l l' : Lineage}, l.Holds ds d before named →
      parents.foldlM (Lineage.add ds d) l = .ok l' → ∃ named', l'.Holds ds d (before ++ parents) named'
  | [], before, named, l, l', h, hl => by
    rw [List.foldlM_nil] at hl
    cases hl
    exact ⟨named, (List.append_nil before).symm ▸ h⟩
  | parent :: parents, before, named, l, l', h, hl => by
    rw [List.foldlM_cons, except_bind_eq_ok] at hl
    obtain ⟨m, hm, hl⟩ := hl
    obtain ⟨p, hp⟩ := h.add hm
    have := exists_holds hp hl
    rwa [List.append_assoc] at this

/-- The heritage that a definition asks for, where the graph finds the types: a class has the one class that is named as
its superclass and the interfaces that are named, an interface has all that are named, and they are interfaces. -/
def Inherits (g : Graph) (d : Definition) (her : Heritage) : Prop :=
  ∃ named : List TypeId, (d.supertypes.map fun p => g.find? p.value) = named.map some ∧ named.Nodup ∧
    match d.kind with
    | .ofClass => ∃ superclass, her = .ofClass superclass (named.filter g.isInterface) ∧
        superclass.toList = named.filter g.isClass
    | .ofInterface => her = .ofInterface named ∧ ∀ t ∈ named, g.isInterface t = true

/-- **A type inherits as its definition says.** -/
theorem inherits_of_heritage {s : Source} {g : Graph} (h : ofSource s = .ok g) {d : Definition} {her : Heritage}
    (hh : heritage (s.definitions.map Located.value) d = .ok her) : g.Inherits d her := by
  unfold heritage at hh
  cases hl : d.supertypes.foldlM (Lineage.add (s.definitions.map Located.value) d) ⟨none, []⟩ with
  | error e => rw [hl] at hh; cases hh
  | ok l =>
    rw [hl] at hh
    have hnone : Lineage.Holds (s.definitions.map Located.value) d [] [] ⟨none, []⟩ :=
      ⟨rfl, List.nodup_nil, rfl, rfl, fun _ _ hp => by cases hp⟩
    obtain ⟨named, hnamed⟩ := Lineage.exists_holds hnone hl
    rw [List.nil_append] at hnamed
    have hfound : (d.supertypes.map fun p => g.find? p.value) = (named.map Prod.fst).map some := by
      have := congrArg (List.map (Option.map Prod.fst)) hnamed.found
      rw [List.map_map, List.map_map] at this
      rw [List.map_map, List.map_congr_left (fun p _ => find?_ofSource h p.value)]
      exact this
    have hkind : ∀ p ∈ named,
        (g.isClass p.1 = true ↔ p.2 = .ofClass) ∧ (g.isInterface p.1 = true ↔ p.2 = .ofInterface) := fun p hp => by
      have hm : some p ∈ d.supertypes.map fun p => definedAs? (s.definitions.map Located.value) p.value := by
        rw [hnamed.found]
        exact List.mem_map_of_mem hp
      obtain ⟨parent, -, hdef⟩ := List.mem_map.1 hm
      exact kind_of_definedAs? h hdef
    have hclasses : (named.filter (·.2 = .ofClass)).map Prod.fst = (named.map Prod.fst).filter g.isClass := by
      rw [List.filter_map]
      exact congrArg _ (List.filter_congr (fun p hp => Bool.eq_iff_iff.2 (by simp [(hkind p hp).1])))
    have hinterfaces : (named.filter (·.2 = .ofInterface)).map Prod.fst = (named.map Prod.fst).filter g.isInterface := by
      rw [List.filter_map]
      exact congrArg _ (List.filter_congr (fun p hp => Bool.eq_iff_iff.2 (by simp [(hkind p hp).2])))
    refine ⟨named.map Prod.fst, hfound, hnamed.distinct, ?_⟩
    cases hk : d.kind with
    | ofClass =>
      simp only [Except.map, hk, Except.ok.injEq] at hh
      subst hh
      rw [hnamed.interfaces, hinterfaces]
      exact ⟨_, rfl, hnamed.superclass.trans hclasses⟩
    | ofInterface =>
      simp only [Except.map, hk, Except.ok.injEq] at hh
      subst hh
      have hall : ∀ t ∈ named.map Prod.fst, g.isInterface t = true := fun t ht => by
        obtain ⟨p, hp, rfl⟩ := List.mem_map.1 ht
        exact (hkind p hp).2.2 (hnamed.kinds hk p hp)
      rw [hnamed.interfaces, hinterfaces, List.filter_eq_self.2 hall]
      exact ⟨rfl, hall⟩

/-- **The supertypes of a class** are of the kinds that they are listed as. -/
theorem kinds_of_ofClass {s : Source} {g : Graph} (h : ofSource s = .ok g) {t : TypeId} {n : TypeNode}
    {superclass : Option TypeId} {interfaces : List TypeId} (hn : g.node? t = some n)
    (hher : n.heritage = .ofClass superclass interfaces) :
    (∀ p ∈ superclass, g.isClass p = true) ∧ ∀ i ∈ interfaces, g.isInterface i = true := by
  obtain ⟨d, -, -, hheritage, -⟩ := node_of_ofSource h hn
  obtain ⟨named, -, -, hcase⟩ := inherits_of_heritage h hheritage
  rw [hher] at hcase
  cases hk : d.kind with
  | ofClass =>
    simp only [hk] at hcase
    obtain ⟨found, he, hfound⟩ := hcase
    cases he
    refine ⟨fun p hp => ?_, fun i hi => (List.mem_filter.1 hi).2⟩
    have hm : p ∈ named.filter g.isClass := hfound ▸ Option.mem_toList.2 hp
    exact (List.mem_filter.1 hm).2
  | ofInterface =>
    simp only [hk] at hcase
    cases hcase.1

/-! ## Roles -/

/-- What the type `i` holds for an association in its own body: the far end. -/
structure DeclaredEnd (g : Graph) (i : TypeId) (a : Located Association) (r : Role) : Prop where
  name : r.name = a.value.targetRole.elim
    (Name.ofRole a.value.target.value a.value.targetBounds.value.multiplicity) Located.value
  target : g.find? a.value.target.value = some r.target
  bounds : r.bounds = a.value.targetBounds.value
  navigable : r.navigable = true ↔ a.value.direction ≠ .backward
  holder : r.holder = i
  origin : r.origin = .declared
  span : r.span = a.span

/-- What the target of an association holds for it: the end at the type that it is written in. -/
structure OppositeEnd (g : Graph) (w : Source.Written) (r : Role) : Prop where
  name : r.name = w.association.value.ownerRole.elim
    (Name.ofRole w.definition.name.value w.association.value.ownerBounds.value.multiplicity) Located.value
  target : r.target = w.writer
  bounds : r.bounds = w.association.value.ownerBounds.value
  navigable : r.navigable = true
  holder : g.find? w.association.value.target.value = some r.holder
  origin : r.origin = .oppositeEnd w.writer
  span : r.span = w.association.span

/-- Whether an association gives the type `i` a role for its near end: `i` is its target, is a class and can reach
back. -/
def reachesBack (g : Graph) (i : TypeId) (w : Source.Written) : Bool :=
  g.find? w.association.value.target.value = some i && w.association.value.direction ≠ .forward && g.isClass i

theorem reachesBack_iff {g : Graph} {i : TypeId} {w : Source.Written} : g.reachesBack i w = true ↔
    (g.find? w.association.value.target.value = some i ∧ w.association.value.direction ≠ .forward) ∧
      g.isClass i = true := by
  unfold reachesBack
  rw [Bool.and_eq_true, Bool.and_eq_true, decide_eq_true_eq, decide_eq_true_eq]

theorem roleName_eq (written : Option (Located String)) (target : String) (b : Bounds) :
    roleName written target b = written.elim (Name.ofRole target b.multiplicity) Located.value := by
  cases written <;> rfl

theorem forall₂_filter_filterMap {α β : Type} {R : α → β → Prop} {f : α → Option β} {p : α → Bool} {q : β → Bool}
    (hp : ∀ a, p a = true → ∃ b, f a = some b ∧ q b = true ∧ R a b)
    (hq : ∀ a b, f a = some b → q b = true → p a = true) : ∀ l : List α,
      List.Forall₂ R (l.filter p) ((l.filterMap f).filter q)
  | [] => .nil
  | a :: l => by
    have ih := forall₂_filter_filterMap hp hq l
    by_cases ha : p a = true
    · obtain ⟨b, hb, hqb, hab⟩ := hp a ha
      rw [List.filter_cons_of_pos ha, List.filterMap_cons_some hb, List.filter_cons_of_pos hqb]
      exact .cons hab ih
    · rw [List.filter_cons_of_neg ha]
      cases hb : f a with
      | none => rwa [List.filterMap_cons_none hb]
      | some b => rwa [List.filterMap_cons_some hb, List.filter_cons_of_neg (fun h => ha (hq a b hb h))]

theorem oppositeRoles_eq (s : Source) : oppositeRoles (s.definitions.map Located.value) =
    s.written.filterMap fun w => oppositeRole? (s.definitions.map Located.value) w.writer w.definition w.association := by
  unfold oppositeRoles Source.written
  rw [List.zipIdx_map, List.flatMap_map, List.filterMap_flatMap]
  refine List.flatMap_congr (fun ⟨d, i⟩ _ => ?_)
  rw [List.filterMap_map]
  rfl

section Roles

variable {s : Source} {g : Graph} (h : ofSource s = .ok g) {i : TypeId}

include h

theorem declaredEnd_of_declaredRole {d : Definition} {a : Located Association} {r : Role}
    (hr : declaredRole (s.definitions.map Located.value) i d a = .ok r) : g.DeclaredEnd i a r := by
  unfold declaredRole at hr
  split at hr
  · cases hr
  · rename_i target kind hdef
    cases hr
    exact ⟨roleName_eq _ _ _, by rw [find?_ofSource h, hdef]; rfl, rfl, Direction.reachesTarget_iff, rfl, rfl, rfl⟩

theorem exists_oppositeRole_of_reachesBack {w : Source.Written} (hw : g.reachesBack i w = true) :
    ∃ r, oppositeRole? (s.definitions.map Located.value) w.writer w.definition w.association = some r ∧
      r.holder = i ∧ g.OppositeEnd w r := by
  obtain ⟨⟨hfind, hdirection⟩, hclass⟩ := reachesBack_iff.1 hw
  have hback := Direction.reachesOwner_iff.2 hdirection
  have hfound := hfind
  rw [find?_ofSource h, Option.map_eq_some_iff] at hfound
  obtain ⟨⟨t, k⟩, hdef, rfl⟩ := hfound
  cases (kind_of_definedAs? h hdef).1.1 hclass
  unfold oppositeRole?
  simp only [hdef, hback, if_true]
  exact ⟨_, rfl, rfl, roleName_eq _ _ _, rfl, rfl, rfl, hfind, rfl, rfl⟩

theorem reachesBack_of_oppositeRole {w : Source.Written} {r : Role}
    (hr : oppositeRole? (s.definitions.map Located.value) w.writer w.definition w.association = some r) :
    g.reachesBack r.holder w = true := by
  unfold oppositeRole? at hr
  split at hr
  · rename_i holder hdef
    split at hr
    · rename_i hback
      cases hr
      have hfind : g.find? w.association.value.target.value = some holder := by rw [find?_ofSource h, hdef]; rfl
      exact reachesBack_iff.2 ⟨⟨hfind, Direction.reachesOwner_iff.1 hback⟩, (kind_of_definedAs? h hdef).1.2 rfl⟩
    · cases hr
  · cases hr

/-- **The opposite ends that a type holds** are those of the associations that reach back to it, in order. -/
theorem forall₂_oppositeRoles : List.Forall₂ g.OppositeEnd (s.written.filter (g.reachesBack i))
    ((oppositeRoles (s.definitions.map Located.value)).filter (·.holder = i)) := by
  rw [oppositeRoles_eq]
  refine forall₂_filter_filterMap (fun w hw => ?_) (fun w r hr hholder => ?_) s.written
  · obtain ⟨r, hr, hholder, hend⟩ := exists_oppositeRole_of_reachesBack h hw
    exact ⟨r, hr, decide_eq_true hholder, hend⟩
  · have := reachesBack_of_oppositeRole h hr
    rwa [of_decide_eq_true hholder] at this

end Roles

/-- **A graph says what its source says.**  It has one type for each definition, at its place and with its name, and a
name is looked up just there.  A type inherits from the types that its definition names.  It holds one role for each
association written in it, in order, and behind them, if it is a class, one for each association of the source that
reaches back to it, in the order in which these are written. -/
theorem ofSource_transcribes_definitions {s : Source} {g : Graph} (h : ofSource s = .ok g) :
    g.namespaceName = s.namespaceName.map Located.value ∧ g.size = s.definitions.length ∧
    (∀ name t, g.find? name = some t ↔ ∃ d, s.definitions[t.index]? = some d ∧ d.value.name.value = name) ∧
    ∀ i d, s.definitions[i]? = some d → ∃ n, g.types[i]? = some n ∧
      n.id = ⟨i⟩ ∧ n.name = d.value.name.value ∧ n.span = d.span ∧ n.nameSpan = d.value.name.span ∧
      (n.heritage.isClass = true ↔ d.value.kind = .ofClass) ∧ g.Inherits d.value n.heritage ∧
      (∃ declared opposite, n.roles = declared ++ opposite ∧
        List.Forall₂ (g.DeclaredEnd ⟨i⟩) d.value.associations declared ∧
        List.Forall₂ g.OppositeEnd (s.written.filter (g.reachesBack ⟨i⟩)) opposite ∧
        (d.value.kind = .ofInterface → opposite = [])) ∧
      ∀ r ∈ n.roles, r.holder = ⟨i⟩ ∧ r.multiplicity = r.bounds.multiplicity := by
  have hnamespace : g.namespaceName = s.namespaceName.map Located.value := by
    obtain ⟨-, _, _, -, -, rfl⟩ := ofSource_eq_ok.1 h
    rfl
  refine ⟨hnamespace, size_of_ofSource h, fun name t => find?_eq_some_iff h, fun i d hd => ?_⟩
  obtain ⟨her, declared, hher, hdeclared, hn⟩ := exists_node_of_ofSource h hd
  have hopposite := forall₂_oppositeRoles h (i := ⟨i⟩)
  refine ⟨_, hn, rfl, rfl, rfl, rfl, (heritage_eq_ok hher).1, inherits_of_heritage h hher,
    ⟨declared, _, rfl, ?_, hopposite, fun hk => ?_⟩, fun r hr => ⟨?_, rfl⟩⟩
  · exact (forall₂_of_mapM_eq_ok _ hdeclared).imp (fun _ _ hr => declaredEnd_of_declaredRole h hr)
  · -- nothing reaches back to an interface
    have hclass : g.isClass ⟨i⟩ = false := by
      have hcls := (heritage_eq_ok hher).1
      rw [hk] at hcls
      unfold isClass node?
      rw [hn]
      exact Bool.eq_false_iff.2 (fun hc => by cases hcls.1 hc)
    have hnone : s.written.filter (g.reachesBack ⟨i⟩) = [] := List.filter_eq_nil_iff.2 (fun w _ hw => by
      rw [reachesBack_iff, hclass] at hw
      cases hw.2)
    rw [hnone] at hopposite
    exact List.forall₂_nil_left_iff.1 hopposite
  · exact (wellFormed_of_ofSource h).holder_eq ⟨i⟩ r (mem_roles.2 ⟨_, hn, hr⟩)

end Graph

/-! ## An example -/

/-- A class with an association to itself that both of its ends can reach, and another class that reaches it.  Two more
associations between them go one way only: from the electives to the person, and from a course to its examiners. -/
def Source.faculty : Source :=
  (Source.empty.withDefinition
      ((((Definition.draft .ofClass "Person").withSupertype "Named").withAssociation
        ⟨.unplaced (.exactly 1), some (.unplaced "mentor"), .both, .unplaced .any, .unplaced "Person",
          some (.unplaced "students")⟩).withAssociation
        ⟨.unplaced .any, none, .backward, .unplaced .any, .unplaced "Course", some (.unplaced "electives")⟩)
    |>.withDefinition (((Definition.draft .ofClass "Course").withAssociation
      ⟨.unplaced .any, none, .both, .unplaced (.exactly 1), .unplaced "Person", some (.unplaced "teacher")⟩).withAssociation
      ⟨.unplaced .any, none, .forward, .unplaced .any, .unplaced "Person", some (.unplaced "examiners")⟩)
    |>.withDefinition (Definition.draft .ofInterface "Named"))

def Graph.faculty : Graph := (Graph.ofSource .faculty).toOption.getD ⟨none, []⟩

/-- The person has both ends of the first association, electives that it cannot reach, and courses, which no body of its
own tells of, but nothing for the courses that it examines. -/
theorem Graph.ofSource_transcribes_definitions_faculty : Graph.ofSource .faculty = .ok .faculty ∧
    faculty.find? "Named" = some ⟨2⟩ ∧ ∃ d n, Source.faculty.definitions[0]? = some d ∧ faculty.types[0]? = some n ∧
      n.heritage = .ofClass none [⟨2⟩] ∧
      n.roles.map (fun r => (r.name, r.navigable)) =
        [("students", true), ("electives", false), ("mentor", true), ("courses", true)] ∧
      ∃ declared opposite, n.roles = declared ++ opposite ∧ declared.length = 2 ∧
        List.Forall₂ (faculty.DeclaredEnd ⟨0⟩) d.value.associations declared ∧
        List.Forall₂ faculty.OppositeEnd (Source.faculty.written.filter (faculty.reachesBack ⟨0⟩)) opposite := by
  have h : Graph.ofSource .faculty = .ok .faculty := rfl
  obtain ⟨-, -, hfind, htypes⟩ := ofSource_transcribes_definitions h
  obtain ⟨n, hn, -, -, -, -, -, -, ⟨declared, opposite, hroles, hdeclared, hopposite, -⟩, -⟩ := htypes 0 _ rfl
  have hheritage : (faculty.types[0]?).map TypeNode.heritage = some (.ofClass none [⟨2⟩]) := rfl
  have hends : (faculty.types[0]?).map (·.roles.map fun r => (r.name, r.navigable)) =
      some [("students", true), ("electives", false), ("mentor", true), ("courses", true)] := rfl
  rw [hn, Option.map_some, Option.some.injEq] at hheritage hends
  exact ⟨h, (hfind "Named" ⟨2⟩).2 ⟨_, rfl, rfl⟩, _, n, rfl, hn, hheritage, hends, declared, opposite, hroles,
    hdeclared.length_eq.symm, hdeclared, hopposite⟩

end Accessors
