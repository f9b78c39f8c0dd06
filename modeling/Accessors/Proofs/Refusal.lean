import Accessors.Proofs.Linking
/-!
# Which sources are refused

A source has a graph just if its names fit together (`Source.WellNamed`), and otherwise what is told is a name at which
they do not, at its place (`Graph.ofSource_refuses_misnamed`).  Nothing is asked of edges and roles but their names, so
types above each other and roles that disagree are let through.

The rules speak of names only; the linking goes by the types that it found for them.  `Lineage.Holds` leads from one to
the other.
-/
namespace Accessors
namespace Source

/-- The names of the types that a source defines, in order. -/
def names (s : Source) : List String := s.definitions.map fun d => d.value.name.value

/-- Some definition of this kind has the name. -/
def Defines (s : Source) (name : String) (kind : DefinitionKind) : Prop :=
  ∃ d ∈ s.definitions, d.value.name.value = name ∧ d.value.kind = kind

/-- The names of a source fit together: each type has a name of its own; supertypes and targets are types of the source;
no type names a supertype twice; interfaces name no class, and classes one class at most. -/
structure WellNamed (s : Source) : Prop where
  distinct : s.names.Nodup
  supertypes : ∀ d ∈ s.definitions, ∀ p ∈ d.value.supertypes, p.value ∈ s.names
  targets : ∀ d ∈ s.definitions, ∀ a ∈ d.value.associations, a.value.target.value ∈ s.names
  once : ∀ d ∈ s.definitions, (d.value.supertypes.map Located.value).Nodup
  noClass : ∀ d ∈ s.definitions, d.value.kind = .ofInterface → ∀ p ∈ d.value.supertypes, ¬ s.Defines p.value .ofClass
  oneClass : ∀ d ∈ s.definitions, d.value.kind = .ofClass → ∀ p ∈ d.value.supertypes, ∀ q ∈ d.value.supertypes,
    s.Defines p.value .ofClass → s.Defines q.value .ofClass → p.value = q.value

/-- A name that does not fit, told with its place and with the names that it does not fit to. -/
inductive Misnamed (s : Source) : Located ModelFault → Prop
  | duplicateType {before after : List (Located Definition)} {d : Located Definition}
      (hd : s.definitions = before ++ d :: after) (hseen : ∃ e ∈ before, e.value.name.value = d.value.name.value) :
      Misnamed s ⟨.duplicateType d.value.name.value, d.value.name.span⟩
  | unknownSupertype {d : Located Definition} {p : Located String} (hd : d ∈ s.definitions) (hp : p ∈ d.value.supertypes)
      (hunknown : p.value ∉ s.names) : Misnamed s ⟨.unknownSupertype p.value d.value.name.value, p.span⟩
  | repeatedSupertype {d : Located Definition} {before after : List (Located String)} {p : Located String}
      (hd : d ∈ s.definitions) (hp : d.value.supertypes = before ++ p :: after)
      (hseen : ∃ q ∈ before, q.value = p.value) : Misnamed s ⟨.repeatedSupertype p.value d.value.name.value, p.span⟩
  | secondSuperclass {d : Located Definition} {before after : List (Located String)} {first p : Located String}
      (hd : d ∈ s.definitions) (hkind : d.value.kind = .ofClass) (hp : d.value.supertypes = before ++ p :: after)
      (hfirst : first ∈ before) (hne : first.value ≠ p.value) (hclass : s.Defines first.value .ofClass)
      (hclass' : s.Defines p.value .ofClass) :
      Misnamed s ⟨.secondSuperclass d.value.name.value first.value p.value, p.span⟩
  | classUnderInterface {d : Located Definition} {p : Located String} (hd : d ∈ s.definitions)
      (hkind : d.value.kind = .ofInterface) (hp : p ∈ d.value.supertypes) (hclass : s.Defines p.value .ofClass) :
      Misnamed s ⟨.classUnderInterface d.value.name.value p.value, p.span⟩
  | unknownTarget {d : Located Definition} {a : Located Association} (hd : d ∈ s.definitions)
      (ha : a ∈ d.value.associations) (hunknown : a.value.target.value ∉ s.names) :
      Misnamed s ⟨.unknownTarget a.value.target.value d.value.name.value, a.value.target.span⟩

/-- **Where some name does not fit, the names do not fit together.** -/
theorem Misnamed.not_wellNamed {s : Source} {f : Located ModelFault} (h : s.Misnamed f) : ¬ s.WellNamed := fun hs => by
  cases h with
  | duplicateType hd hseen =>
    obtain ⟨e, he, hname⟩ := hseen
    have hn := hs.distinct
    unfold names at hn
    rw [hd, List.map_append, List.map_cons] at hn
    exact (List.nodup_append.1 hn).2.2 _ (List.mem_map_of_mem he) _ List.mem_cons_self hname
  | unknownSupertype hd hp hunknown => exact hunknown (hs.supertypes _ hd _ hp)
  | repeatedSupertype hd hp hseen =>
    obtain ⟨q, hq, hname⟩ := hseen
    have hn := hs.once _ hd
    rw [hp, List.map_append, List.map_cons] at hn
    exact (List.nodup_append.1 hn).2.2 _ (List.mem_map_of_mem hq) _ List.mem_cons_self hname
  | secondSuperclass hd hkind hp hfirst hne hclass hclass' =>
    refine hne (hs.oneClass _ hd hkind _ ?_ _ ?_ hclass hclass')
    · rw [hp]
      exact List.mem_append_left _ hfirst
    · rw [hp]
      exact List.mem_append_right _ List.mem_cons_self
  | classUnderInterface hd hkind hp hclass => exact hs.noClass _ hd hkind _ hp hclass
  | unknownTarget hd ha hunknown => exact hunknown (hs.targets _ hd _ ha)

end Source

/-! ## Steps that stop -/

namespace Graph

theorem exists_of_checkDistinct_eq_error {f : Located ModelFault} : ∀ {ds : List Definition} {seen : List String},
    checkDistinct seen ds = .error f → ∃ before d after, ds = before ++ d :: after ∧
      (d.name.value ∈ seen ∨ ∃ e ∈ before, e.name.value = d.name.value) ∧
      f = ⟨.duplicateType d.name.value, d.name.span⟩
  | [], _, h => by cases h
  | d :: ds, seen, h => by
    unfold checkDistinct at h
    split at h
    · rename_i hseen
      cases h
      exact ⟨[], d, ds, rfl, .inl hseen, rfl⟩
    · obtain ⟨before, x, after, rfl, hx, rfl⟩ := exists_of_checkDistinct_eq_error h
      refine ⟨d :: before, x, after, rfl, ?_, rfl⟩
      rcases hx with hx | ⟨e, he, hname⟩
      · rcases List.mem_cons.1 hx with hname | hx
        · exact .inr ⟨d, List.mem_cons_self, hname.symm⟩
        · exact .inl hx
      · exact .inr ⟨e, List.mem_cons_of_mem _ he, hname⟩

/-! ## Names and types -/

theorem definedAs?_eq_none {ds : List Definition} {name : String} :
    definedAs? ds name = none ↔ ∀ d ∈ ds, d.name.value ≠ name := by
  unfold definedAs?
  rw [Option.map_eq_none_iff, List.find?_eq_none]
  constructor
  · intro h d hd hname
    obtain ⟨i, hi⟩ := List.mem_iff_getElem?.1 hd
    exact h (d, i) (List.mem_zipIdx_iff_getElem?.2 hi) (decide_eq_true hname)
  · exact fun h p hp hname =>
      h p.1 (List.mem_of_getElem? (List.mem_zipIdx_iff_getElem?.1 hp)) (of_decide_eq_true hname)

/-- No type has two names. -/
theorem name_eq_of_definedAs? {ds : List Definition} {name name' : String} {t : TypeId} {k k' : DefinitionKind}
    (h : definedAs? ds name = some (t, k)) (h' : definedAs? ds name' = some (t, k')) : name = name' := by
  obtain ⟨d, hd, -, rfl⟩ := definedAs?_eq_some h
  obtain ⟨d', hd', -, rfl⟩ := definedAs?_eq_some h'
  rw [hd] at hd'
  rw [Option.some.inj hd']

section Names

variable {s : Source}

theorem names_eq (s : Source) : s.names = (s.definitions.map Located.value).map fun d => d.name.value := by
  unfold Source.names
  rw [List.map_map]
  rfl

theorem notMem_names_of_definedAs? {name : String}
    (h : definedAs? (s.definitions.map Located.value) name = none) : name ∉ s.names := fun hm => by
  rw [names_eq] at hm
  obtain ⟨d, hd, hname⟩ := List.mem_map.1 hm
  exact definedAs?_eq_none.1 h d hd hname

theorem defines_of_definedAs? {name : String} {t : TypeId} {k : DefinitionKind}
    (h : definedAs? (s.definitions.map Located.value) name = some (t, k)) : s.Defines name k := by
  obtain ⟨d, hd, rfl, rfl⟩ := definedAs?_eq_some h
  obtain ⟨d', hd', rfl⟩ := List.mem_map.1 (List.mem_of_getElem? hd)
  exact ⟨d', hd', rfl, rfl⟩

theorem mem_names_of_definedAs? {name : String} {found : TypeId × DefinitionKind}
    (h : definedAs? (s.definitions.map Located.value) name = some found) : name ∈ s.names := by
  obtain ⟨d, hd, rfl, -⟩ := defines_of_definedAs? h
  exact List.mem_map_of_mem hd

theorem exists_definedAs? (hn : s.names.Nodup) {name : String} {k : DefinitionKind} (h : s.Defines name k) :
    ∃ t, definedAs? (s.definitions.map Located.value) name = some (t, k) := by
  obtain ⟨d, hd, rfl, rfl⟩ := h
  obtain ⟨i, hi⟩ := List.mem_iff_getElem?.1 hd
  refine ⟨⟨i⟩, (definedAs?_eq_some_iff (names_eq s ▸ hn)).2 ⟨d.value, ?_, rfl, rfl⟩⟩
  rw [List.getElem?_map, hi]
  rfl

end Names

/-! ## Supertypes -/

/-- **What keeps a supertype from being added**: its name is not found; or its type was added before; or it is a class,
and the definition is of an interface, or of a class that has a superclass. -/
theorem Lineage.add_eq_error {ds : List Definition} {d : Definition} {l : Lineage} {parent : Located String}
    {f : Located ModelFault} (h : l.add ds d parent = .error f) :
    (definedAs? ds parent.value = none ∧ f = ⟨.unknownSupertype parent.value d.name.value, parent.span⟩) ∨
    ∃ t kind, definedAs? ds parent.value = some (t, kind) ∧
      ((l.contains t = true ∧ f = ⟨.repeatedSupertype parent.value d.name.value, parent.span⟩) ∨
      (¬ l.contains t = true ∧ kind = .ofClass ∧
        ((d.kind = .ofInterface ∧ f = ⟨.classUnderInterface d.name.value parent.value, parent.span⟩) ∨
        (d.kind = .ofClass ∧ ∃ c ∈ l.superclass,
          f = ⟨.secondSuperclass d.name.value c.2 parent.value, parent.span⟩)))) := by
  unfold Lineage.add at h
  split at h
  · rename_i hdef
    cases h
    exact .inl ⟨hdef, rfl⟩
  · rename_i t kind hdef
    refine .inr ⟨t, kind, hdef, ?_⟩
    split at h
    · rename_i hold
      cases h
      exact .inl ⟨hold, rfl⟩
    · rename_i hnew
      refine .inr ⟨hnew, ?_⟩
      split at h
      · cases h
      · rename_i hkind
        cases h
        exact ⟨rfl, .inl ⟨hkind, rfl⟩⟩
      · rename_i hkind
        split at h
        · cases h
        · rename_i t first hsuper
          cases h
          exact ⟨rfl, .inr ⟨hkind, (t, first), hsuper, rfl⟩⟩

/-- The superclass found so far is noted with its name. -/
theorem Lineage.definedAs?_superclass {ds : List Definition} {d : Definition} {parents : List (Located String)}
    {l : Lineage} (h : parents.foldlM (Lineage.add ds d) ⟨none, []⟩ = .ok l) :
    ∀ c ∈ l.superclass, definedAs? ds c.2 = some (c.1, .ofClass) := by
  refine foldlM_preserves (Lineage.add ds d) (fun l => ∀ c ∈ l.superclass, definedAs? ds c.2 = some (c.1, .ofClass))
    (fun l p l' hl hp => ?_) parents ⟨none, []⟩ l (fun c hc => by cases hc) h
  obtain ⟨t, kind, hdef, -, ⟨rfl, rfl⟩ | ⟨rfl, -, -, rfl⟩⟩ := Lineage.add_eq_ok.1 hp
  · exact hl
  · intro c hc
    cases hc
    exact hdef

theorem Lineage.Holds.nil (ds : List Definition) (d : Definition) : Lineage.Holds ds d [] [] ⟨none, []⟩ :=
  ⟨rfl, List.nodup_nil, rfl, rfl, fun _ _ hp => by cases hp⟩

theorem Lineage.exists_holds_of_foldlM {ds : List Definition} {d : Definition} {parents : List (Located String)}
    {l : Lineage} (h : parents.foldlM (Lineage.add ds d) ⟨none, []⟩ = .ok l) : ∃ named, l.Holds ds d parents named :=
  Lineage.exists_holds (Lineage.Holds.nil ds d) h

theorem Lineage.Holds.exists_parent {ds : List Definition} {d : Definition} {parents : List (Located String)}
    {named : List (TypeId × DefinitionKind)} {l : Lineage} (h : l.Holds ds d parents named)
    {p : TypeId × DefinitionKind} (hp : p ∈ named) : ∃ q ∈ parents, definedAs? ds q.value = some p := by
  have hm : some p ∈ parents.map fun q => definedAs? ds q.value := by
    rw [h.found]
    exact List.mem_map_of_mem hp
  exact List.mem_map.1 hm

theorem Lineage.Holds.exists_named {ds : List Definition} {d : Definition} {parents : List (Located String)}
    {named : List (TypeId × DefinitionKind)} {l : Lineage} (h : l.Holds ds d parents named)
    {q : Located String} (hq : q ∈ parents) : ∃ p ∈ named, definedAs? ds q.value = some p := by
  have hm : definedAs? ds q.value ∈ named.map some := by
    rw [← h.found]
    exact List.mem_map_of_mem hq
  obtain ⟨p, hp, hdef⟩ := List.mem_map.1 hm
  exact ⟨p, hp, hdef.symm⟩

section Supertypes

variable {s : Source} {d : Located Definition} (hd : d ∈ s.definitions)

include hd

/-- **A definition whose supertypes cannot be taken** names one that does not fit. -/
theorem misnamed_of_heritage {f : Located ModelFault}
    (h : heritage (s.definitions.map Located.value) d.value = .error f) : s.Misnamed f := by
  unfold heritage at h
  cases hl : d.value.supertypes.foldlM (Lineage.add (s.definitions.map Located.value) d.value) ⟨none, []⟩ with
  | ok l => rw [hl] at h; cases h
  | error e =>
    rw [hl] at h
    cases h
    obtain ⟨before, p, after, l, hsplit, hbefore, hp⟩ := exists_of_foldlM_eq_error hl
    have hmem : p ∈ d.value.supertypes := hsplit ▸ List.mem_append_right _ List.mem_cons_self
    obtain ⟨named, hnamed⟩ := Lineage.exists_holds_of_foldlM hbefore
    rcases Lineage.add_eq_error hp with ⟨hnone, rfl⟩ | ⟨t, kind, hdef, hcase⟩
    · exact .unknownSupertype hd hmem (notMem_names_of_definedAs? hnone)
    · rcases hcase with ⟨hold, rfl⟩ | ⟨hnew, rfl, ⟨hkind, rfl⟩ | ⟨hkind, c, hc, rfl⟩⟩
      · obtain ⟨x, hx, rfl⟩ := List.mem_map.1 (hnamed.contains_iff.1 hold)
        obtain ⟨q, hq, hq'⟩ := hnamed.exists_parent hx
        exact .repeatedSupertype hd hsplit ⟨q, hq, name_eq_of_definedAs? hq' hdef⟩
      · exact .classUnderInterface hd hkind hmem (defines_of_definedAs? hdef)
      · -- the superclass was found for one of the names before
        have hsuper := Lineage.definedAs?_superclass hbefore c hc
        have hold : l.contains c.1 = true := by
          unfold Lineage.contains
          rw [Option.mem_def.1 hc]
          simp
        obtain ⟨x, hx, hxc⟩ := List.mem_map.1 (hnamed.contains_iff.1 hold)
        obtain ⟨q, hq, hq'⟩ := hnamed.exists_parent hx
        have hname : q.value = c.2 := name_eq_of_definedAs? (t := c.1) (k := x.2) (by rw [hq', ← hxc]) hsuper
        rw [← hname] at hsuper ⊢
        refine .secondSuperclass hd hkind hsplit hq (fun he => hnew ?_) (defines_of_definedAs? hsuper)
          (defines_of_definedAs? hdef)
        rw [he, hdef] at hsuper
        have ht : t = c.1 := congrArg Prod.fst (Option.some.inj hsuper)
        rw [ht]
        exact hold

end Supertypes

/-! ## Sources -/

theorem misnamed_of_ofSource {s : Source} {f : Located ModelFault} (h : ofSource s = .error f) : s.Misnamed f := by
  unfold ofSource at h
  simp only [except_bind_eq_error] at h
  rcases h with h | ⟨-, -, h | ⟨her, -, h | ⟨declared, -, h⟩⟩⟩
  · obtain ⟨before, d, after, hsplit, hseen, rfl⟩ := exists_of_checkDistinct_eq_error h
    obtain ⟨earlier, rest, hdefs, rfl, hrest⟩ := List.map_eq_append_iff.1 hsplit
    obtain ⟨again, later, rfl, rfl, rfl⟩ := List.map_eq_cons_iff.1 hrest
    rcases hseen with hseen | ⟨e, he, hname⟩
    · cases hseen
    · obtain ⟨first, hfirst, rfl⟩ := List.mem_map.1 he
      exact .duplicateType hdefs ⟨first, hfirst, hname⟩
  · obtain ⟨value, hvalue, hher⟩ := exists_of_mapM_eq_error h
    obtain ⟨d, hd, rfl⟩ := List.mem_map.1 hvalue
    exact misnamed_of_heritage hd hher
  · obtain ⟨⟨value, i⟩, hvalue, hroles⟩ := exists_of_mapM_eq_error h
    obtain ⟨d, hd, rfl⟩ := List.mem_map.1 (List.mem_of_getElem? (List.mem_zipIdx_iff_getElem?.1 hvalue))
    obtain ⟨a, ha, hrole⟩ := exists_of_mapM_eq_error hroles
    unfold declaredRole at hrole
    split at hrole
    · rename_i hnone
      cases hrole
      exact .unknownTarget hd ha (notMem_names_of_definedAs? hnone)
    · cases hrole
  · cases h

theorem wellNamed_of_ofSource {s : Source} {g : Graph} (h : ofSource s = .ok g) : s.WellNamed := by
  obtain ⟨hdistinct, hheritages, htargets⟩ := exists_ofSource_iff.1 ⟨g, h⟩
  rw [← names_eq] at hdistinct
  have hnamed : ∀ d ∈ s.definitions, ∃ l named,
      Lineage.Holds (s.definitions.map Located.value) d.value d.value.supertypes named l := fun d hd => by
    obtain ⟨her, hher⟩ := hheritages _ (List.mem_map_of_mem hd)
    unfold heritage at hher
    cases hl : d.value.supertypes.foldlM (Lineage.add (s.definitions.map Located.value) d.value) ⟨none, []⟩ with
    | error e => rw [hl] at hher; cases hher
    | ok l => exact ⟨l, Lineage.exists_holds_of_foldlM hl⟩
  refine ⟨hdistinct, fun d hd p hp => ?_, fun d hd a ha => ?_, fun d hd => ?_, fun d hd hkind p hp hclass => ?_,
    fun d hd hkind p hp q hq hpclass hqclass => ?_⟩
  · obtain ⟨l, named, hl⟩ := hnamed d hd
    obtain ⟨found, -, hdef⟩ := hl.exists_named hp
    exact mem_names_of_definedAs? hdef
  · obtain ⟨found, hdef⟩ := htargets _ (List.mem_map_of_mem hd) a ha
    exact mem_names_of_definedAs? hdef
  · obtain ⟨l, named, hl⟩ := hnamed d hd
    refine List.Nodup.of_map (definedAs? (s.definitions.map Located.value)) ?_
    have hfound := hl.found
    rw [List.map_map]
    exact (hfound ▸ List.Nodup.map (fun _ _ h => Option.some.inj h) (List.Nodup.of_map _ hl.distinct))
  · obtain ⟨l, named, hl⟩ := hnamed d hd
    obtain ⟨t, hdef⟩ := exists_definedAs? hdistinct hclass
    obtain ⟨found, hfound, hdef'⟩ := hl.exists_named hp
    rw [hdef, Option.some.injEq] at hdef'
    subst hdef'
    cases hl.kinds hkind _ hfound
  · obtain ⟨l, named, hl⟩ := hnamed d hd
    -- both classes are the one superclass
    have hsuper : ∀ x ∈ d.value.supertypes, s.Defines x.value .ofClass → ∃ c ∈ l.superclass.map Prod.fst,
        definedAs? (s.definitions.map Located.value) x.value = some (c, .ofClass) := fun x hx hxclass => by
      obtain ⟨t, hdef⟩ := exists_definedAs? hdistinct hxclass
      obtain ⟨found, hfound, hdef'⟩ := hl.exists_named hx
      rw [hdef, Option.some.injEq] at hdef'
      subst hdef'
      refine ⟨t, ?_, hdef⟩
      refine Option.mem_toList.1 ?_
      rw [hl.superclass]
      exact List.mem_map.2 ⟨_, List.mem_filter.2 ⟨hfound, rfl⟩, rfl⟩
    obtain ⟨c, hc, hp'⟩ := hsuper p hp hpclass
    obtain ⟨c', hc', hq'⟩ := hsuper q hq hqclass
    cases Option.mem_unique hc hc'
    exact name_eq_of_definedAs? hp' hq'

/-- **A source is refused for its names and for nothing else.**  It has a graph just if its names fit together; if they
do not, the fault told is a name that does not fit, at its place. -/
theorem ofSource_refuses_misnamed (s : Source) : ((∃ g, ofSource s = .ok g) ↔ s.WellNamed) ∧
    (¬ s.WellNamed → ∃ f, ofSource s = .error f ∧ s.Misnamed f) := by
  have haccept : s.WellNamed → ∃ g, ofSource s = .ok g := fun hs => by
    cases h : ofSource s with
    | ok g => exact ⟨g, rfl⟩
    | error f => exact absurd hs (misnamed_of_ofSource h).not_wellNamed
  refine ⟨⟨fun ⟨_, h⟩ => wellNamed_of_ofSource h, haccept⟩, fun hs => ?_⟩
  cases h : ofSource s with
  | ok g => exact absurd (wellNamed_of_ofSource h) hs
  | error f => exact ⟨f, rfl, misnamed_of_ofSource h⟩

/-- Either superclass would do; the second one is refused, and the class that is its own superclass is not. -/
example : ofSource (Source.empty.withDefinition ((Definition.draft .ofClass "Staff").withSupertype "Staff")
    |>.withDefinition (Definition.draft .ofClass "Student")
    |>.withDefinition (((Definition.draft .ofClass "Tutor").withSupertype "Student").withSupertype "Staff")) =
    .error (.unplaced (.secondSuperclass "Tutor" "Student" "Staff")) := rfl

end Graph
end Accessors
