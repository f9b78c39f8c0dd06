import Accessors.Proofs.Linking
import Accessors.Proofs.Relabeling
/-!
# Sources that hold the definitions of another one

Where a source holds every definition of another one, each at a place that `f` tells, whatever was looked up in the one
is found in the other as well, at the place that `f` tells: the supertypes and the declared roles of each definition go
along (`nodes_of_embeds`), and so do the far ends of its associations (`farEnds_of_embeds`), so that the one graph is the
other with its types renamed (`relabels_of_embeds`).
-/
namespace Accessors

variable {f : TypeId → TypeId}

def Heritage.map (f : TypeId → TypeId) : Heritage → Heritage
  | ofClass superclass interfaces => ofClass (superclass.map f) (interfaces.map f)
  | ofInterface extended => ofInterface (extended.map f)

@[simp] theorem Heritage.isClass_map (h : Heritage) : (h.map f).isClass = h.isClass := by
  cases h <;> rfl

@[simp] theorem Heritage.parents_map (h : Heritage) : (h.map f).parents = h.parents.map f := by
  cases h with
  | ofClass superclass interfaces => cases superclass <;> rfl
  | ofInterface extended => rfl

/-- Each definition of `s` stands in `s'`, at the place that `f` tells. -/
structure Source.Embeds (f : TypeId → TypeId) (s s' : Source) : Prop where
  injective : Function.Injective f
  definitions_eq : ∀ t : TypeId, s'.definitions[(f t).index]? = s.definitions[t.index]?

namespace Graph

def Lineage.map (f : TypeId → TypeId) (l : Lineage) : Lineage :=
  ⟨l.superclass.map fun p => (f p.1, p.2), l.interfaces.map f⟩

/-! ## Looking names up -/

section Found

variable {ds ds' : List Definition} (hf : Function.Injective f)
  (hfound : ∀ name t kind, definedAs? ds name = some (t, kind) → definedAs? ds' name = some (f t, kind))

include hf hfound

omit hfound in
theorem Lineage.contains_map (l : Lineage) (t : TypeId) : (l.map f).contains (f t) = l.contains t := by
  have hsuper : (l.map f).superclass.any (·.1 = f t) = l.superclass.any (·.1 = t) := by
    unfold map
    rw [Option.any_map]
    exact congrArg (fun p => l.superclass.any p) (funext (fun _ => decide_eq_decide.2 hf.eq_iff))
  have hinterfaces : (l.map f).interfaces.contains (f t) = l.interfaces.contains t := by
    rw [Bool.eq_iff_iff, List.contains_iff_mem, List.contains_iff_mem]
    exact List.mem_map_of_injective hf
  unfold contains
  rw [hsuper, hinterfaces]

theorem Lineage.add_map {d : Definition} {l l' : Lineage} {parent : Located String}
    (h : l.add ds d parent = .ok l') : (l.map f).add ds' d parent = .ok (l'.map f) := by
  obtain ⟨t, kind, hdef, hnew, hcase⟩ := Lineage.add_eq_ok.1 h
  refine Lineage.add_eq_ok.2 ⟨f t, kind, hfound _ t kind hdef, ?_, ?_⟩
  · rwa [Lineage.contains_map hf]
  · rcases hcase with ⟨hkind, rfl⟩ | ⟨hkind, hd, hnone, rfl⟩
    · refine .inl ⟨hkind, ?_⟩
      unfold map
      rw [List.map_append, List.map_singleton]
    · refine .inr ⟨hkind, hd, ?_, rfl⟩
      unfold map
      rw [hnone]
      rfl

theorem Lineage.foldlM_map {d : Definition} : ∀ {parents : List (Located String)} {l l' : Lineage},
    parents.foldlM (Lineage.add ds d) l = .ok l' → parents.foldlM (Lineage.add ds' d) (l.map f) = .ok (l'.map f)
  | [], l, l', h => by
    rw [List.foldlM_nil] at h ⊢
    cases h
    rfl
  | parent :: parents, l, l', h => by
    rw [List.foldlM_cons, except_bind_eq_ok] at h ⊢
    obtain ⟨m, hm, h⟩ := h
    exact ⟨m.map f, Lineage.add_map hf hfound hm, foldlM_map h⟩

/-- **Supertypes that were found** are found again. -/
theorem heritage_map {d : Definition} {her : Heritage} (h : heritage ds d = .ok her) :
    heritage ds' d = .ok (her.map f) := by
  unfold heritage at h ⊢
  cases hl : d.supertypes.foldlM (Lineage.add ds d) ⟨none, []⟩ with
  | error e => rw [hl] at h; cases h
  | ok l =>
    have hl' : d.supertypes.foldlM (Lineage.add ds' d) ⟨none, []⟩ = .ok (l.map f) := Lineage.foldlM_map hf hfound hl
    rw [hl] at h
    rw [hl']
    cases h
    cases hk : d.kind with
    | ofClass => simp [Except.map, Heritage.map, Lineage.map, Function.comp_def]
    | ofInterface => simp [Except.map, Heritage.map, Lineage.map]

omit hf in
/-- **A target that was found** is found again. -/
theorem declaredRole_map {holder : TypeId} {d : Definition} {a : Located Association} {r : Role}
    (h : declaredRole ds holder d a = .ok r) : declaredRole ds' (f holder) d a = .ok (r.map f) := by
  unfold declaredRole at h
  split at h
  · cases h
  · rename_i target kind hdef
    cases h
    unfold declaredRole
    rw [hfound _ target kind hdef]
    rfl

omit hf in
theorem declaredRoles_map {holder : TypeId} {d : Definition} {as : List (Located Association)} {rs : List Role}
    (h : as.mapM (declaredRole ds holder d) = .ok rs) :
    as.mapM (declaredRole ds' (f holder) d) = .ok (rs.map (Role.map f)) := by
  refine mapM_eq_ok_of_forall₂ ((List.forall₂_map_right_iff).2 ?_)
  exact (forall₂_of_mapM_eq_ok _ h).imp (fun _ _ hr => declaredRole_map hfound hr)

omit hf in
/-- **The far end of an association** whose target was found goes along. -/
theorem oppositeRole?_of_found {owner : TypeId} {d : Definition} {a : Located Association}
    (h : ∃ found, definedAs? ds a.value.target.value = some found) :
    oppositeRole? ds' (f owner) d a = (oppositeRole? ds owner d a).map (Role.map f) := by
  obtain ⟨⟨t, kind⟩, hdef⟩ := h
  unfold oppositeRole?
  rw [hdef, hfound _ t kind hdef]
  cases kind with
  | ofInterface => rfl
  | ofClass =>
    dsimp only
    split <;> rfl

end Found

/-! ## Far ends -/

/-- The far ends of the associations that are written in one type. -/
def farEnds (ds : List Definition) (t : TypeId) : List Role :=
  ds[t.index]?.elim [] fun d => d.associations.filterMap (oppositeRole? ds t d)

theorem target_of_mem_farEnds {ds : List Definition} {t : TypeId} {r : Role} (h : r ∈ farEnds ds t) : r.target = t := by
  unfold farEnds at h
  cases hd : ds[t.index]? with
  | none => rw [hd] at h; cases h
  | some d =>
    rw [hd, Option.elim_some] at h
    obtain ⟨a, -, hr⟩ := List.mem_filterMap.1 h
    unfold oppositeRole? at hr
    split at hr
    · split at hr
      · cases hr
        rfl
      · cases hr
    · cases hr

theorem oppositeRoles_eq_flatMap (ds : List Definition) :
    oppositeRoles ds = (List.range ds.length).flatMap fun i => farEnds ds ⟨i⟩ := by
  have hplaces := flatMap_range_length ds.zipIdx (fun i => farEnds ds ⟨i⟩)
    (fun p => p.1.associations.filterMap (oppositeRole? ds ⟨p.2⟩ p.1)) (fun i p hp => by
      rw [List.getElem?_zipIdx] at hp
      obtain ⟨d, hd, rfl⟩ := Option.map_eq_some_iff.1 hp
      unfold farEnds
      rw [hd, Nat.zero_add]
      rfl)
  rw [List.length_zipIdx] at hplaces
  exact hplaces.symm

theorem filter_target_oppositeRoles (ds : List Definition) (t : TypeId) :
    (oppositeRoles ds).filter (·.target = t) = farEnds ds t := by
  have hkey := filter_key_flatMap (fun r : Role => r.target.index) (fun i => farEnds ds ⟨i⟩) (List.range ds.length)
    List.nodup_range (fun i _ r hr => congrArg TypeId.index (target_of_mem_farEnds hr)) t.index
  have hsame : ∀ r : Role, decide (r.target = t) = decide (r.target.index = t.index) := fun r =>
    decide_eq_decide.2 ⟨congrArg TypeId.index, fun he => by cases t; cases hr : r.target; simp_all⟩
  rw [oppositeRoles_eq_flatMap, funext hsame, hkey]
  split
  · rfl
  · rename_i hout
    unfold farEnds
    rw [List.getElem?_eq_none_iff.2 (by simpa using hout)]
    rfl

/-! ## Embedded sources -/

section Embeds

variable {s s' : Source} {g g' : Graph} (h : s.Embeds f s')

include h

theorem getElem?_of_embeds (t : TypeId) :
    (s'.definitions.map Located.value)[(f t).index]? = (s.definitions.map Located.value)[t.index]? := by
  rw [List.getElem?_map, List.getElem?_map, h.definitions_eq]

/-- **What a name is defined as** goes along, if no name is defined twice. -/
theorem definedAs?_of_embeds (hn : ((s'.definitions.map Located.value).map fun d => d.name.value).Nodup) (name : String)
    (t : TypeId) (kind : DefinitionKind) (hdef : definedAs? (s.definitions.map Located.value) name = some (t, kind)) :
    definedAs? (s'.definitions.map Located.value) name = some (f t, kind) := by
  obtain ⟨d, hd, hkind, hname⟩ := definedAs?_eq_some hdef
  exact (definedAs?_eq_some_iff hn).2 ⟨d, (getElem?_of_embeds h t).trans hd, hkind, hname⟩

variable (hs : ofSource s = .ok g) (hs' : ofSource s' = .ok g')

include hs hs'

/-- **What a definition gives rise to** in both graphs; at a place without a definition there is nothing in either. -/
theorem nodes_of_embeds (t : TypeId) : (g.node? t = none ∧ g'.node? (f t) = none) ∨ ∃ d her declared,
    g.node? t = some (node (oppositeRoles (s.definitions.map Located.value)) t.index d her declared) ∧
    g'.node? (f t) = some (node (oppositeRoles (s'.definitions.map Located.value)) (f t).index d (her.map f)
      (declared.map (Role.map f))) := by
  have hdefinitions := h.definitions_eq t
  cases hd : s.definitions[t.index]? with
  | none =>
    rw [hd, List.getElem?_eq_none_iff] at hdefinitions
    exact .inl ⟨List.getElem?_eq_none_iff.2 ((size_of_ofSource hs).trans_le (List.getElem?_eq_none_iff.1 hd)),
      List.getElem?_eq_none_iff.2 ((size_of_ofSource hs').trans_le hdefinitions)⟩
  | some d =>
    have hfound := definedAs?_of_embeds h (nodup_names_of_definitions hs')
    obtain ⟨her, declared, hher, hdeclared, hn⟩ := exists_node_of_ofSource hs hd
    obtain ⟨her', declared', hher', hdeclared', hn'⟩ := exists_node_of_ofSource hs' (hdefinitions.trans hd)
    have hheritage : her' = her.map f := Except.ok.inj (hher'.symm.trans (heritage_map h.injective hfound hher))
    have hroles : declared' = declared.map (Role.map f) :=
      Except.ok.inj (hdeclared'.symm.trans (declaredRoles_map hfound hdeclared))
    rw [hheritage, hroles] at hn'
    exact .inr ⟨d, her, declared, hn, hn'⟩

theorem name_of_embeds (t : TypeId) : g'.name (f t) = g.name t := by
  unfold name
  rcases nodes_of_embeds h hs hs' t with ⟨hn, hn'⟩ | ⟨d, her, declared, hn, hn'⟩
  · rw [hn, hn']
  · rw [hn, hn']
    rfl

theorem parents_of_embeds (t : TypeId) : g'.parents (f t) = (g.parents t).map f := by
  unfold parents
  rcases nodes_of_embeds h hs hs' t with ⟨hn, hn'⟩ | ⟨d, her, declared, hn, hn'⟩
  · rw [hn, hn']
    rfl
  · rw [hn, hn']
    exact Heritage.parents_map her

theorem isClass_of_embeds (t : TypeId) : g'.isClass (f t) = g.isClass t := by
  unfold isClass
  rcases nodes_of_embeds h hs hs' t with ⟨hn, hn'⟩ | ⟨d, her, declared, hn, hn'⟩
  · rw [hn, hn']
  · rw [hn, hn']
    exact Heritage.isClass_map her

theorem isInterface_of_embeds (t : TypeId) : g'.isInterface (f t) = g.isInterface t := by
  unfold isInterface
  rcases nodes_of_embeds h hs hs' t with ⟨hn, hn'⟩ | ⟨d, her, declared, hn, hn'⟩
  · rw [hn, hn']
  · rw [hn, hn']
    exact congrArg not (Heritage.isClass_map her)

/-- **The far ends of the associations of one definition** go along. -/
theorem farEnds_of_embeds (t : TypeId) : farEnds (s'.definitions.map Located.value) (f t) =
    (farEnds (s.definitions.map Located.value) t).map (Role.map f) := by
  unfold farEnds
  rw [getElem?_of_embeds h]
  cases hd : (s.definitions.map Located.value)[t.index]? with
  | none => rfl
  | some d =>
    rw [Option.elim_some, Option.elim_some, List.map_filterMap]
    obtain ⟨-, -, htargets⟩ := exists_ofSource_iff.1 ⟨g, hs⟩
    refine List.filterMap_congr (fun a ha => oppositeRole?_of_found
      (definedAs?_of_embeds h (nodup_names_of_definitions hs')) ?_)
    exact htargets d (List.mem_of_getElem? hd) a ha

theorem filter_holder_oppositeRoles_of_embeds (t target : TypeId) :
    ((oppositeRoles (s'.definitions.map Located.value)).filter (·.holder = f t)).filter (·.target = f target) =
      (((oppositeRoles (s.definitions.map Located.value)).filter (·.holder = t)).filter (·.target = target)).map
        (Role.map f) := by
  rw [List.filter_comm _ _ (oppositeRoles (s'.definitions.map Located.value)),
    List.filter_comm _ _ (oppositeRoles (s.definitions.map Located.value)), filter_target_oppositeRoles,
    filter_target_oppositeRoles, farEnds_of_embeds h hs hs']
  exact filter_map_of_mem (fun r _ => decide_eq_decide.2 h.injective.eq_iff)

theorem relabels_of_embeds : g.Relabels f g' where
  injective := h.injective
  parents_eq := parents_of_embeds h hs hs'
  isClass_eq := isClass_of_embeds h hs hs'
  isInterface_eq := isInterface_of_embeds h hs hs'
  roles_eq t target := by
    unfold roles
    rcases nodes_of_embeds h hs hs' t with ⟨hn, hn'⟩ | ⟨d, her, declared, hn, hn'⟩
    · rw [hn, hn']
      rfl
    · have hdeclared : (declared.map (Role.map f)).filter (·.target = f target) =
          (declared.filter (·.target = target)).map (Role.map f) :=
        filter_map_of_mem (fun r _ => decide_eq_decide.2 h.injective.eq_iff)
      rw [hn, hn', Option.elim_some, Option.elim_some]
      unfold node
      rw [List.filter_append, List.filter_append, List.map_append, hdeclared,
        filter_holder_oppositeRoles_of_embeds h hs hs']

theorem find?_of_embeds {name : String} {t : TypeId} (ht : g.find? name = some t) : g'.find? name = some (f t) := by
  obtain ⟨d, hd, hname⟩ := (find?_eq_some_iff hs).1 ht
  exact (find?_eq_some_iff hs').2 ⟨d, (h.definitions_eq t).trans hd, hname⟩

end Embeds

end Graph
end Accessors
