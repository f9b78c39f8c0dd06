import Accessors.Emission
import Accessors.Proofs.Collisions
import Accessors.Proofs.Embedding
/-!
# One more definition

A definition that is put behind all others leaves the other types as they were, with the reports on them and the files
for them, unless one of its associations reaches back to another class (`Graph.ofSource_appended`).

The old graph is in the new one with room made for the new type (`Graph.Within`): whatever the search, the merging or a
backend makes of a type there, it makes of it in the old graph.  The types that stay where they are are told by the old
graph being within itself the same way.
-/
namespace Accessors

variable {f : TypeId → TypeId}

def TypeNode.map (f : TypeId → TypeId) (n : TypeNode) : TypeNode :=
  { n with id := f n.id, heritage := n.heritage.map f, roles := n.roles.map (Role.map f) }

def TypeReport.map (hf : Function.Injective f) (r : TypeReport) : TypeReport :=
  ⟨f r.owner, r.methods?.map (List.map (Transfer.renaming hf).method), r.diagnostics⟩

/-- All types of `g` are types of `g'` as well, where `f` tells. -/
structure Graph.Within (f : TypeId → TypeId) (g g' : Graph) : Prop extends g.Relabels f g' where
  node?_eq : ∀ t, g'.node? (f t) = (g.node? t).map (TypeNode.map f)

namespace Graph.Within

open Resolution

variable {g g' : Graph} (h : g.Within f g')

include h

theorem name_eq (t : TypeId) : g'.name (f t) = g.name t := by
  unfold name
  rw [h.node?_eq]
  cases g.node? t <;> rfl

theorem roles_map (t : TypeId) : g'.roles (f t) = (g.roles t).map (Role.map f) := by
  unfold Graph.roles
  rw [h.node?_eq]
  cases g.node? t <;> rfl

/-! ## Resolving -/

theorem candidates_eq (o : TypeId) : candidates g' (g'.ancestry (f o)) =
    (candidates g (g.ancestry o)).map (Transfer.renaming h.injective).candidate := by
  have hpath : ∀ path : List TypeId, candidatesAt g' (path.map f) =
      (candidatesAt g path).map (Transfer.renaming h.injective).candidate := fun path => by
    unfold candidatesAt
    rw [List.getLast?_map]
    cases path.getLast? with
    | none => rfl
    | some t =>
      rw [Option.map_some, Option.elim_some, Option.elim_some, h.roles_map, List.map_map, List.map_map]
      rfl
  rw [Resolution.candidates_eq, Resolution.candidates_eq, ancestry_map h.injective h.parents_eq,
    List.map_flatMap]
  exact (List.flatMap_map ..).trans (List.flatMap_congr (fun path _ => hpath path))

theorem roles_resolve (o : TypeId) :
    (g'.resolve (f o)).roles = (g.resolve o).roles.map (Transfer.renaming h.injective).resolvedRole :=
  Transfer.roles_resolve (h.candidates_eq o) h.isContract_eq

/-! ## What is said -/

theorem describe_trail (t : Trail) : (t.map f).describe g' = t.describe g := by
  have hnames : (t.types.map f).map g'.name = t.types.map g.name := by
    rw [List.map_map]
    exact List.map_congr_left (fun u _ => h.name_eq u)
  cases t with
  | mk types origin =>
    unfold Trail.describe Trail.map
    rw [hnames]
    cases origin with
    | declared => rfl
    | oppositeEnd writtenIn =>
      dsimp only [Origin.map]
      rw [h.name_eq]

theorem describe_provenance (p : Provenance) :
    ((Transfer.renaming h.injective).provenance p).describe g' = p.describe g := by
  unfold Provenance.describe Transfer.provenance
  rw [List.map_map]
  exact List.map_congr_left (fun t _ => h.describe_trail t)

theorem describe_shape (s : Method.Shape) :
    ((Transfer.renaming h.injective).shape s).describe g' = s.describe g := by
  have hvalue : ∀ v, ((Transfer.renaming h.injective).valueShape v).describe g' = v.describe g := fun v => by
    cases v with
    | bool => rfl
    | one t => exact congrArg ("one " ++ ·) (h.name_eq t)
    | many t => exact congrArg ("many " ++ ·) (h.name_eq t)
  unfold Method.Shape.describe Transfer.shape
  rw [List.map_map, hvalue]
  exact congrArg (fun params => "(" ++ ", ".intercalate params ++ ") -> " ++ s.returns.describe g)
    (List.map_congr_left (fun v _ => hvalue v))

theorem side_candidate (c : Candidate) :
    Resolution.side g' ((Transfer.renaming h.injective).candidate c) = Resolution.side g c :=
  congrArg₂ Side.mk (h.describe_trail c.trail) rfl

theorem side_method (m : Method) : Conflict.side g' ((Transfer.renaming h.injective).method m) = Conflict.side g m :=
  congrArg₂ Side.mk (congrArg (", ".intercalate ·) (h.describe_provenance m.provenance)) (h.describe_shape m.shape)

theorem cycleDiagnostic_eq (o : TypeId) (c : Cycle) : cycleDiagnostic g' (f o) (c.map f) = cycleDiagnostic g o c := by
  have hnames : (c.map f).types.map g'.name = c.types.map g.name := by
    unfold Cycle.map
    rw [List.map_map]
    exact List.map_congr_left (fun t _ => h.name_eq t)
  have hspan : (g'.node? (c.map f).closedBy).map TypeNode.nameSpan = (g.node? c.closedBy).map TypeNode.nameSpan := by
    show (g'.node? (f c.closedBy)).map TypeNode.nameSpan = _
    rw [h.node?_eq]
    cases g.node? c.closedBy <;> rfl
  unfold cycleDiagnostic
  rw [h.name_eq, hnames, hspan]

theorem tieBreakDiagnostic_eq (o : TypeId) (t : TieBreak) :
    tieBreakDiagnostic g' (f o) ((Transfer.renaming h.injective).tieBreak t) = tieBreakDiagnostic g o t := by
  unfold tieBreakDiagnostic Transfer.tieBreak
  rw [h.name_eq, h.side_candidate, h.side_candidate]
  rfl

theorem diagnostics_resolve (o : TypeId) : (g'.resolve (f o)).diagnostics g' = (g.resolve o).diagnostics g := by
  unfold diagnostics
  rw [h.cycles_resolve, h.roles_resolve, List.map_map, List.flatMap_map]
  refine congrArg₂ (· ++ ·) (List.map_congr_left (fun c _ => h.cycleDiagnostic_eq o c)) ?_
  refine List.flatMap_congr (fun role _ => ?_)
  unfold Transfer.resolvedRole
  rw [List.map_map]
  exact List.map_congr_left (fun t _ => h.tieBreakDiagnostic_eq o t)

theorem conflictDiagnostic_eq (o : TypeId) (c : Conflict) :
    Conflict.diagnostic g' (f o) ⟨(Transfer.renaming h.injective).method c.first,
      (Transfer.renaming h.injective).method c.second⟩ = Conflict.diagnostic g o c := by
  unfold Conflict.diagnostic
  rw [h.name_eq, h.side_method, h.side_method]
  rfl

/-- **The report on a type** is the one on it in the greater graph. -/
theorem reportOn_eq (o : TypeId) : g'.reportOn (f o) = (g.reportOn o).map h.injective := by
  have hroles := h.roles_resolve o
  have hmethods := Transfer.methods?_reportOn (f := .renaming h.injective) hroles rfl
  have hdiagnostics : (g'.reportOn (f o)).diagnostics = (g.reportOn o).diagnostics := by
    rw [diagnostics_reportOn_eq, diagnostics_reportOn_eq, h.diagnostics_resolve,
      Transfer.merge_resolve (f := .renaming h.injective) hroles rfl, Transfer.conflicts_merged, List.map_map]
    exact congrArg _ (List.map_congr_left (fun c _ => h.conflictDiagnostic_eq o c))
  have hparts : ∀ r : TypeReport, r = ⟨r.owner, r.methods?, r.diagnostics⟩ := fun _ => rfl
  rw [hparts (g'.reportOn (f o)), hmethods, hdiagnostics]
  rfl

end Graph.Within

/-! ## The files for types that stay -/

section Rendering

variable {g g' : Graph} {n : TypeNode}

theorem Python.lines_congr (ms : List Method) (hparents : ∀ p ∈ n.heritage.parents, g'.name p = g.name p) :
    Python.lines g' n ms = Python.lines g n ms := by
  have himports : Python.imports g' n = Python.imports g n := by
    unfold Python.imports
    exact congrArg _ (List.map_congr_left (fun p hp => by rw [hparents p hp]))
  have hbases : Python.bases g' n = Python.bases g n := by
    unfold Python.bases
    split
    · rfl
    · rw [List.map_congr_left hparents]
  unfold Python.lines
  rw [himports, hbases]

theorem Java.declaration_congr (hparents : ∀ p ∈ n.heritage.parents, g'.name p = g.name p) :
    Java.declaration g' n = Java.declaration g n := by
  have hclause : ∀ (word : String) (types : List TypeId), (∀ p ∈ types, g'.name p = g.name p) →
      Java.clause g' word types = Java.clause g word types := fun word types h => by
    cases types with
    | nil => rfl
    | cons p types =>
      exact congrArg (fun names => " " ++ word ++ " " ++ ", ".intercalate names) (List.map_congr_left h)
  unfold Java.declaration
  cases hher : n.heritage with
  | ofClass superclass interfaces =>
    rw [hher] at hparents
    dsimp only
    rw [hclause _ _ (fun p hp => hparents p (List.mem_append_left _ hp)),
      hclause _ _ (fun p hp => hparents p (List.mem_append_right _ hp))]
  | ofInterface extended =>
    rw [hher] at hparents
    dsimp only
    rw [hclause _ extended hparents]

theorem Java.blocks_congr {ms : List Method} (htargets : ∀ m ∈ ms, g'.name m.target = g.name m.target) :
    Java.blocks g' n ms = Java.blocks g n ms := by
  have hvalue : ∀ m ∈ ms, Java.valueType g' m = Java.valueType g m := fun m hm => by
    unfold Java.valueType
    rw [htargets m hm]
  have hsignature : ∀ m ∈ ms, Java.signature g' m = Java.signature g m := fun m hm => by
    unfold Java.signature
    rw [htargets m hm, hvalue m hm]
  have hgetters : ∀ m ∈ Java.getters ms, m ∈ ms := fun m hm => (List.mem_filter.1 hm).1
  have hfields : Java.fieldBlock g' ms = Java.fieldBlock g ms := by
    unfold Java.fieldBlock
    split
    · rfl
    · exact congrArg (fun lines => [lines]) (List.map_congr_left (fun m hm => by rw [hvalue m (hgetters m hm)]))
  have hconstructor : Java.constructorBlock g' n ms = Java.constructorBlock g n ms := by
    unfold Java.constructorBlock
    split
    · rfl
    · refine congrArg (fun lines => [Java.member (n.name ++ "()") lines]) (List.map_congr_left (fun m hm => ?_))
      rw [htargets m (hgetters m (List.mem_filter.1 hm).1)]
  have habstract : (ms.map fun m => ["  " ++ Java.signature g' m ++ ";"]) =
      ms.map fun m => ["  " ++ Java.signature g m ++ ";"] :=
    List.map_congr_left (fun m hm => by rw [hsignature m hm])
  have hconcrete : (ms.map fun m => Java.member (Java.signature g' m) (Java.body m)) =
      ms.map fun m => Java.member (Java.signature g m) (Java.body m) :=
    List.map_congr_left (fun m hm => by rw [hsignature m hm])
  unfold Java.blocks
  rw [hfields, hconstructor, habstract, hconcrete]

/-- **A file reads of the graph** the namespace and the names of supertypes and targets. -/
theorem Backend.render_congr (b : Backend) {ms : List Method} (hnamespace : g'.namespaceName = g.namespaceName)
    (hparents : ∀ p ∈ n.heritage.parents, g'.name p = g.name p)
    (htargets : ∀ m ∈ ms, g'.name m.target = g.name m.target) : b.render g' n ms = b.render g n ms := by
  unfold render
  refine congrArg unlines ?_
  cases b with
  | python => exact Python.lines_congr ms hparents
  | java =>
    show Java.lines g' n ms = Java.lines g n ms
    unfold Java.lines
    rw [hnamespace, Java.declaration_congr hparents, Java.blocks_congr htargets]

end Rendering

/-! ## Types that stay where they are -/

namespace Graph.Within

variable {g g' : Graph} (h : g.Within f g') (h₀ : g.Within f g) {o : TypeId} (ho : f o = o)

include h h₀ ho

theorem node?_eq_of_fixed : g'.node? o = g.node? o := by
  have hn := h.node?_eq o
  have hn₀ := h₀.node?_eq o
  rw [ho] at hn hn₀
  rw [hn, ← hn₀]

theorem reportOn_eq_of_fixed : g'.reportOn o = g.reportOn o := by
  have hr := h.reportOn_eq o
  have hr₀ := h₀.reportOn_eq o
  rw [ho] at hr hr₀
  exact hr.trans hr₀.symm

omit h₀ ho in
theorem name_eq_of_fixed (ht : f o = o) : g'.name o = g.name o := by
  have hname := h.name_eq o
  rwa [ht] at hname

/-- **The file for a type that stays** is the same, and so are its collisions. -/
theorem emitReport_eq_of_fixed (hnamespace : g'.namespaceName = g.namespaceName) (b : Backend) :
    b.emitReport g' (g.reportOn o) = b.emitReport g (g.reportOn o) := by
  have howner : (g.reportOn o).owner = o := rfl
  unfold Backend.emitReport
  rw [howner, h.node?_eq_of_fixed h₀ ho]
  cases hms : (g.reportOn o).methods? with
  | none => rfl
  | some ms =>
    cases hn : g.node? o with
    | none => rfl
    | some n =>
      -- supertypes and targets stay too, as the type would not stay the same otherwise
      have hparents : n.heritage.parents.map f = n.heritage.parents := by
        have hedges := h₀.parents_eq o
        unfold parents at hedges
        rw [ho, hn] at hedges
        exact hedges.symm
      have hmethods : ms.map (Transfer.renaming h₀.injective).method = ms := by
        have hreport := congrArg TypeReport.methods? (h₀.reportOn_eq o)
        rw [ho, hms] at hreport
        have hmap : ((g.reportOn o).map h₀.injective).methods? =
            (g.reportOn o).methods?.map (List.map (Transfer.renaming h₀.injective).method) := rfl
        rw [hmap, hms] at hreport
        exact (Option.some.inj hreport).symm
      have hfixed := List.map_inj_left.1 (hparents.trans (List.map_id _).symm)
      have hfixed' := List.map_inj_left.1 (hmethods.trans (List.map_id _).symm)
      have hrender : b.render g' n ms = b.render g n ms :=
        b.render_congr hnamespace (fun p hp => h.name_eq_of_fixed (hfixed p hp))
          (fun m hm => h.name_eq_of_fixed (congrArg Method.target (hfixed' m hm)))
      show b.emitType g' n ms = b.emitType g n ms
      unfold Backend.emitType
      rw [hrender]

end Graph.Within

/-! ## Room for one more type -/

/-- Makes room for a type at the place `n`. -/
def roomAt (n : Nat) (t : TypeId) : TypeId := if t.index < n then t else ⟨t.index + 1⟩

theorem roomAt_of_lt {n : Nat} {t : TypeId} (h : t.index < n) : roomAt n t = t := if_pos h

theorem index_roomAt_ne (n : Nat) (t : TypeId) : (roomAt n t).index ≠ n := by
  unfold roomAt
  split <;> simp <;> omega

theorem roomAt_injective (n : Nat) : Function.Injective (roomAt n) := fun t u h => by
  unfold roomAt at h
  cases t
  cases u
  split at h <;> split at h <;> simp_all <;> omega

theorem Source.embeds_roomAt {s s' : Source} (h : s.definitions <+: s'.definitions)
    (hlen : s'.definitions.length ≤ s.definitions.length + 1) : s.Embeds (roomAt s.definitions.length) s' where
  injective := roomAt_injective _
  definitions_eq t := by
    unfold roomAt
    split
    · rename_i hlt
      obtain ⟨more, hmore⟩ := h
      rw [← hmore, List.getElem?_append_left hlt]
    · rename_i hout
      show s'.definitions[t.index + 1]? = _
      rw [List.getElem?_eq_none_iff.2 (by omega), List.getElem?_eq_none_iff.2 (by omega)]

namespace Graph

theorem types_report (g : Graph) : g.report.types = g.types.map fun n => g.reportOn n.id := List.map_map

section Within

variable {s s' : Source} {g g' : Graph} (h : s.Embeds f s') (hs : ofSource s = .ok g) (hs' : ofSource s' = .ok g')

include h hs hs'

/-- Where the old far ends are those of old associations, the old graph is within the new one. -/
theorem within_of_embeds (new : List Role) (hnew : ∀ r ∈ new, ∀ t, r.holder ≠ f t)
    (hopposite : oppositeRoles (s'.definitions.map Located.value) =
      (oppositeRoles (s.definitions.map Located.value)).map (Role.map f) ++ new) : g.Within f g' where
  toRelabels := relabels_of_embeds h hs hs'
  node?_eq t := by
    rcases nodes_of_embeds h hs hs' t with ⟨hn, hn'⟩ | ⟨d, her, declared, hn, hn'⟩
    · rw [hn, hn']
      rfl
    · have hold : ((oppositeRoles (s.definitions.map Located.value)).map (Role.map f)).filter (·.holder = f t) =
          ((oppositeRoles (s.definitions.map Located.value)).filter (·.holder = t)).map (Role.map f) :=
        filter_map_of_mem (fun r _ => decide_eq_decide.2 h.injective.eq_iff)
      have hnone : new.filter (·.holder = f t) = [] :=
        List.filter_eq_nil_iff.2 (fun r hr hholder => hnew r hr t (of_decide_eq_true hholder))
      rw [hn, hn', hopposite, Option.map_some]
      unfold node TypeNode.map
      rw [List.filter_append, hold, hnone, List.append_nil, List.map_append]

end Within

section Room

variable {s s' : Source} {g g' : Graph} (h : s.Embeds (roomAt s.definitions.length) s') (hs : ofSource s = .ok g)
  (hs' : ofSource s' = .ok g')

include h hs hs'

theorem flatMap_farEnds_of_embeds : ((List.range s.definitions.length).flatMap fun i =>
    farEnds (s'.definitions.map Located.value) ⟨i⟩) =
      (oppositeRoles (s.definitions.map Located.value)).map (Role.map (roomAt s.definitions.length)) := by
  rw [oppositeRoles_eq_flatMap, List.length_map, List.map_flatMap]
  refine List.flatMap_congr (fun i hi => ?_)
  have hends := farEnds_of_embeds h hs hs' ⟨i⟩
  rwa [roomAt_of_lt (List.mem_range.1 hi)] at hends

end Room

theorem within_self {s : Source} {g : Graph} (hs : ofSource s = .ok g) : g.Within (roomAt g.size) g := by
  -- the place that room is made for is behind all definitions, and nothing need stand there
  have h : s.Embeds (roomAt s.definitions.length) s := Source.embeds_roomAt List.prefix_rfl (Nat.le_succ _)
  have hopposite := flatMap_farEnds_of_embeds h hs hs
  rw [size_of_ofSource hs]
  refine within_of_embeds h hs hs [] (fun r hr => by cases hr) ?_
  rw [List.append_nil, ← hopposite, oppositeRoles_eq_flatMap, List.length_map]

section Appended

variable {s : Source} {t : Located Definition} {g g' : Graph} (hs : ofSource s = .ok g)
  (hs' : ofSource { s with definitions := s.definitions ++ [t] } = .ok g')
  (hback : ∀ a ∈ t.value.associations, a.value.direction.reachesOwner = true →
    a.value.target.value = t.value.name.value ∨ ∃ i, g'.find? a.value.target.value = some i ∧ g'.isInterface i = true)

include hs' hback

/-- The new definition gives far ends to its own type only. -/
theorem holder_of_mem_farEnds {r : Role}
    (hr : r ∈ farEnds ((s.definitions ++ [t]).map Located.value) ⟨s.definitions.length⟩) :
    r.holder = ⟨s.definitions.length⟩ := by
  have ht : (s.definitions ++ [t])[s.definitions.length]? = some t := List.getElem?_concat_length
  unfold farEnds at hr
  rw [List.getElem?_map, ht, Option.map_some, Option.elim_some] at hr
  obtain ⟨a, ha, hrole⟩ := List.mem_filterMap.1 hr
  have hreaches := reachesBack_of_oppositeRole hs' (w := ⟨⟨s.definitions.length⟩, t.value, a⟩) hrole
  obtain ⟨⟨hfind, hdirection⟩, hclass⟩ := reachesBack_iff.1 hreaches
  -- an interface is given no far end, so the association is one to the new type itself
  rcases hback a ha (Direction.reachesOwner_iff.2 hdirection) with hname | ⟨i, hi, hinterface⟩
  · have hself : g'.find? t.value.name.value = some ⟨s.definitions.length⟩ :=
      (find?_eq_some_iff hs').2 ⟨t, ht, rfl⟩
    rw [hname, hself] at hfind
    exact (Option.some.inj hfind).symm
  · rw [hi] at hfind
    exact absurd (Option.some.inj hfind) (ne_of_isClass_of_isInterface hclass hinterface)

include hs

theorem within_appended : g.Within (roomAt g.size) g' := by
  have h : s.Embeds (roomAt s.definitions.length) { s with definitions := s.definitions ++ [t] } :=
    Source.embeds_roomAt (List.prefix_append _ _) (by simp)
  have hold := flatMap_farEnds_of_embeds h hs hs'
  rw [size_of_ofSource hs]
  refine within_of_embeds h hs hs' (farEnds ((s.definitions ++ [t]).map Located.value) ⟨s.definitions.length⟩)
    (fun r hr u he => ?_) ?_
  · rw [holder_of_mem_farEnds hs' hback hr] at he
    exact index_roomAt_ne _ u (congrArg TypeId.index he).symm
  · rw [← hold, oppositeRoles_eq_flatMap, List.length_map, List.length_append, List.length_singleton, List.range_succ,
      List.flatMap_append, List.flatMap_singleton]

/-- The new graph has the old types, and one more behind them. -/
theorem exists_types_appended : ∃ n, g'.types = g.types ++ [n] := by
  have hsize := size_of_ofSource hs
  have hsize' := size_of_ofSource hs'
  rw [List.length_append, List.length_singleton, ← hsize] at hsize'
  have hwithin := within_appended hs hs' hback
  have htake : g'.types.take g.size = g.types := by
    refine List.ext_getElem? (fun i => ?_)
    rw [List.getElem?_take]
    split
    · rename_i hi
      exact hwithin.node?_eq_of_fixed (within_self hs) (o := ⟨i⟩) (roomAt_of_lt hi)
    · rename_i hi
      exact (List.getElem?_eq_none_iff.2 (Nat.not_lt.1 hi)).symm
  obtain ⟨n, hn⟩ : ∃ n, g'.types.drop g.size = [n] := by
    refine List.length_eq_one_iff.1 ?_
    have hlen : g'.types.length = g.size + 1 := hsize'
    rw [List.length_drop, hlen]
    omega
  exact ⟨n, by rw [← List.take_append_drop g.size g'.types, htake, hn]⟩

omit hback in
theorem namespaceName_appended : g'.namespaceName = g.namespaceName := by
  obtain ⟨-, _, _, -, -, rfl⟩ := ofSource_eq_ok.1 hs
  obtain ⟨-, _, _, -, -, rfl⟩ := ofSource_eq_ok.1 hs'
  rfl

end Appended

/-- **One more type leaves the others as they are.**  Where a definition is put behind those of a source, and none of its
associations reaches back to a class other than the new one, the new graph has the old types with one more behind them,
the report has the old reports with one more behind them, and each backend writes for the old types what it wrote, and
reports the same collisions. -/
theorem ofSource_appended {s : Source} {t : Located Definition} {g g' : Graph} (hs : ofSource s = .ok g)
    (hs' : ofSource { s with definitions := s.definitions ++ [t] } = .ok g')
    (hback : ∀ a ∈ t.value.associations, a.value.direction.reachesOwner = true →
      a.value.target.value = t.value.name.value ∨
        ∃ i, g'.find? a.value.target.value = some i ∧ g'.isInterface i = true) :
    g'.namespaceName = g.namespaceName ∧ (∃ n, g'.types = g.types ++ [n]) ∧
    ∃ r, g'.report.types = g.report.types ++ [r] ∧ ∀ b : Backend,
      (∀ x ∈ g.report.types, b.emitReport g' x = b.emitReport g x) ∧
      b.emit g' g'.report = (b.emit g g.report).append (b.emitReport g' r) := by
  have hwithin := within_appended hs hs' hback
  have hself := within_self hs
  have hnamespace := namespaceName_appended hs hs'
  obtain ⟨n, htypes⟩ := exists_types_appended hs hs' hback
  have hfixed : ∀ m ∈ g.types, roomAt g.size m.id = m.id := fun m hm => by
    obtain ⟨i, hi⟩ := List.mem_iff_getElem?.1 hm
    rw [(wellFormed_of_ofSource hs).id_eq i m hi]
    exact roomAt_of_lt (List.getElem?_eq_some_iff.1 hi).1
  have hreport : g'.report.types = g.report.types ++ [g'.reportOn n.id] := by
    have hold : g.types.map (fun m => g'.reportOn m.id) = g.types.map fun m => g.reportOn m.id :=
      List.map_congr_left (fun m hm => hwithin.reportOn_eq_of_fixed hself (hfixed m hm))
    rw [types_report, types_report, htypes, List.map_append, List.map_singleton, hold]
  have hemit : ∀ (b : Backend), ∀ x ∈ g.report.types, b.emitReport g' x = b.emitReport g x := fun b x hx => by
    rw [types_report] at hx
    obtain ⟨m, hm, rfl⟩ := List.mem_map.1 hx
    exact hwithin.emitReport_eq_of_fixed hself (hfixed m hm) hnamespace b
  refine ⟨hnamespace, ⟨n, htypes⟩, g'.reportOn n.id, hreport, fun b => ⟨hemit b, ?_⟩⟩
  have hfiles : (g.report.types.flatMap fun x => (b.emitReport g' x).files) =
      g.report.types.flatMap fun x => (b.emitReport g x).files :=
    List.flatMap_congr (fun x hx => by rw [hemit b x hx])
  have hdiagnostics : (g.report.types.flatMap fun x => (b.emitReport g' x).diagnostics) =
      g.report.types.flatMap fun x => (b.emitReport g x).diagnostics :=
    List.flatMap_congr (fun x hx => by rw [hemit b x hx])
  rw [Backend.emit_eq, Backend.emit_eq, hreport, List.flatMap_append, List.flatMap_append, List.flatMap_singleton,
    List.flatMap_singleton, hfiles, hdiagnostics]
  rfl

end Graph

/-! ## An example -/

/-- A class below a person, with one association to itself and one that an interface would reach it by. -/
def Definition.assistant : Definition :=
  (((draft .ofClass "Assistant").withSupertype "Person").withAssociation
      ⟨.unplaced (.exactly 1), some (.unplaced "lead"), .both, .unplaced .any, .unplaced "Assistant",
        some (.unplaced "team")⟩).withAssociation
    ⟨.unplaced .any, none, .backward, .unplaced (.exactly 1), .unplaced "Named", some (.unplaced "badge")⟩

def Graph.facultyWithAssistant : Graph :=
  (Graph.ofSource (Source.faculty.withDefinition .assistant)).toOption.getD ⟨none, []⟩

/-- The assistant's types and files come behind those of the faculty. -/
theorem Graph.ofSource_appended_assistant : Graph.ofSource .faculty = .ok .faculty ∧
    Graph.ofSource (Source.faculty.withDefinition .assistant) = .ok .facultyWithAssistant ∧
    (∃ n, facultyWithAssistant.types = faculty.types ++ [n] ∧ n.name = "Assistant") ∧
    ∃ r, facultyWithAssistant.report.types = faculty.report.types ++ [r] ∧
      (∀ b : Backend, b.emit facultyWithAssistant facultyWithAssistant.report =
        (b.emit faculty faculty.report).append (b.emitReport facultyWithAssistant r)) ∧
      (Backend.java.emitReport facultyWithAssistant r).files.map GeneratedFile.path = ["java/Assistant.java"] := by
  have hs : Graph.ofSource .faculty = .ok .faculty := rfl
  have hs' : Graph.ofSource (Source.faculty.withDefinition .assistant) = .ok .facultyWithAssistant := rfl
  have hback : ∀ a ∈ Definition.assistant.associations, a.value.direction.reachesOwner = true →
      a.value.target.value = Definition.assistant.name.value ∨
        ∃ i, facultyWithAssistant.find? a.value.target.value = some i ∧ facultyWithAssistant.isInterface i = true :=
    fun a ha _ => by
      rcases List.mem_cons.1 ha with rfl | ha
      · exact .inl rfl
      · rw [List.mem_singleton.1 ha]
        exact .inr ⟨⟨2⟩, rfl, rfl⟩
  obtain ⟨-, ⟨n, hn⟩, r, hr, hemit⟩ := ofSource_appended hs (t := .unplaced .assistant) hs' hback
  have hlast : facultyWithAssistant.types.getLast?.map TypeNode.name = some "Assistant" := rfl
  have hlast' : facultyWithAssistant.report.types.getLast?.map
      (fun r => (Backend.java.emitReport facultyWithAssistant r).files.map GeneratedFile.path) =
        some ["java/Assistant.java"] := rfl
  rw [hn, List.getLast?_concat, Option.map_some, Option.some.injEq] at hlast
  rw [hr, List.getLast?_concat, Option.map_some, Option.some.injEq] at hlast'
  exact ⟨hs, hs', ⟨n, hn, hlast⟩, r, hr, fun b => (hemit b).2, hlast'⟩

end Accessors
