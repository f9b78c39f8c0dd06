import Accessors.Proofs.Linking
import Accessors.Proofs.Preorder
import Accessors.Proofs.Transfer
import Mathlib.Logic.Equiv.Basic
/-!
# Classes that only inherit

A class without roles and interfaces of its own, with a superclass that does not reach it, is given what its superclass
is given, by trails that are one step longer (`reportOn_inherits`).

The search up from the class never comes back to it, so it is the search up from the superclass with the class put in
front of every path (`search_below`).  What the two searches find differs by a `Transfer`.
-/
namespace Accessors

/-! ## What is seen from below -/

/-- The same trail from one type further down. -/
def Trail.below (c : TypeId) (t : Trail) : Trail := { t with types := c :: t.types }

/-- The same provenance from one type further down. -/
def Provenance.below (c : TypeId) (p : Provenance) : Provenance :=
  ⟨p.trails.map (Trail.below c), p.discarded.map fun d => { d with trail := d.trail.below c }⟩

/-- The method as the subclass `c` has it from its superclass. -/
def Method.inherited (c : TypeId) (m : Method) : Method := { m with owner := c, provenance := m.provenance.below c }

/-- What a search has seen that comes to the start of another one over the type `c`. -/
def Ancestry.below (c : TypeId) (a : Ancestry) : Ancestry := ⟨[c] :: a.paths.map (c :: ·), a.cycles⟩

theorem Trail.below_injective (c : TypeId) : Function.Injective (Trail.below c) := fun t u h => by
  obtain ⟨htypes, horigin⟩ := Trail.mk.inj h
  exact congrArg₂ Trail.mk (List.cons.inj htypes).2 horigin

namespace Ancestry

theorem mem_entered_below {c t : TypeId} (h : t ≠ c) (a : Ancestry) : t ∈ (a.below c).entered ↔ t ∈ a.entered := by
  have hentered : (a.below c).entered = c :: (a.paths.map (c :: ·)).filterMap List.getLast? := rfl
  rw [hentered, entered, List.mem_cons, List.filterMap_map, List.mem_filterMap, List.mem_filterMap]
  constructor
  · rintro (rfl | ⟨path, hpath, hlast⟩)
    · exact absurd rfl h
    · rw [Function.comp_apply, List.getLast?_cons] at hlast
      cases hp : path.getLast? with
      | none =>
        rw [hp] at hlast
        exact absurd (Option.some.inj hlast).symm h
      | some u =>
        rw [hp] at hlast
        exact ⟨path, hpath, hp.trans hlast⟩
  · rintro ⟨path, hpath, hlast⟩
    refine .inr ⟨path, hpath, ?_⟩
    rw [Function.comp_apply, List.getLast?_cons, hlast]
    rfl

theorem enter_below (c : TypeId) (a : Ancestry) (path : List TypeId) :
    (a.below c).enter (c :: path) = (a.enter path).below c := by
  unfold enter below
  rw [List.map_append, List.map_singleton, List.cons_append]

end Ancestry

namespace Graph

open Resolution

variable {g : Graph} {c p : TypeId}

/-! ## The search from below -/

theorem follow_below {depth : Nat} {path : List TypeId} {t parent : TypeId} (h : parent ≠ c)
    (hsearch : ∀ a : Ancestry, g.search depth (c :: path) parent (a.below c) = (g.search depth path parent a).below c)
    (a : Ancestry) : g.follow depth (c :: path) t (a.below c) parent = (g.follow depth path t a parent).below c := by
  have hpath : parent ∈ c :: path ↔ parent ∈ path := by rw [List.mem_cons, or_iff_right h]
  have hround : (c :: path).dropWhile (· ≠ parent) = path.dropWhile (· ≠ parent) :=
    List.dropWhile_cons_of_pos (decide_eq_true h.symm)
  unfold follow
  by_cases hp : parent ∈ path
  · rw [if_pos hp, if_pos (hpath.2 hp), hround]
    rfl
  · rw [if_neg hp, if_neg (fun hm => hp (hpath.1 hm))]
    by_cases hin : parent ∈ a.entered
    · rw [if_pos hin, if_pos ((Ancestry.mem_entered_below h a).2 hin)]
    · rw [if_neg hin, if_neg (fun hm => hin ((Ancestry.mem_entered_below h a).1 hm)), hsearch a]

/-- **A search that cannot come to `c` does not see that it was reached over `c`.** -/
theorem search_below (g : Graph) (c : TypeId) : ∀ (depth : Nat) (above : List TypeId) (t : TypeId) (a : Ancestry),
    ¬ g.Reaches t c → g.search depth (c :: above) t (a.below c) = (g.search depth above t a).below c
  | 0, _, _, _, _ => rfl
  | depth + 1, above, t, a, ht => by
    rw [search_succ, search_succ, List.cons_append, Ancestry.enter_below]
    -- the two folds over the parents stay one below the other
    refine List.foldl_rel (r := fun b b' : Ancestry => b = b'.below c) rfl ?_
    rintro parent hparent _ b rfl
    have hfar : ¬ g.Reaches parent c := fun h => ht (.head hparent h)
    have hne : parent ≠ c := fun he => hfar (he ▸ .refl)
    exact follow_below hne (fun b => search_below g c depth _ parent b hfar) b

/-- The class `c` holds no roles, and the class `p` is its only supertype. -/
structure OnlyInherits (g : Graph) (c p : TypeId) : Prop where
  heritage : (g.node? c).map TypeNode.heritage = some (.ofClass (some p) [])
  roles : g.roles c = []

namespace OnlyInherits

theorem parents (h : g.OnlyInherits c p) : g.parents c = [p] := by
  obtain ⟨n, hn, hher⟩ := Option.map_eq_some_iff.1 h.heritage
  unfold Graph.parents
  rw [hn, Option.elim_some, hher]
  rfl

theorem isClass (h : g.OnlyInherits c p) : g.isClass c = true := by
  obtain ⟨n, hn, hher⟩ := Option.map_eq_some_iff.1 h.heritage
  unfold Graph.isClass
  rw [hn, Option.any_some, hher]
  rfl

/-- **Up from the class** there is what is up from its superclass, one step lower. -/
theorem ancestry_eq (h : g.OnlyInherits c p) (hp : ¬ g.Reaches p c) : g.ancestry c = (g.ancestry p).below c := by
  have hne : p ≠ c := fun he => hp (he ▸ .refl)
  have hpath : g.IsPath c p [c, p] := by
    have hedge : g.Edge c p := by
      unfold Edge
      rw [h.parents]
      exact List.mem_cons_self
    exact (IsPath.single g c).concat hedge (fun hm => hne (List.mem_singleton.1 hm))
  have hstart : (⟨[[c]], []⟩ : Ancestry) = Ancestry.below c ⟨[], []⟩ := rfl
  have hnew : p ∉ (⟨[[c]], []⟩ : Ancestry).entered := fun hm => hne (List.mem_singleton.1 hm)
  calc g.ancestry c
      = g.follow g.size [c] c ⟨[[c]], []⟩ p := by
        unfold ancestry
        rw [search_succ, h.parents]
        rfl
    _ = g.search g.size [c] p ⟨[[c]], []⟩ := by
        unfold follow
        rw [if_neg (fun hm => hne (List.mem_singleton.1 hm)), if_neg hnew]
    _ = g.search (g.size + 1) [c] p ⟨[[c]], []⟩ :=
        search_depth g c g.size (g.size + 1) [c] p _ hpath (Nat.lt_succ_self _) (Nat.lt_succ_of_lt (Nat.lt_succ_self _))
    _ = (g.ancestry p).below c := by
        rw [hstart, search_below g c (g.size + 1) [] p _ hp]
        rfl

end OnlyInherits

def inheriting (c p : TypeId) : Transfer where
  -- only `p` ever owns what is taken over; a swap sends it to `c` and stays injective
  owner := Equiv.swap p c
  type := id
  trail := Trail.below c
  owner_injective := (Equiv.swap p c).injective
  type_injective := Function.injective_id
  trail_injective := Trail.below_injective c

theorem method_inheriting {m : Method} (h : m.owner = p) : (inheriting c p).method m = m.inherited c := by
  have howner : (inheriting c p).owner m.owner = c := by
    rw [h]
    exact Equiv.swap_apply_left p c
  have hshape : (inheriting c p).shape m.shape = m.shape := by
    have hvalue : ∀ v, (inheriting c p).valueShape v = v := fun v => by cases v <;> rfl
    have hvalues : (inheriting c p).valueShape = id := funext hvalue
    unfold Transfer.shape
    rw [hvalues, List.map_id]
    rfl
  unfold Transfer.method Method.inherited
  rw [howner, hshape]
  rfl

section Found

variable (h : g.OnlyInherits c p) (hp : ¬ g.Reaches p c)

include h hp

theorem candidates_inheriting :
    candidates g (g.ancestry c) = (candidates g (g.ancestry p)).map (inheriting c p).candidate := by
  have hown : candidatesAt g [c] = [] := by
    unfold candidatesAt
    rw [List.getLast?_singleton, Option.elim_some, h.roles]
    rfl
  have hpaths : (g.ancestry c).paths = [c] :: (g.ancestry p).paths.map (c :: ·) := by
    rw [h.ancestry_eq hp]
    rfl
  rw [candidates_eq, candidates_eq, hpaths, List.flatMap_cons, hown, List.nil_append, List.flatMap_map, List.map_flatMap]
  refine List.flatMap_congr (fun path hpath => ?_)
  obtain ⟨t, ht⟩ := exists_isPath_of_mem_ancestry hpath
  have hlast : (c :: path).getLast? = some t := by
    rw [List.getLast?_cons, ht.ends]
    rfl
  rw [candidatesAt_of_isPath ht]
  unfold candidatesAt
  rw [hlast, Option.elim_some, List.map_map]
  refine List.map_congr_left (fun role _ => ?_)
  cases role with
  | mk name target bounds navigable holder origin span => cases origin <;> rfl

omit hp in
theorem isContract_inheriting (hpclass : g.isClass p = true) (x : Candidate) :
    isContract g c ((inheriting c p).candidate x) = isContract g p x := by
  have hinterface : g.isInterface c = false := by
    obtain ⟨n, hn, hher⟩ := Option.map_eq_some_iff.1 h.heritage
    unfold isInterface Heritage.isInterface
    rw [hn, Option.any_some, hher]
    rfl
  have hholder : ((inheriting c p).candidate x).trail.holder? = some (x.trail.types.getLast?.getD c) :=
    List.getLast?_cons
  unfold isContract
  rw [hholder, h.isClass, hpclass, Bool.true_and, Bool.true_and, Option.any_some]
  unfold Trail.holder?
  cases x.trail.types.getLast? with
  | none => exact hinterface
  | some t => rfl

theorem roles_inheriting (hpclass : g.isClass p = true) :
    (g.resolve c).roles = (g.resolve p).roles.map (inheriting c p).resolvedRole :=
  Transfer.roles_resolve (candidates_inheriting h hp) (isContract_inheriting h hpclass)

theorem topics_inheriting (hpclass : g.isClass p = true) :
    (g.reportOn c).diagnostics.map Diagnostic.topic = (g.reportOn p).diagnostics.map Diagnostic.topic := by
  have hroles := roles_inheriting h hp hpclass
  have hcycles : (g.resolve c).cycles = (g.resolve p).cycles := by
    show (g.ancestry c).cycles = (g.ancestry p).cycles
    rw [h.ancestry_eq hp]
    rfl
  rw [map_topic_reportOn, map_topic_reportOn, map_topic_diagnostics, map_topic_diagnostics, hcycles,
    Transfer.tieBreaks_resolve hroles, Transfer.methods_resolve hroles (Equiv.swap_apply_left p c).symm,
    Transfer.ofList_methods, Transfer.conflicted_merged]

/-- **The methods of the subclass** are those of its superclass. -/
theorem methods?_inheriting (hpclass : g.isClass p = true) :
    (g.reportOn c).methods? = (g.reportOn p).methods?.map (List.map (Method.inherited c)) := by
  rw [Transfer.methods?_reportOn (roles_inheriting h hp hpclass) (Equiv.swap_apply_left p c).symm]
  cases hms : (g.reportOn p).methods? with
  | none => rfl
  | some ms => exact congrArg some (List.map_congr_left (fun m hm => method_inheriting (owner_of_mem_methods? hms hm)))

end Found

theorem isClass_superclass {s : Source} (hs : ofSource s = .ok g) {interfaces : List TypeId}
    (h : (g.node? c).map TypeNode.heritage = some (.ofClass (some p) interfaces)) : g.isClass p = true := by
  obtain ⟨n, hn, hheritage⟩ := Option.map_eq_some_iff.1 h
  exact (kinds_of_ofClass hs hn hheritage).1 p rfl

/-- **Inheritance is transparent.**  Where a class holds no roles and has a superclass as its only supertype, and the
superclass does not reach it, the class fails just if the superclass does, and diagnostics of the same kinds are
reported of the same roles in the same order.  Its methods are those of the superclass, with the class as their owner
and in front of all trails. -/
theorem reportOn_inherits {s : Source} {g : Graph} (hs : ofSource s = .ok g) {c p : TypeId} (h : g.OnlyInherits c p)
    (hp : ¬ g.Reaches p c) :
    ((g.reportOn c).failed = true ↔ (g.reportOn p).failed = true) ∧
    (g.reportOn c).diagnostics.map Diagnostic.topic = (g.reportOn p).diagnostics.map Diagnostic.topic ∧
    (g.reportOn c).methods? = (g.reportOn p).methods?.map (List.map (Method.inherited c)) := by
  have hpclass := isClass_superclass hs h.heritage
  have hmethods := methods?_inheriting h hp hpclass
  refine ⟨?_, topics_inheriting h hp hpclass, hmethods⟩
  unfold TypeReport.failed
  rw [hmethods, Option.isNone_map]

end Graph

/-! ## An example -/

/-- A class that only inherits, below two classes that are above each other and disagree on a role. -/
def Source.substitute : Source :=
  (Source.empty.withDefinition ((Definition.draft .ofClass "Substitute").withSupertype "Captain")
    |>.withDefinition
      (((Definition.draft .ofClass "Captain").withSupertype "Player").withRole "clubs" "Club" ⟨0, some 1⟩)
    |>.withDefinition (((Definition.draft .ofClass "Player").withSupertype "Captain").withRole "clubs" "Club" .any)
    |>.withDefinition (Definition.draft .ofClass "Club"))

def Graph.substitute : Graph := (Graph.ofSource .substitute).toOption.getD ⟨none, []⟩

/-- The substitute is warned of as the captain is, and has the captain's getter by way of it. -/
theorem Graph.reportOn_inherits_substitute : Graph.ofSource .substitute = .ok .substitute ∧
    substitute.OnlyInherits ⟨0⟩ ⟨1⟩ ∧ ¬ substitute.Reaches ⟨1⟩ ⟨0⟩ ∧
    (substitute.reportOn ⟨0⟩).diagnostics.map Diagnostic.topic =
      [("cyclic-inheritance", none), ("multiplicity-tie-break", some "clubs")] ∧
    ∃ m, (substitute.reportOn ⟨0⟩).methods.head? = some m ∧ m.owner = ⟨0⟩ ∧ m.kind = .get ∧
      m.provenance = ⟨[⟨[⟨0⟩, ⟨1⟩], .declared⟩, ⟨[⟨0⟩, ⟨1⟩, ⟨2⟩], .declared⟩],
        [⟨⟨[⟨0⟩, ⟨1⟩, ⟨2⟩], .declared⟩, .any⟩]⟩ := by
  have hs : Graph.ofSource .substitute = .ok .substitute := rfl
  have h : substitute.OnlyInherits ⟨0⟩ ⟨1⟩ := ⟨rfl, rfl⟩
  have hp : ¬ substitute.Reaches ⟨1⟩ ⟨0⟩ := fun hr => by
    have hentered := mem_entered_ancestry.2 hr
    revert hentered
    decide
  obtain ⟨-, htopics, hmethods⟩ := reportOn_inherits hs h hp
  refine ⟨hs, h, hp, htopics.trans rfl, ?_⟩
  unfold TypeReport.methods
  rw [hmethods]
  exact ⟨_, rfl, rfl, rfl, rfl⟩

end Accessors
