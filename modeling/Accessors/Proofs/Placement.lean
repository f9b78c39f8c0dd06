import Accessors.Proofs.WellFormed
import Accessors.Source.Grammar
import Mathlib.Data.List.Basic
/-!
# Places do not matter

Reading a text and looking up its names carry places along and never look at them.  `unplace` takes all places away; each
function on what has places gives the same without them, faults included (`Source.ofTokens_unplace`,
`Graph.ofSource_unplace`).
-/
namespace Accessors

/-! ## Without places -/

/-- The same value, not read from any text. -/
def Located.unplace {α : Type} (a : Located α) : Located α := .unplaced a.value

def Association.unplace (a : Association) : Association :=
  ⟨a.ownerBounds.unplace, a.ownerRole.map Located.unplace, a.direction, a.targetBounds.unplace, a.target.unplace,
    a.targetRole.map Located.unplace⟩

def Definition.unplace (d : Definition) : Definition :=
  ⟨d.kind, d.name.unplace, d.supertypes.map Located.unplace, d.associations.map fun a => .unplaced a.value.unplace⟩

def Source.unplace (s : Source) : Source :=
  ⟨s.namespaceName.map Located.unplace, s.definitions.map fun d => .unplaced d.value.unplace⟩

def Role.unplace (r : Role) : Role := { r with span := .zero }

def TypeNode.unplace (n : TypeNode) : TypeNode :=
  { n with roles := n.roles.map Role.unplace, span := .zero, nameSpan := .zero }

def Graph.unplace (g : Graph) : Graph := { g with types := g.types.map TypeNode.unplace }

/-- A result that `f` takes the places away from, or the fault without its place. -/
def bare {ε α β : Type} (f : α → β) : Except (Located ε) α → Except (Located ε) β
  | .ok a => .ok (f a)
  | .error e => .error e.unplace

section Bare

variable {ε α β α' β' : Type} {x : Except (Located ε) α} {x' : Except (Located ε) α'} {f : α → α'} {g : β → β'}

theorem bare_bind {k : α → Except (Located ε) β} {k' : α' → Except (Located ε) β'} (hx : x' = bare f x)
    (hk : ∀ a, x = .ok a → k' (f a) = bare g (k a)) : (x' >>= k') = bare g (x >>= k) := by
  subst hx
  cases x with
  | ok a => exact hk a rfl
  | error e => rfl

theorem bare_map {k : α → β} {k' : α' → β'} (hx : x' = bare f x) (hk : ∀ a, k' (f a) = g (k a)) :
    x'.map k' = bare g (x.map k) := by
  subst hx
  cases x with
  | ok a => exact congrArg Except.ok (hk a)
  | error e => rfl

theorem mapM_bare {k : α → Except (Located ε) β} {k' : α' → Except (Located ε) β'}
    (hk : ∀ a, k' (f a) = bare g (k a)) : ∀ l : List α, (l.map f).mapM k' = bare (List.map g) (l.mapM k)
  | [] => rfl
  | a :: l => by
    rw [List.map_cons, List.mapM_cons, List.mapM_cons]
    refine bare_bind (hk a) (fun b _ => bare_bind (mapM_bare hk l) (fun bs _ => rfl))

theorem foldlM_bare {k : β → α → Except (Located ε) β} {k' : β → α' → Except (Located ε) β}
    (hk : ∀ b a, k' b (f a) = bare id (k b a)) : ∀ (l : List α) (b : β), (l.map f).foldlM k' b = bare id (l.foldlM k b)
  | [], _ => rfl
  | a :: l, b => by
    rw [List.map_cons, List.foldlM_cons, List.foldlM_cons]
    exact bare_bind (hk b a) (fun c _ => foldlM_bare hk l c)

end Bare

/-! ## Reading -/

namespace Source

/-- What was taken off the front of some tokens, and the tokens behind it. -/
@[reducible] def taken {V W : Type} (f : V → W) (p : V × Tokens) : W × Tokens := (f p.1, p.2.map Located.unplace)

/-- What the first of some tokens is. -/
def lead (ts : Tokens) : Option Token := ts.head?.map Located.value

theorem lead_unplace (ts : Tokens) : lead (ts.map Located.unplace) = lead ts := by
  cases ts <;> rfl

theorem exists_of_lead {ts : Tokens} {t : Token} (h : lead ts = some t) : ∃ s rest, ts = ⟨t, s⟩ :: rest := by
  cases ts with
  | nil => cases h
  | cons u rest =>
    cases h
    exact ⟨u.span, rest, rfl⟩

theorem mismatch_unplace (fin : Span) (what : Expectation) (ts : Tokens) :
    mismatch .zero what (ts.map Located.unplace) = (mismatch fin what ts).unplace := by
  cases ts <;> rfl

theorem takeMark_unplace (fin : Span) (m : Mark) (ts : Tokens) :
    takeMark .zero m (ts.map Located.unplace) = bare (taken fun _ => .zero) (takeMark fin m ts) := by
  cases ts with
  | nil => rfl
  | cons t ts =>
    show (if t.value = .mark m then _ else _) = bare _ (if t.value = .mark m then _ else _)
    split <;> rfl

theorem takeName_unplace (fin : Span) (ts : Tokens) :
    takeName .zero (ts.map Located.unplace) = bare (taken Located.unplace) (takeName fin ts) := by
  rcases ts with _ | ⟨⟨_ | _ | _ | _, s⟩, ts⟩ <;> rfl

theorem takeNameIfAny_unplace (ts : Tokens) :
    takeNameIfAny (ts.map Located.unplace) = taken (Option.map Located.unplace) (takeNameIfAny ts) := by
  rcases ts with _ | ⟨⟨_ | _ | _ | _, s⟩, ts⟩ <;> rfl

theorem takeMoreNames_unplace (fin : Span) (m : Mark) : ∀ ts : Tokens,
    takeMoreNames .zero m (ts.map Located.unplace) = bare (taken (List.map Located.unplace)) (takeMoreNames fin m ts)
  | [] => rfl
  | ⟨.keyword _, _⟩ :: _ => rfl
  | ⟨.name _, _⟩ :: _ => rfl
  | ⟨.number _, _⟩ :: _ => rfl
  | ⟨.mark m', s⟩ :: ⟨.name text, s'⟩ :: ts => by
    show (if m' = m then (takeMoreNames .zero m (ts.map Located.unplace)).map _ else _) =
      bare _ (if m' = m then (takeMoreNames fin m ts).map _ else _)
    split
    · exact bare_map (takeMoreNames_unplace fin m ts) (fun _ => rfl)
    · rfl
  | [⟨.mark m', s⟩] => by
    show (if m' = m then _ else _) = bare _ (if m' = m then _ else _)
    split <;> rfl
  | ⟨.mark m', s⟩ :: ⟨.keyword _, _⟩ :: ts
  | ⟨.mark m', s⟩ :: ⟨.number _, _⟩ :: ts
  | ⟨.mark m', s⟩ :: ⟨.mark _, _⟩ :: ts => by
    show (if m' = m then _ else _) = bare _ (if m' = m then _ else _)
    split <;> rfl

theorem checkBounds_unplace (b : Bounds) (s : Span) (ts : Tokens) :
    checkBounds b .zero (ts.map Located.unplace) = bare (taken Located.unplace) (checkBounds b s ts) := by
  unfold checkBounds
  cases boundsFault? b <;> rfl

/-- Without dots behind it, a number is taken alone. -/
theorem takeBounds_exactly (fin : Span) {n : Nat} {s : Span} {ts : Tokens} (h : lead ts ≠ some (.mark .dots)) :
    takeBounds fin (⟨.number n, s⟩ :: ts) = checkBounds (.exactly n) s ts := by
  rw [takeBounds]
  · rintro _ _ _ rfl; exact h rfl
  · rintro _ _ _ _ rfl; exact h rfl
  · rintro _ _ rfl; exact h rfl

theorem takeBounds_unplace (fin : Span) (ts : Tokens) :
    takeBounds .zero (ts.map Located.unplace) = bare (taken Located.unplace) (takeBounds fin ts) := by
  rcases ts with _ | ⟨⟨_ | _ | n | m, s⟩, ts⟩
  case cons.number =>
    by_cases hdots : lead ts = some (.mark .dots)
    · obtain ⟨s', ts, rfl⟩ := exists_of_lead hdots
      rcases ts with _ | ⟨⟨_ | _ | n' | m, s''⟩, ts⟩
      case cons.number => exact checkBounds_unplace ⟨n, some n'⟩ (s.cover s'') ts
      case cons.mark => cases m <;> rfl
      all_goals rfl
    · rw [takeBounds_exactly fin hdots]
      refine (takeBounds_exactly .zero ?_).trans (checkBounds_unplace (.exactly n) s ts)
      rwa [lead_unplace]
  case cons.mark => cases m <;> rfl
  all_goals rfl

theorem takeDirection_unplace (fin : Span) (ts : Tokens) :
    takeDirection .zero (ts.map Located.unplace) = bare (taken id) (takeDirection fin ts) := by
  rcases ts with _ | ⟨⟨_ | _ | _ | m, s⟩, ts⟩
  case cons.mark => cases m <;> rfl
  all_goals rfl

theorem takeAssociation_unplace (fin : Span) (ts : Tokens) :
    takeAssociation .zero (ts.map Located.unplace) =
      bare (taken fun a => .unplaced a.value.unplace) (takeAssociation fin ts) := by
  unfold takeAssociation
  refine bare_bind (takeBounds_unplace fin ts) (fun ⟨_, ts⟩ _ => ?_)
  simp only [takeNameIfAny_unplace]
  refine bare_bind (takeDirection_unplace fin _) (fun ⟨_, ts⟩ _ => ?_)
  refine bare_bind (takeBounds_unplace fin ts) (fun ⟨_, ts⟩ _ => ?_)
  refine bare_bind (takeName_unplace fin ts) (fun ⟨_, ts⟩ _ => ?_)
  simp only [takeNameIfAny_unplace]
  exact bare_bind (takeMark_unplace fin .semicolon _) (fun ⟨_, ts⟩ _ => rfl)

theorem takeSupertypes_unplace (fin : Span) (ts : Tokens) :
    takeSupertypes .zero (ts.map Located.unplace) =
      bare (taken (List.map Located.unplace)) (takeSupertypes fin ts) := by
  unfold takeSupertypes
  refine bare_bind (takeName_unplace fin ts) (fun ⟨_, ts⟩ _ => ?_)
  refine bare_bind (takeMoreNames_unplace fin .comma ts) (fun ⟨_, ts⟩ _ => ?_)
  exact bare_bind (takeMark_unplace fin .semicolon ts) (fun ⟨_, ts⟩ _ => rfl)

theorem takeNamespace_unplace (fin start : Span) (ts : Tokens) :
    takeNamespace .zero .zero (ts.map Located.unplace) = bare (taken Located.unplace) (takeNamespace fin start ts) := by
  unfold takeNamespace
  refine bare_bind (takeName_unplace fin ts) (fun ⟨first, ts⟩ _ => ?_)
  refine bare_bind (takeMoreNames_unplace fin .dot ts) (fun ⟨more, ts⟩ _ => ?_)
  refine bare_bind (takeMark_unplace fin .semicolon ts) (fun ⟨_, ts⟩ _ => congrArg Except.ok ?_)
  have hvalues : (first.unplace :: more.map Located.unplace).map Located.value =
      (first :: more).map Located.value := by
    rw [← List.map_cons, List.map_map]
    rfl
  rw [List.getLast?_map, hvalues]
  cases more.getLast? <;> rfl

/-! ### Bodies and whole texts -/

def Body.unplace (b : Body) : Body :=
  ⟨b.supertypes.map Located.unplace, b.associations.map fun a => .unplaced a.value.unplace, .zero⟩

theorem startsBounds_unplace (ts : Tokens) : startsBounds (ts.map Located.unplace) = startsBounds ts := by
  rcases ts with _ | ⟨⟨_ | _ | _ | m, s⟩, ts⟩
  case cons.mark => cases m <;> rfl
  all_goals rfl

section Members

variable (fin : Span)

theorem takeBody_close (at_ : Span) (ts : Tokens) :
    takeBody fin (⟨.mark .closeBrace, at_⟩ :: ts) = .ok (⟨[], [], at_⟩, ts) := by
  rw [takeBody]

theorem takeBody_supertypes (at_ : Span) (ts : Tokens) : takeBody fin (⟨.keyword .isAWord, at_⟩ :: ts) =
    takeSupertypes fin ts >>= fun p =>
      (takeBody fin p.2).map fun q => ({ q.1 with supertypes := p.1 ++ q.1.supertypes }, q.2) := by
  rw [takeBody]
  split
  · rename_i h
    conv => rhs; rw [h]
    rfl
  · rename_i h
    conv => rhs; rw [h]
    rfl

theorem takeBody_association {ts : Tokens} (h : startsBounds ts = true) : takeBody fin ts =
    takeAssociation fin ts >>= fun p =>
      (takeBody fin p.2).map fun q => ({ q.1 with associations := p.1 :: q.1.associations }, q.2) := by
  rw [takeBody.eq_def]
  split
  · cases h
  · cases h
  · rw [if_pos h]
    split
    · rename_i he
      conv => rhs; rw [he]
      rfl
    · rename_i he
      conv => rhs; rw [he]
      rfl

theorem takeBody_else {ts : Tokens} (h : startsBounds ts = false) (hclose : lead ts ≠ some (.mark .closeBrace))
    (hword : lead ts ≠ some (.keyword .isAWord)) : takeBody fin ts = .error (mismatch fin .member ts) := by
  rw [takeBody.eq_def]
  split
  · exact absurd rfl hclose
  · exact absurd rfl hword
  · rw [if_neg (by rw [h]; exact Bool.false_ne_true)]

end Members

theorem takeBody_unplace (fin : Span) (ts : Tokens) :
    takeBody .zero (ts.map Located.unplace) = bare (taken Body.unplace) (takeBody fin ts) := by
  have hstarts := startsBounds_unplace ts
  by_cases hclose : lead ts = some (.mark .closeBrace)
  · obtain ⟨s, ts, rfl⟩ := exists_of_lead hclose
    rw [takeBody_close]
    exact takeBody_close .zero .zero _
  by_cases hword : lead ts = some (.keyword .isAWord)
  · obtain ⟨s, ts, rfl⟩ := exists_of_lead hword
    rw [takeBody_supertypes]
    refine (takeBody_supertypes .zero .zero (ts.map Located.unplace)).trans ?_
    refine bare_bind (takeSupertypes_unplace fin ts) (fun p hp => ?_)
    have := length_lt_of_takeSupertypes hp
    refine bare_map (takeBody_unplace fin p.2) (fun q => ?_)
    simp [taken, Body.unplace]
  cases hb : startsBounds ts with
  | true =>
    rw [takeBody_association fin hb, takeBody_association .zero (hstarts.trans hb)]
    refine bare_bind (takeAssociation_unplace fin ts) (fun p hp => ?_)
    have := length_lt_of_takeAssociation hp
    exact bare_map (takeBody_unplace fin p.2) (fun _ => rfl)
  | false =>
    rw [takeBody_else fin hb hclose hword, takeBody_else .zero (hstarts.trans hb) (by rwa [lead_unplace])
      (by rwa [lead_unplace])]
    exact congrArg Except.error (mismatch_unplace fin .member ts)
termination_by ts.length
decreasing_by
  · subst_vars; simp only [List.length_cons]; omega
  · omega

theorem takeDefinition_unplace (fin start : Span) (kind : DefinitionKind) (ts : Tokens) :
    takeDefinition .zero .zero kind (ts.map Located.unplace) =
      bare (taken fun d => .unplaced d.value.unplace) (takeDefinition fin start kind ts) := by
  unfold takeDefinition
  refine bare_bind (takeName_unplace fin ts) (fun ⟨_, ts⟩ _ => ?_)
  refine bare_bind (takeMark_unplace fin .openBrace ts) (fun ⟨_, ts⟩ _ => ?_)
  exact bare_bind (takeBody_unplace fin ts) (fun ⟨_, ts⟩ _ => rfl)

section Items

variable (fin : Span) (seen : Option (Located String)) (start : Span) (ts : Tokens)

theorem takeAll_ofNamespace : takeAll fin seen (⟨.keyword .namespaceWord, start⟩ :: ts) =
    takeNamespace fin start ts >>= fun p =>
      if seen.isSome then .error ⟨.secondNamespace, p.1.span⟩ else takeAll fin (some p.1) p.2 := by
  rw [takeAll]
  split
  · rename_i h
    conv => rhs; rw [h]
    rfl
  · rename_i h
    conv => rhs; rw [h]
    rfl

theorem takeAll_ofDefinition (kind : DefinitionKind) {k : Keyword} (h : definitionKind? k = some kind) :
    takeAll fin seen (⟨.keyword k, start⟩ :: ts) = takeDefinition fin start kind ts >>= fun p =>
      (takeAll fin seen p.2).map fun s => { s with definitions := p.1 :: s.definitions } := by
  rw [takeAll]
  · split
    · rename_i hk
      rw [h] at hk
      cases hk
    · rename_i hk
      rw [h] at hk
      cases hk
      split
      · rename_i he
        conv => rhs; rw [he]
        rfl
      · rename_i he
        conv => rhs; rw [he]
        rfl
  · rintro rfl
    cases h

theorem takeAll_else {ts : Tokens} {t : Token} (h : lead ts = some t)
    (hitem : ∀ k, t = .keyword k → k ≠ .namespaceWord ∧ definitionKind? k = none) :
    takeAll fin seen ts = .error (mismatch fin .definition ts) := by
  obtain ⟨s, ts, rfl⟩ := exists_of_lead h
  cases t with
  | keyword k =>
    obtain ⟨hword, hkind⟩ := hitem k rfl
    rw [takeAll]
    · split
      · rfl
      · rename_i hk
        rw [hkind] at hk
        cases hk
    · exact hword
  | name => rw [takeAll.eq_def]
  | number => rw [takeAll.eq_def]
  | mark => rw [takeAll.eq_def]

end Items

theorem takeAll_unplace (fin : Span) (seen : Option (Located String)) (ts : Tokens) :
    takeAll .zero (seen.map Located.unplace) (ts.map Located.unplace) = bare Source.unplace (takeAll fin seen ts) := by
  cases hlead : lead ts with
  | none =>
    cases ts with
    | nil => rw [List.map_nil, takeAll, takeAll]; rfl
    | cons t ts => cases hlead
  | some t =>
    by_cases hword : t = .keyword .namespaceWord
    · subst hword
      obtain ⟨s, ts, rfl⟩ := exists_of_lead hlead
      rw [takeAll_ofNamespace]
      refine (takeAll_ofNamespace .zero _ .zero (ts.map Located.unplace)).trans ?_
      refine bare_bind (takeNamespace_unplace fin s ts) (fun p hp => ?_)
      have := length_lt_of_takeNamespace hp
      cases seen with
      | some n => rfl
      | none => exact takeAll_unplace fin (some p.1) p.2
    by_cases hkind : ∃ k kind, t = .keyword k ∧ definitionKind? k = some kind
    · obtain ⟨k, kind, rfl, hkind⟩ := hkind
      obtain ⟨s, ts, rfl⟩ := exists_of_lead hlead
      rw [takeAll_ofDefinition fin seen s ts kind hkind]
      refine (takeAll_ofDefinition .zero _ .zero (ts.map Located.unplace) kind hkind).trans ?_
      refine bare_bind (takeDefinition_unplace fin s kind ts) (fun p hp => ?_)
      have := length_lt_of_takeDefinition hp
      exact bare_map (takeAll_unplace fin seen p.2) (fun _ => rfl)
    · have hitem : ∀ k, t = .keyword k → k ≠ .namespaceWord ∧ definitionKind? k = none := fun k hk =>
        ⟨fun hn => hword (hn ▸ hk), Option.eq_none_iff_forall_ne_some.2 (fun kind h => hkind ⟨k, kind, hk, h⟩)⟩
      rw [takeAll_else fin seen hlead hitem, takeAll_else .zero _ ((lead_unplace ts).trans hlead) hitem]
      exact congrArg Except.error (mismatch_unplace fin .definition ts)
termination_by ts.length
decreasing_by
  · subst_vars; simp only [List.length_cons]; omega
  · subst_vars; simp only [List.length_cons]; omega

theorem finish_unplace (ts : Tokens) : finish (ts.map Located.unplace) = .zero := by
  unfold finish
  rw [List.getLast?_map]
  cases ts.getLast? <;> rfl

/-- **Reading does not look at places.** -/
theorem ofTokens_unplace (ts : Tokens) : ofTokens (ts.map Located.unplace) = bare Source.unplace (ofTokens ts) := by
  unfold ofTokens
  rw [finish_unplace]
  exact takeAll_unplace (finish ts) none ts

end Source

/-! ## Looking up names -/

namespace Graph

variable (ds : List Definition)

theorem definedAs?_unplace (name : String) : definedAs? (ds.map Definition.unplace) name = definedAs? ds name := by
  unfold definedAs?
  rw [List.zipIdx_map, List.find?_map, Option.map_map]
  rfl

theorem checkDistinct_unplace : ∀ (ds : List Definition) (seen : List String),
    checkDistinct seen (ds.map Definition.unplace) = bare id (checkDistinct seen ds)
  | [], _ => rfl
  | d :: ds, seen => by
    show (if d.name.value ∈ seen then _ else checkDistinct (d.name.value :: seen) (ds.map Definition.unplace)) =
      bare id (if d.name.value ∈ seen then _ else _)
    split
    · rfl
    · exact checkDistinct_unplace ds _

theorem add_unplace (d : Definition) (l : Lineage) (parent : Located String) :
    l.add (ds.map Definition.unplace) d.unplace parent.unplace = bare id (l.add ds d parent) := by
  have hfound : definedAs? (ds.map Definition.unplace) parent.unplace.value = definedAs? ds parent.value :=
    definedAs?_unplace ds parent.value
  have hkind : d.unplace.kind = d.kind := rfl
  unfold Lineage.add
  rw [hfound, hkind]
  rcases definedAs? ds parent.value with _ | ⟨t, kind⟩
  · rfl
  · dsimp only
    split
    · rfl
    · cases d.kind <;> cases kind
      case ofClass.ofClass => cases l.superclass <;> rfl
      all_goals rfl

theorem heritage_unplace (d : Definition) :
    heritage (ds.map Definition.unplace) d.unplace = bare id (heritage ds d) :=
  bare_map (foldlM_bare (add_unplace ds d) d.supertypes ⟨none, []⟩) (fun _ => rfl)

theorem roleName_unplace (written : Option (Located String)) (target : String) (b : Bounds) :
    roleName (written.map Located.unplace) target b = roleName written target b := by
  cases written <;> rfl

section Roles

variable (t : TypeId) (d : Definition) (a : Located Association)

theorem declaredRole_unplace : declaredRole (ds.map Definition.unplace) t d.unplace (.unplaced a.value.unplace) =
    bare Role.unplace (declaredRole ds t d a) := by
  obtain ⟨a, s⟩ := a
  have hfound : definedAs? (ds.map Definition.unplace) (Located.unplaced a.unplace).value.target.value =
      definedAs? ds a.target.value := definedAs?_unplace ds _
  unfold declaredRole
  rw [hfound]
  rcases definedAs? ds a.target.value with _ | ⟨target, _⟩
  · rfl
  · exact congrArg (fun name => Except.ok (Role.mk name target _ _ t .declared .zero)) (roleName_unplace ..)

theorem oppositeRole?_unplace : oppositeRole? (ds.map Definition.unplace) t d.unplace (.unplaced a.value.unplace) =
    (oppositeRole? ds t d a).map Role.unplace := by
  obtain ⟨a, s⟩ := a
  have hfound : definedAs? (ds.map Definition.unplace) (Located.unplaced a.unplace).value.target.value =
      definedAs? ds a.target.value := definedAs?_unplace ds _
  unfold oppositeRole?
  rw [hfound]
  rcases definedAs? ds a.target.value with _ | ⟨holder, _ | _⟩
  · rfl
  · show (if a.direction.reachesOwner then _ else none) = Option.map _ (if a.direction.reachesOwner then _ else none)
    split
    · exact congrArg (fun name => some (Role.mk name t _ true holder (.oppositeEnd t) .zero)) (roleName_unplace ..)
    · rfl
  · rfl

end Roles

theorem oppositeRoles_unplace : oppositeRoles (ds.map Definition.unplace) = (oppositeRoles ds).map Role.unplace := by
  unfold oppositeRoles
  rw [List.zipIdx_map, List.flatMap_map, List.map_flatMap]
  refine List.flatMap_congr (fun ⟨d, i⟩ _ => ?_)
  show (d.associations.map _).filterMap _ = _
  rw [List.filterMap_map, List.map_filterMap]
  exact List.filterMap_congr (fun a _ => oppositeRole?_unplace ds ⟨i⟩ d a)

theorem nodes_unplace (definitions : List (Located Definition)) (heritages : List Heritage)
    (declared : List (List Role)) (opposite : List Role) :
    nodes (definitions.map fun d => .unplaced d.value.unplace) heritages (declared.map (List.map Role.unplace))
      (opposite.map Role.unplace) = (nodes definitions heritages declared opposite).map TypeNode.unplace := by
  unfold nodes
  rw [List.zip_map_right, List.zip_map, List.zipIdx_map, List.map_map, List.map_map]
  refine List.map_congr_left (fun ⟨⟨d, heritage, roles⟩, i⟩ _ => ?_)
  refine congrArg (fun roles => TypeNode.mk ⟨i⟩ d.value.name.value heritage roles .zero .zero) ?_
  show _ = (roles ++ opposite.filter (·.holder = ⟨i⟩)).map Role.unplace
  rw [List.map_append, List.filter_map]
  rfl

/-- **Looking up names does not look at places.** -/
theorem ofSource_unplace (s : Source) : ofSource s.unplace = bare Graph.unplace (ofSource s) := by
  have hds : s.unplace.definitions.map Located.value = (s.definitions.map Located.value).map Definition.unplace := by
    unfold Source.unplace
    rw [List.map_map, List.map_map]
    rfl
  unfold ofSource
  rw [hds]
  generalize s.definitions.map Located.value = ds
  refine bare_bind (checkDistinct_unplace ds []) (fun _ _ => ?_)
  refine bare_bind (mapM_bare (heritage_unplace ds) ds) (fun heritages _ => ?_)
  rw [List.zipIdx_map]
  refine bare_bind (mapM_bare (g := List.map Role.unplace) (fun ⟨d, i⟩ =>
    mapM_bare (declaredRole_unplace ds ⟨i⟩ d) d.associations) ds.zipIdx) (fun declared _ => ?_)
  rw [oppositeRoles_unplace, List.map_id]
  show Except.ok (Graph.mk (s.unplace.namespaceName.map Located.value) (nodes (s.definitions.map _) heritages _ _)) =
    Except.ok (Graph.mk (s.namespaceName.map Located.value) ((nodes s.definitions heritages declared _).map _))
  rw [nodes_unplace]
  unfold Source.unplace
  rw [Option.map_map]
  rfl

end Graph
end Accessors
