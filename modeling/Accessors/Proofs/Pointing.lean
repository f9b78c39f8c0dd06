import Accessors.Proofs.Cycles
import Accessors.Proofs.ExitCodes
import Accessors.Proofs.Refusal
import Accessors.Proofs.Spans
/-!
# What faults and diagnostics point at

A fault of reading points at a token, at a few of them, or right behind the last one; a name that does not fit is pointed
at where it is written; and what is told of a graph points at a type's name or at an association.  So every place that a
text gives rise to lies in the text (`Graph.parse_points_within`).
-/
namespace Accessors

open Accessors.Span (InOrder)

/-! ## Faults of reading -/

/-- All of these tokens stand in a text of this many bytes. -/
def Tokens.Within (ts : Tokens) (size : Nat) : Prop := ∀ t ∈ ts, t.span.Within size

theorem Tokens.within_of_append {ts ts' : Tokens} {size : Nat} (h : Within (ts ++ ts') size) : ts'.Within size :=
  (List.forall_mem_append.1 h).2

namespace Source

/-- What is left behind a phrase is a part of the tokens that it was read from. -/
theorem Reads.within {P V : Type} {take : Tokens → Reading (V × Tokens)} {tokens : P → Tokens} {meaning : P → V}
    {ends : Tokens → Prop} (h : Reads take tokens meaning ends) {ts rest : Tokens} {v : V} {size : Nat}
    (hts : ts.Within size) (htake : take ts = .ok (v, rest)) : rest.Within size := by
  obtain ⟨p, rfl, -⟩ := h.sound htake
  exact Tokens.within_of_append hts

theorem within_takeNameIfAny {ts : Tokens} {size : Nat} (hts : ts.Within size) :
    (takeNameIfAny ts).2.Within size := reads_nameIfAny.within hts rfl

theorem map_eq_error {α β : Type} {x : Reading α} {g : α → β} {f : Located SyntaxFault} :
    x.map g = .error f ↔ x = .error f := by
  cases x <;> simp [Except.map]

theorem mem_tokens_of_mem_names {m : Mark} {p : NamesPhrase} {n : Located String} (h : n ∈ p.names) :
    n.map .name ∈ p.tokens m := by
  rcases List.mem_cons.1 h with rfl | h
  · exact List.mem_cons_self
  · obtain ⟨x, hx, rfl⟩ := List.mem_map.1 h
    refine List.mem_cons_of_mem _ (List.mem_append_left _ (List.mem_flatMap.2 ⟨x, hx, ?_⟩))
    exact List.mem_cons_of_mem _ List.mem_cons_self

/-- The name of a namespace stands where its word and its segments do. -/
theorem within_namespace {fin start : Span} {ts rest : Tokens} {name : Located String} {size : Nat}
    (hstart : start.Within size) (hts : ts.Within size) (h : takeNamespace fin start ts = .ok (name, rest)) :
    name.span.Within size := by
  obtain ⟨p, rfl, rfl⟩ := (reads_namespace fin start).sound h
  have hlast := mem_tokens_of_mem_names (m := .dot) (List.getLast_mem p.names_ne_nil)
  exact hstart.cover (hts _ (List.mem_append_left _ hlast))

section Faults

variable {fin : Span} {size : Nat} {ts : Tokens} {f : Located SyntaxFault} (hfin : fin.Within size) (hts : ts.Within size)

include hfin hts

theorem within_mismatch (what : Expectation) : (mismatch fin what ts).span.Within size := by
  cases ts with
  | nil => exact hfin
  | cons t ts => exact hts t List.mem_cons_self

theorem within_takeMark {m : Mark} (h : takeMark fin m ts = .error f) : f.span.Within size := by
  cases ts with
  | nil =>
    cases h
    exact hfin
  | cons t ts =>
    simp only [takeMark] at h
    split at h
    · cases h
    · cases h
      exact hts t List.mem_cons_self

theorem within_takeName (h : takeName fin ts = .error f) : f.span.Within size := by
  unfold takeName at h
  split at h
  · cases h
  · cases h
    exact within_mismatch hfin hts .name

theorem within_takeMoreNames {m : Mark} (h : takeMoreNames fin m ts = .error f) : f.span.Within size := by
  fun_induction takeMoreNames fin m ts with
  | case1 at_ text s more ih =>
    have hmore : Tokens.Within more size := (List.forall_mem_cons.1 (List.forall_mem_cons.1 hts).2).2
    exact ih hmore (map_eq_error.1 h)
  | case3 at_ more =>
    cases h
    exact within_mismatch hfin (List.forall_mem_cons.1 hts).2 .name
  | _ => cases h

theorem within_takeBounds (h : takeBounds fin ts = .error f) : f.span.Within size := by
  have hcheck : ∀ {b : Bounds} {span : Span} {rest : Tokens}, span.Within size →
      checkBounds b span rest = .error f → f.span.Within size := by
    intro b span rest hspan h
    unfold checkBounds at h
    split at h
    · cases h
    · cases h
      exact hspan
  unfold takeBounds at h
  split at h
  · cases h
  · cases h
  · rename_i lower first dots upper last rest
    obtain ⟨hfirst, hbehind⟩ := List.forall_mem_cons.1 hts
    have hlast := (List.forall_mem_cons.1 (List.forall_mem_cons.1 hbehind).2).1
    exact hcheck (hfirst.cover hlast) h
  · cases h
    exact within_mismatch hfin (List.forall_mem_cons.1 (List.forall_mem_cons.1 hts).2).2 .upperBound
  · exact hcheck (List.forall_mem_cons.1 hts).1 h
  · cases h
    exact within_mismatch hfin hts .multiplicity

theorem within_takeDirection (h : takeDirection fin ts = .error f) : f.span.Within size := by
  unfold takeDirection at h
  split at h
  · cases h
  · cases h
  · cases h
  · cases h
    exact within_mismatch hfin hts .association

theorem within_takeAssociation (h : takeAssociation fin ts = .error f) : f.span.Within size := by
  simp only [takeAssociation, except_bind_eq_error] at h
  rcases h with h | ⟨p₁, h₁, h | ⟨p₂, h₂, h | ⟨p₃, h₃, h | ⟨p₄, h₄, h | ⟨p₅, h₅, h⟩⟩⟩⟩⟩
  · exact within_takeBounds hfin hts h
  all_goals have hrole := within_takeNameIfAny ((reads_bounds fin).within hts h₁)
  · exact within_takeDirection hfin hrole h
  all_goals have hdirection := (reads_direction fin).within hrole h₂
  · exact within_takeBounds hfin hdirection h
  all_goals have hbounds := (reads_bounds fin).within hdirection h₃
  · exact within_takeName hfin hbounds h
  all_goals have htarget := within_takeNameIfAny ((reads_name fin).within hbounds h₄)
  · exact within_takeMark hfin htarget h
  · cases h

/-- Names with a mark between them and a semicolon behind. -/
theorem within_takeNames {m : Mark} {V : Type} (say : Located String → List (Located String) → V)
    (h : (takeName fin ts >>= fun p => takeMoreNames fin m p.2 >>= fun q => takeMark fin .semicolon q.2 >>= fun r =>
      pure (say p.1 q.1, r.2) : Reading (V × Tokens)) = .error f) : f.span.Within size := by
  simp only [except_bind_eq_error] at h
  rcases h with h | ⟨p, hp, h | ⟨q, hq, h | ⟨r, hr, h⟩⟩⟩
  · exact within_takeName hfin hts h
  all_goals have hfirst := (reads_name fin).within hts hp
  · exact within_takeMoreNames hfin hfirst h
  all_goals have hmore := (reads_moreNames fin m).within hfirst hq
  · exact within_takeMark hfin hmore h
  · cases h

theorem within_takeSupertypes (h : takeSupertypes fin ts = .error f) : f.span.Within size :=
  within_takeNames hfin hts (· :: ·) h

theorem within_takeNamespace {start : Span} (h : takeNamespace fin start ts = .error f) : f.span.Within size := by
  let say (first : Located String) (more : List (Located String)) : Located String :=
    ⟨".".intercalate ((first :: more).map Located.value), start.cover (more.getLast?.getD first).span⟩
  exact within_takeNames hfin hts say h

theorem within_takeBody (h : takeBody fin ts = .error f) : f.span.Within size := by
  fun_induction takeBody fin ts with
  | case1 => cases h
  | case2 word ts e hnames =>
    cases h
    exact within_takeSupertypes hfin (List.forall_mem_cons.1 hts).2 hnames
  | case3 word ts names more hnames _ ih =>
    have hmore := (reads_supertypes fin).within (List.forall_mem_cons.1 hts).2 hnames
    exact ih hmore (map_eq_error.1 h)
  | case4 ts _ _ _ e ha =>
    cases h
    exact within_takeAssociation hfin hts ha
  | case5 ts _ _ _ a more ha _ ih =>
    have hmore := (reads_association fin).within hts ha
    exact ih hmore (map_eq_error.1 h)
  | case6 =>
    cases h
    exact within_mismatch hfin hts .member

theorem within_takeDefinition {start : Span} {kind : DefinitionKind} (h : takeDefinition fin start kind ts = .error f) :
    f.span.Within size := by
  simp only [takeDefinition, except_bind_eq_error] at h
  rcases h with h | ⟨p₁, h₁, h | ⟨p₂, h₂, h | ⟨p₃, h₃, h⟩⟩⟩
  · exact within_takeName hfin hts h
  all_goals have hname := (reads_name fin).within hts h₁
  · exact within_takeMark hfin hname h
  all_goals have hbrace := (reads_mark fin .openBrace).within hname h₂
  · exact within_takeBody hfin hbrace h
  · cases h

theorem within_takeAll {seen : Option (Located String)} (h : takeAll fin seen ts = .error f) : f.span.Within size := by
  fun_induction takeAll fin seen ts with
  | case1 => cases h
  | case2 seen start more e hname =>
    cases h
    exact within_takeNamespace hfin (List.forall_mem_cons.1 hts).2 hname
  | case3 seen start more name rest hname _ hseen =>
    cases h
    obtain ⟨hstart, hmore⟩ := List.forall_mem_cons.1 hts
    exact within_namespace hstart hmore hname
  | case4 seen start more name rest hname _ hseen ih =>
    exact ih ((reads_namespace fin start).within (List.forall_mem_cons.1 hts).2 hname) h
  | case5 =>
    cases h
    exact within_mismatch hfin hts .definition
  | case6 seen k start more hk kind hkind e hd =>
    cases h
    exact within_takeDefinition hfin (List.forall_mem_cons.1 hts).2 hd
  | case7 seen k start more hk kind hkind d rest hd _ ih =>
    have hrest := (reads_definition fin start kind).within (List.forall_mem_cons.1 hts).2 hd
    exact ih hrest (map_eq_error.1 h)
  | case8 =>
    cases h
    exact within_mismatch hfin hts .definition

end Faults

/-- **A fault of reading points into the text.** -/
theorem within_ofTokens {ts : Tokens} {size : Nat} {f : Located SyntaxFault} (hts : ts.Within size)
    (h : ofTokens ts = .error f) : f.span.Within size := by
  refine within_takeAll ?_ hts h
  unfold finish
  cases hlast : ts.getLast? with
  | none => exact ⟨Nat.le_refl _, Nat.zero_le _⟩
  | some t => exact ⟨Nat.le_refl _, (hts t (List.mem_of_getLast? hlast)).2⟩

end Source

theorem Tokens.within_of_inOrder {ts : Tokens} {size : Nat} (h : InOrder 0 ts.spans size) : ts.Within size :=
  fun t ht => h.all_within (Nat.le_refl size) t.span (List.mem_map_of_mem ht)

/-- **A fault of taking a text apart points into it.** -/
theorem Token.within_lex {text : String} {f : Located SyntaxFault} (h : Token.lex text = .error f) :
    f.span.Within text.utf8ByteSize := by
  obtain ⟨before, word, after, ts, htext, -, -, hspan⟩ := Token.lexFrom_eq_error_iff.1 h
  rw [hspan, ← byteWidth_toList, htext, byteWidth_append, byteWidth_append, Nat.zero_add]
  unfold Span.Within
  dsimp only
  omega

theorem Source.within_parse {text : String} {f : Located SyntaxFault} (h : Source.parse text = .error f) :
    f.span.Within text.utf8ByteSize := by
  unfold Source.parse at h
  rcases except_bind_eq_error.1 h with h | ⟨ts, hts, h⟩
  · exact Token.within_lex h
  · exact within_ofTokens (Tokens.within_of_inOrder (Token.inOrder_of_lex hts)) h

theorem Source.nested_of_parse {text : String} {s : Source} (h : Source.parse text = .ok s) :
    s.Nested text.utf8ByteSize := by
  obtain ⟨ts, hts, hs⟩ := except_bind_eq_ok.1 h
  exact nested_of_ofTokens (Token.inOrder_of_lex hts) hs

/-! ## Names that do not fit -/

namespace Source

variable {s : Source} {d : Located Definition}

theorem spans_subset_of_mem (hd : d ∈ s.definitions) : Definition.spans d ⊆ s.spans :=
  fun _ hx => List.mem_append_right _ (List.mem_flatMap.2 ⟨d, hd, hx⟩)

theorem span_mem_spans (hd : d ∈ s.definitions) : d.span ∈ s.spans := spans_subset_of_mem hd List.mem_cons_self

theorem nameSpan_mem_spans (hd : d ∈ s.definitions) : d.value.name.span ∈ s.spans :=
  spans_subset_of_mem hd (List.mem_cons_of_mem _ List.mem_cons_self)

theorem supertype_mem_spans (hd : d ∈ s.definitions) {p : Located String} (hp : p ∈ d.value.supertypes) :
    p.span ∈ s.spans :=
  spans_subset_of_mem hd (List.mem_cons_of_mem _ (List.mem_cons_of_mem _
    (List.mem_append_left _ (List.mem_map_of_mem hp))))

theorem association_mem_spans (hd : d ∈ s.definitions) {a : Located Association} (ha : a ∈ d.value.associations) :
    a.span :: a.value.spans ⊆ s.spans := fun _ hx =>
  spans_subset_of_mem hd (List.mem_cons_of_mem _ (List.mem_cons_of_mem _
    (List.mem_append_right _ (List.mem_flatMap.2 ⟨a, ha, hx⟩))))

/-- **A name that does not fit is pointed at where it is written.** -/
theorem Misnamed.span_mem {f : Located ModelFault} (h : s.Misnamed f) : f.span ∈ s.spans := by
  cases h with
  | duplicateType hd hseen => exact nameSpan_mem_spans (hd ▸ List.mem_append_right _ List.mem_cons_self)
  | unknownSupertype hd hp hunknown => exact supertype_mem_spans hd hp
  | repeatedSupertype hd hp hseen => exact supertype_mem_spans hd (hp ▸ List.mem_append_right _ List.mem_cons_self)
  | secondSuperclass hd hkind hp hfirst hne hclass hclass' =>
    exact supertype_mem_spans hd (hp ▸ List.mem_append_right _ List.mem_cons_self)
  | classUnderInterface hd hkind hp hclass => exact supertype_mem_spans hd hp
  | @unknownTarget d a hd ha hunknown =>
    have htarget : a.value.target.span ∈ a.value.spans :=
      List.mem_cons_of_mem _ (List.mem_append_right _ (List.mem_cons_of_mem _ List.mem_cons_self))
    exact association_mem_spans hd ha (List.mem_cons_of_mem _ htarget)

end Source

/-! ## Graphs -/

namespace Graph

/-- Every place that a graph tells of. -/
def spans (g : Graph) : List Span := g.types.flatMap fun n => n.span :: n.nameSpan :: n.roles.map Role.span

theorem span_of_declaredRole {ds : List Definition} {t : TypeId} {d : Definition} {a : Located Association} {r : Role}
    (h : declaredRole ds t d a = .ok r) : r.span = a.span := by
  unfold declaredRole at h
  split at h
  · cases h
  · cases h
    rfl

theorem span_of_oppositeRole? {ds : List Definition} {t : TypeId} {d : Definition} {a : Located Association} {r : Role}
    (h : oppositeRole? ds t d a = some r) : r.span = a.span := by
  unfold oppositeRole? at h
  split at h
  · split at h
    · cases h
      rfl
    · cases h
  · cases h

/-- **A graph tells only of places that its source tells of**: a type stands where its definition does, and a role where
its association does, at either end. -/
theorem spans_subset_of_ofSource {s : Source} {g : Graph} (h : ofSource s = .ok g) : g.spans ⊆ s.spans := by
  intro x hx
  obtain ⟨n, hn, hx⟩ := List.mem_flatMap.1 hx
  obtain ⟨i, hi⟩ := List.mem_iff_getElem?.1 hn
  have hlt : i < s.definitions.length := size_of_ofSource h ▸ (List.getElem?_eq_some_iff.1 hi).1
  have hd := List.getElem_mem hlt
  obtain ⟨her, declared, -, hdeclared, hnode⟩ := exists_node_of_ofSource h (List.getElem?_eq_getElem hlt)
  rw [hi, Option.some.injEq] at hnode
  subst hnode
  rcases List.mem_cons.1 hx with rfl | hx
  · exact Source.span_mem_spans hd
  rcases List.mem_cons.1 hx with rfl | hx
  · exact Source.nameSpan_mem_spans hd
  obtain ⟨r, hr, rfl⟩ := List.mem_map.1 hx
  rcases List.mem_append.1 hr with hr | hr
  · obtain ⟨k, hk⟩ := List.mem_iff_getElem?.1 hr
    obtain ⟨a, ha, hrole⟩ := getElem?_of_forall₂ (forall₂_of_mapM_eq_ok _ hdeclared) hk
    rw [span_of_declaredRole hrole]
    exact Source.association_mem_spans hd (List.mem_of_getElem? ha) List.mem_cons_self
  · obtain ⟨⟨d, k⟩, hd, hrole⟩ := List.mem_flatMap.1 (List.mem_filter.1 hr).1
    obtain ⟨a, ha, hrole⟩ := List.mem_filterMap.1 hrole
    obtain ⟨located, hlocated, rfl⟩ := List.mem_map.1 (List.mem_of_getElem? (List.mem_zipIdx_iff_getElem?.1 hd))
    rw [span_of_oppositeRole? hrole]
    exact Source.association_mem_spans hlocated ha List.mem_cons_self

/-! ## Diagnostics -/

variable {g : Graph} {o : TypeId}

theorem nameSpan_mem_spans {t : TypeId} {n : TypeNode} (h : g.node? t = some n) : n.nameSpan ∈ g.spans :=
  List.mem_flatMap.2 ⟨n, List.mem_of_getElem? h, List.mem_cons_of_mem _ List.mem_cons_self⟩

theorem roleSpan_mem_spans {t : TypeId} {r : Role} (h : r ∈ g.roles t) : r.span ∈ g.spans := by
  obtain ⟨n, hn, hr⟩ := mem_roles.1 h
  exact List.mem_flatMap.2 ⟨n, List.mem_of_getElem? hn,
    List.mem_cons_of_mem _ (List.mem_cons_of_mem _ (List.mem_map_of_mem hr))⟩

theorem candidateSpan_mem_spans {c : Candidate} (h : c ∈ Resolution.candidates g (g.ancestry o)) :
    c.role.span ∈ g.spans := by
  obtain ⟨t, -, -, -, hrole, -⟩ := Resolution.mem_candidates h
  exact roleSpan_mem_spans hrole

theorem declarationSpan_mem_spans {resolved : ResolvedRole} (h : resolved ∈ (g.resolve o).roles) {d : Declaration}
    (hd : d ∈ resolved.declarations) : d.role.span ∈ g.spans := by
  obtain ⟨c, hc, hrole, -⟩ := Resolution.mem_declarations_resolve h hd
  exact hrole ▸ candidateSpan_mem_spans hc

theorem methodSpan_mem_spans {m : Method} (h : m ∈ (g.resolve o).methods) : m.span ∈ g.spans := by
  obtain ⟨resolved, hresolved, h⟩ := List.mem_flatMap.1 h
  obtain ⟨d, hd, h⟩ := List.mem_flatMap.1 h
  obtain ⟨kind, -, rfl⟩ := List.mem_map.1 h
  exact declarationSpan_mem_spans hresolved hd

theorem reportedSpan_mem_spans {ms : List Method} (h : (g.reportOn o).methods? = some ms) {m : Method} (hm : m ∈ ms) :
    m.span ∈ g.spans := by
  rw [methods?_reportOn (not_disputed_of_methods? h), Option.some.injEq] at h
  subst h
  obtain ⟨name, -, hm⟩ := List.mem_flatMap.1 hm
  cases hsame : (g.resolve o).navigable.filter (fun d => d.role.name = name) with
  | nil =>
    rw [hsame] at hm
    cases hm
  | cons d ds =>
    rw [hsame] at hm
    obtain ⟨kind, -, rfl⟩ := List.mem_map.1 hm
    have hd : d ∈ (g.resolve o).navigable := (List.mem_filter.1 (hsame ▸ List.mem_cons_self)).1
    obtain ⟨⟨resolved, hresolved, hdecl⟩, -⟩ := Resolution.mem_navigable.1 hd
    exact declarationSpan_mem_spans hresolved hdecl

/-- **What is reported of a graph points into it**: a cycle at the name of the type that closes it, everything else at the
association that one of the roles in question stands in. -/
theorem span_of_mem_diagnostics_report {d : Diagnostic} (h : d ∈ g.report.diagnostics) :
    ∃ x ∈ g.spans, d.span = some x := by
  rw [diagnostics_report] at h
  obtain ⟨t, -, h⟩ := List.mem_flatMap.1 h
  rw [diagnostics_reportOn_eq] at h
  rcases List.mem_append.1 h with h | h
  · rcases List.mem_append.1 h with h | h
    · obtain ⟨c, hc, rfl⟩ := List.mem_map.1 h
      obtain ⟨path, -, t', parent, -, hedge, -, rfl⟩ := mem_cycles_ancestry.1 hc
      obtain ⟨n, hn, -⟩ := mem_parents.1 hedge
      exact ⟨n.nameSpan, nameSpan_mem_spans hn, congrArg (Option.map TypeNode.nameSpan) hn⟩
    · obtain ⟨resolved, hresolved, h⟩ := List.mem_flatMap.1 h
      obtain ⟨tie, htie, rfl⟩ := List.mem_map.1 h
      rw [Resolution.resolve_roles] at hresolved
      obtain ⟨⟨name, target⟩, -, rfl⟩ := List.mem_map.1 hresolved
      have hlost := (List.mem_filter.1 (Resolution.mem_tieBreaks_resolveRole htie).2).1
      exact ⟨_, candidateSpan_mem_spans (Resolution.mem_group.1 hlost).1, rfl⟩
  · obtain ⟨c, hc, rfl⟩ := List.mem_map.1 h
    obtain ⟨before, after, hsplit, -⟩ := Method.Merged.exists_of_mem_conflicts hc
    exact ⟨_, methodSpan_mem_spans (hsplit ▸ List.mem_append_right _ List.mem_cons_self), rfl⟩

theorem span_of_mem_diagnostics_emit {b : Backend} {d : Diagnostic} (h : d ∈ (b.emit g g.report).diagnostics) :
    ∃ x ∈ g.spans, d.span = some x := by
  rw [Backend.diagnostics_emit] at h
  obtain ⟨t, -, h⟩ := List.mem_flatMap.1 h
  unfold Backend.emitReport at h
  split at h
  · rename_i ms n hms hn
    unfold Backend.emitType at h
    split at h
    · cases h
    · obtain ⟨c, hc, rfl⟩ := List.mem_map.1 h
      have hsecond := List.mem_of_find?_eq_some (Collision.Scan.find?_of_mem_collisions hc).2
      exact ⟨_, reportedSpan_mem_spans hms hsecond, rfl⟩
  · cases h

/-- **Every place that a model text gives rise to lies in the text.**  Its tokens stand one behind the other.  What is read
from it stands in order, each definition around its parts and each association around its own.  The failure that it has
no graph for points into it; and if it has one, so do its types and roles, and whatever is reported of them and of the
files that they are given. -/
theorem parse_points_within (text : String) :
    (∀ ts, Token.lex text = .ok ts →
      InOrder 0 (Tokens.spans ts) text.utf8ByteSize ∧ ∀ x ∈ Tokens.spans ts, x.Within text.utf8ByteSize) ∧
    (∀ s, Source.parse text = .ok s →
      s.Nested text.utf8ByteSize ∧ ∀ x ∈ s.spans, x.Within text.utf8ByteSize) ∧
    (∀ f, Graph.parse text = .error f →
      ∃ x, (f.kind = .writing x ∨ f.kind = .model x) ∧ x.Within text.utf8ByteSize) ∧
    ∀ g, Graph.parse text = .ok g →
      (∀ x ∈ g.spans, x.Within text.utf8ByteSize) ∧
      (∀ d ∈ g.report.diagnostics, ∃ x, d.span = some x ∧ x.Within text.utf8ByteSize) ∧
      ∀ b : Backend, ∀ d ∈ (b.emit g g.report).diagnostics, ∃ x, d.span = some x ∧ x.Within text.utf8ByteSize := by
  refine ⟨fun ts hts => ?_, fun s hs => ?_, fun f hf => ?_, fun g hg => ?_⟩
  · have hplaces := Token.inOrder_of_lex hts
    exact ⟨hplaces, hplaces.all_within (Nat.le_refl _)⟩
  · have hnested := Source.nested_of_parse hs
    exact ⟨hnested, hnested.within⟩
  · unfold Graph.parse at hf
    split at hf
    · rename_i fault hfault
      cases hf
      exact ⟨fault.span, .inl rfl, Source.within_parse hfault⟩
    · rename_i s hs
      cases hlink : ofSource s with
      | ok g => rw [hlink] at hf; cases hf
      | error fault =>
        rw [hlink] at hf
        cases hf
        exact ⟨fault.span, .inr rfl, (Source.nested_of_parse hs).within _ (misnamed_of_ofSource hlink).span_mem⟩
  · obtain ⟨ts, s, hts, hs, hlink⟩ := parse_eq_ok.1 hg
    have hnested := Source.nested_of_ofTokens (Token.inOrder_of_lex hts) hs
    have hwithin : ∀ x ∈ g.spans, x.Within text.utf8ByteSize :=
      fun x hx => hnested.within x (spans_subset_of_ofSource hlink hx)
    refine ⟨hwithin, fun d hd => ?_, fun b d hd => ?_⟩
    · obtain ⟨x, hx, hspan⟩ := span_of_mem_diagnostics_report hd
      exact ⟨x, hspan, hwithin x hx⟩
    · obtain ⟨x, hx, hspan⟩ := span_of_mem_diagnostics_emit hd
      exact ⟨x, hspan, hwithin x hx⟩

/-- What is reported of the methods of a class that ask for one name points into the class's text. -/
theorem parse_points_within_academy : (Backend.java.emit .academy Graph.academy.report).diagnostics ≠ [] ∧
    ∀ d ∈ (Backend.java.emit .academy Graph.academy.report).diagnostics,
      ∃ x, d.span = some x ∧ x.Within Source.academyText.utf8ByteSize :=
  ⟨by decide +kernel, ((parse_points_within Source.academyText).2.2.2 .academy parse_academyText).2.2 .java⟩

end Graph
end Accessors
