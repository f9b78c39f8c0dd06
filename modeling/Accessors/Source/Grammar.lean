import Accessors.Source
import Accessors.Token.Lexer
/-!
# The grammar of model texts

`Source.parse` reads a text.  Each function here reads one phrase off the front of a list of tokens and gives back what
the phrase says with the tokens behind it, or the first fault.  `fin` is the place that a fault at the end of the text
points at.
-/
namespace Accessors

abbrev Tokens := List (Located Token)

/-- What comes of reading: a result, or the first fault. -/
abbrev Reading := Except (Located SyntaxFault)

/-- What is done in two steps succeeds where both steps do. -/
theorem except_bind_eq_ok {ε α β : Type} {x : Except ε α} {f : α → Except ε β} {b : β} :
    (x >>= f) = .ok b ↔ ∃ a, x = .ok a ∧ f a = .ok b := by
  cases x <;> simp [bind, Except.bind]

namespace Source

/-- The fault of meeting these tokens where something else was expected. -/
def mismatch (fin : Span) (what : Expectation) : Tokens → Located SyntaxFault
  | [] => ⟨.expected what none, fin⟩
  | t :: _ => ⟨.expected what (some t.value), t.span⟩

def takeMark (fin : Span) (m : Mark) : Tokens → Reading (Span × Tokens)
  | [] => .error (mismatch fin (.mark m) [])
  | t :: rest => if t.value = .mark m then .ok (t.span, rest) else .error (mismatch fin (.mark m) (t :: rest))

def takeName (fin : Span) : Tokens → Reading (Located String × Tokens)
  | ⟨.name text, span⟩ :: rest => .ok (⟨text, span⟩, rest)
  | ts => .error (mismatch fin .name ts)

/-- A name, if one comes next. -/
def takeNameIfAny : Tokens → Option (Located String) × Tokens
  | ⟨.name text, span⟩ :: rest => (some ⟨text, span⟩, rest)
  | ts => (none, ts)

/-- As many times as the separator comes next: the separator and a name. -/
def takeMoreNames (fin : Span) (separator : Mark) : Tokens → Reading (List (Located String) × Tokens)
  | ⟨.mark m, at_⟩ :: ⟨.name text, span⟩ :: rest =>
    if m = separator then
      (takeMoreNames fin separator rest).map fun (names, ts) => (⟨text, span⟩ :: names, ts)
    else .ok ([], ⟨.mark m, at_⟩ :: ⟨.name text, span⟩ :: rest)
  | ⟨.mark m, at_⟩ :: rest =>
    if m = separator then .error (mismatch fin .name rest) else .ok ([], ⟨.mark m, at_⟩ :: rest)
  | ts => .ok ([], ts)

/-- What makes written bounds senseless: no partner is ever allowed, or fewer than there must be. -/
def boundsFault? (b : Bounds) : Option SyntaxFault :=
  match b.upper with
  | none => none
  | some upper =>
    if upper = 0 then some .zeroUpperBound
    else if upper < b.lower then some (.invertedBounds b.lower upper)
    else none

/-- Bounds that were read at `span`, if they make sense. -/
def checkBounds (b : Bounds) (span : Span) (rest : Tokens) : Reading (Located Bounds × Tokens) :=
  match boundsFault? b with
  | none => .ok (⟨b, span⟩, rest)
  | some fault => .error ⟨fault, span⟩

/-- `*`, `n`, `n..*` or `n..m`. -/
def takeBounds (fin : Span) : Tokens → Reading (Located Bounds × Tokens)
  | ⟨.mark .star, span⟩ :: rest => .ok (⟨Bounds.any, span⟩, rest)
  | ⟨.number lower, first⟩ :: ⟨.mark .dots, _⟩ :: ⟨.mark .star, last⟩ :: rest =>
    .ok (⟨⟨lower, none⟩, first.cover last⟩, rest)
  | ⟨.number lower, first⟩ :: ⟨.mark .dots, _⟩ :: ⟨.number upper, last⟩ :: rest =>
    checkBounds ⟨lower, some upper⟩ (first.cover last) rest
  | ⟨.number _, _⟩ :: ⟨.mark .dots, _⟩ :: rest => .error (mismatch fin .upperBound rest)
  | ⟨.number n, span⟩ :: rest => checkBounds (Bounds.exactly n) span rest
  | ts => .error (mismatch fin .multiplicity ts)

def takeDirection (fin : Span) : Tokens → Reading (Direction × Tokens)
  | ⟨.mark .dashes, _⟩ :: rest => .ok (.both, rest)
  | ⟨.mark .arrow, _⟩ :: rest => .ok (.forward, rest)
  | ⟨.mark .backArrow, _⟩ :: rest => .ok (.backward, rest)
  | ts => .error (mismatch fin .association ts)

/-- `bounds [name] arrow bounds name [name] ;` -/
def takeAssociation (fin : Span) (ts : Tokens) : Reading (Located Association × Tokens) := do
  let (ownerBounds, ts) ← takeBounds fin ts
  let (ownerRole, ts) := takeNameIfAny ts
  let (direction, ts) ← takeDirection fin ts
  let (targetBounds, ts) ← takeBounds fin ts
  let (target, ts) ← takeName fin ts
  let (targetRole, ts) := takeNameIfAny ts
  let (last, ts) ← takeMark fin .semicolon ts
  return (⟨⟨ownerBounds, ownerRole, direction, targetBounds, target, targetRole⟩, ownerBounds.span.cover last⟩, ts)

/-- What follows the word `isA`: `name (, name)* ;` -/
def takeSupertypes (fin : Span) (ts : Tokens) : Reading (List (Located String) × Tokens) := do
  let (first, ts) ← takeName fin ts
  let (more, ts) ← takeMoreNames fin .comma ts
  let (_, ts) ← takeMark fin .semicolon ts
  return (first :: more, ts)

/-! ### Every phrase takes a token

The members of a body are read until its brace is closed; this ends because what is left gets shorter. -/

theorem length_lt_of_takeMark {fin : Span} {m : Mark} {ts rest : Tokens} {s : Span}
    (h : takeMark fin m ts = .ok (s, rest)) : rest.length < ts.length := by
  cases ts with
  | nil => simp [takeMark] at h
  | cons t ts =>
    simp only [takeMark] at h
    split at h
    · simp only [Except.ok.injEq, Prod.mk.injEq] at h
      simp [h.2]
    · simp at h

theorem length_lt_of_takeName {fin : Span} {ts rest : Tokens} {n : Located String}
    (h : takeName fin ts = .ok (n, rest)) : rest.length < ts.length := by
  unfold takeName at h
  split at h
  · simp only [Except.ok.injEq, Prod.mk.injEq] at h
    simp [h.2]
  · simp at h

theorem length_takeNameIfAny_le (ts : Tokens) : (takeNameIfAny ts).2.length ≤ ts.length := by
  unfold takeNameIfAny
  split <;> simp

theorem length_le_of_takeMoreNames {fin : Span} {separator : Mark} {ts rest : Tokens} {ns : List (Located String)}
    (h : takeMoreNames fin separator ts = .ok (ns, rest)) : rest.length ≤ ts.length := by
  fun_induction takeMoreNames fin separator ts generalizing ns with
  | case1 span text at_ more ih =>
    cases hr : takeMoreNames fin separator more with
    | error e => simp [hr, Except.map] at h
    | ok p =>
      simp only [hr, Except.map, Except.ok.injEq, Prod.mk.injEq] at h
      have := @ih p.1 (by rw [hr, ← h.2])
      simp only [List.length_cons]; omega
  | case3 => simp at h
  | _ =>
    simp only [Except.ok.injEq, Prod.mk.injEq] at h
    simp [← h.2]

theorem length_lt_of_takeBounds {fin : Span} {ts rest : Tokens} {b : Located Bounds}
    (h : takeBounds fin ts = .ok (b, rest)) : rest.length < ts.length := by
  unfold takeBounds checkBounds at h
  split at h <;> (try split at h) <;> simp at h <;> simp [← h.2] <;> omega

theorem length_lt_of_takeDirection {fin : Span} {ts rest : Tokens} {d : Direction}
    (h : takeDirection fin ts = .ok (d, rest)) : rest.length < ts.length := by
  unfold takeDirection at h
  split at h <;> simp at h <;> simp [← h.2]

theorem length_lt_of_takeAssociation {fin : Span} {ts rest : Tokens} {a : Located Association}
    (h : takeAssociation fin ts = .ok (a, rest)) : rest.length < ts.length := by
  simp only [takeAssociation, except_bind_eq_ok, pure, Except.pure, Except.ok.injEq, Prod.mk.injEq] at h
  obtain ⟨p1, h1, p2, h2, p3, h3, p4, h4, p5, h5, -, rfl⟩ := h
  have := length_lt_of_takeBounds h1
  have := length_takeNameIfAny_le p1.2
  have := length_lt_of_takeDirection h2
  have := length_lt_of_takeBounds h3
  have := length_lt_of_takeName h4
  have := length_takeNameIfAny_le p4.2
  have := length_lt_of_takeMark h5
  omega

theorem length_lt_of_takeSupertypes {fin : Span} {ts rest : Tokens} {ns : List (Located String)}
    (h : takeSupertypes fin ts = .ok (ns, rest)) : rest.length < ts.length := by
  simp only [takeSupertypes, except_bind_eq_ok, pure, Except.pure, Except.ok.injEq, Prod.mk.injEq] at h
  obtain ⟨p1, h1, p2, h2, p3, h3, -, rfl⟩ := h
  have := length_lt_of_takeName h1
  have := length_le_of_takeMoreNames h2
  have := length_lt_of_takeMark h3
  omega

/-! ### Definitions -/

/-- What stands between the braces of a definition, and where the closing one is. -/
structure Body where
  supertypes : List (Located String)
  associations : List (Located Association)
  close : Span

/-- Bounds, and with them an association, start with a number or a star. -/
def startsBounds : Tokens → Bool
  | ⟨.number _, _⟩ :: _ => true
  | ⟨.mark .star, _⟩ :: _ => true
  | _ => false

/-- The members of a body and the brace that closes it. -/
def takeBody (fin : Span) (ts : Tokens) : Reading (Body × Tokens) :=
  match ts with
  | ⟨.mark .closeBrace, span⟩ :: rest => .ok (⟨[], [], span⟩, rest)
  | ⟨.keyword .isAWord, _⟩ :: rest =>
    match h : takeSupertypes fin rest with
    | .error e => .error e
    | .ok (names, rest') =>
      have := length_lt_of_takeSupertypes h
      (takeBody fin rest').map fun (body, out) => ({ body with supertypes := names ++ body.supertypes }, out)
  | ts =>
    if startsBounds ts then
      match h : takeAssociation fin ts with
      | .error e => .error e
      | .ok (a, rest) =>
        have := length_lt_of_takeAssociation h
        (takeBody fin rest).map fun (body, out) => ({ body with associations := a :: body.associations }, out)
    else .error (mismatch fin .member ts)
termination_by ts.length
decreasing_by all_goals (first | omega | (simp only [List.length_cons]; omega))

/-- What follows the word `class` or `interface`, which stands at `start`: `name { body }` -/
def takeDefinition (fin start : Span) (kind : DefinitionKind) (ts : Tokens) :
    Reading (Located Definition × Tokens) := do
  let (name, ts) ← takeName fin ts
  let (_, ts) ← takeMark fin .openBrace ts
  let (body, ts) ← takeBody fin ts
  return (⟨⟨kind, name, body.supertypes, body.associations⟩, start.cover body.close⟩, ts)

/-- What follows the word `namespace`, which stands at `start`: `name (. name)* ;` -/
def takeNamespace (fin start : Span) (ts : Tokens) : Reading (Located String × Tokens) := do
  let (first, ts) ← takeName fin ts
  let (more, ts) ← takeMoreNames fin .dot ts
  let (_, ts) ← takeMark fin .semicolon ts
  let last := (more.getLast?.getD first).span
  return (⟨".".intercalate ((first :: more).map Located.value), start.cover last⟩, ts)

theorem length_lt_of_takeBody {fin : Span} {ts rest : Tokens} {b : Body}
    (h : takeBody fin ts = .ok (b, rest)) : rest.length < ts.length := by
  fun_induction takeBody fin ts generalizing b with
  | case1 =>
    simp only [Except.ok.injEq, Prod.mk.injEq] at h
    simp [h.2]
  | case3 _ ts names more hn _ ih =>
    cases hr : takeBody fin more with
    | error e => simp [hr, Except.map] at h
    | ok p =>
      simp only [hr, Except.map, Except.ok.injEq, Prod.mk.injEq] at h
      have := @ih p.1 (by rw [hr, ← h.2])
      have := length_lt_of_takeSupertypes hn
      simp only [List.length_cons]; omega
  | case5 ts _ _ _ a more ha _ ih =>
    cases hr : takeBody fin more with
    | error e => simp [hr, Except.map] at h
    | ok p =>
      simp only [hr, Except.map, Except.ok.injEq, Prod.mk.injEq] at h
      have := @ih p.1 (by rw [hr, ← h.2])
      have := length_lt_of_takeAssociation ha
      omega
  | _ => simp at h

theorem length_lt_of_takeDefinition {fin start : Span} {kind : DefinitionKind} {ts rest : Tokens}
    {d : Located Definition} (h : takeDefinition fin start kind ts = .ok (d, rest)) : rest.length < ts.length := by
  simp only [takeDefinition, except_bind_eq_ok, pure, Except.pure, Except.ok.injEq, Prod.mk.injEq] at h
  obtain ⟨p1, h1, p2, h2, p3, h3, -, rfl⟩ := h
  have := length_lt_of_takeName h1
  have := length_lt_of_takeMark h2
  have := length_lt_of_takeBody h3
  omega

theorem length_lt_of_takeNamespace {fin start : Span} {ts rest : Tokens} {n : Located String}
    (h : takeNamespace fin start ts = .ok (n, rest)) : rest.length < ts.length := by
  simp only [takeNamespace, except_bind_eq_ok, pure, Except.pure, Except.ok.injEq, Prod.mk.injEq] at h
  obtain ⟨p1, h1, p2, h2, p3, h3, -, rfl⟩ := h
  have := length_lt_of_takeName h1
  have := length_le_of_takeMoreNames h2
  have := length_lt_of_takeMark h3
  omega

/-! ### Whole texts -/

/-- The definition that a keyword opens, if it opens one. -/
def definitionKind? : Keyword → Option DefinitionKind
  | .classWord => some .ofClass
  | .interfaceWord => some .ofInterface
  | _ => none

/-- What all of the tokens say, where `seen` is the namespace that was declared before them. -/
def takeAll (fin : Span) (seen : Option (Located String)) (ts : Tokens) : Reading Source :=
  match ts with
  | [] => .ok ⟨seen, []⟩
  | ⟨.keyword .namespaceWord, start⟩ :: rest =>
    match h : takeNamespace fin start rest with
    | .error e => .error e
    | .ok (name, rest') =>
      have := length_lt_of_takeNamespace h
      if seen.isSome then .error ⟨.secondNamespace, name.span⟩ else takeAll fin (some name) rest'
  | ⟨.keyword k, start⟩ :: rest =>
    match definitionKind? k with
    | none => .error (mismatch fin .definition (⟨.keyword k, start⟩ :: rest))
    | some kind =>
      match h : takeDefinition fin start kind rest with
      | .error e => .error e
      | .ok (d, rest') =>
        have := length_lt_of_takeDefinition h
        (takeAll fin seen rest').map fun s => { s with definitions := d :: s.definitions }
  | ts => .error (mismatch fin .definition ts)
termination_by ts.length
decreasing_by all_goals (first | omega | (simp only [List.length_cons]; omega))

/-- Where the text of these tokens ends: right behind the last of them. -/
def finish (ts : Tokens) : Span :=
  match ts.getLast? with
  | some t => t.span.after
  | none => Span.zero

def ofTokens (ts : Tokens) : Reading Source := takeAll (finish ts) none ts

/-- What a model text says, or the first fault in its writing. -/
def parse (text : String) : Reading Source := do
  ofTokens (← Token.lex text)

end Source
end Accessors
