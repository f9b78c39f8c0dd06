import Accessors.Proofs.Lexing
import Accessors.Proofs.Parsing
/-!
# Where the parts of a model text stand

The tokens of a text stand one behind the other.  A phrase takes the places of its parts from its tokens: wherever these
stand in order, its parts do (`Span.Drawn`), and its own span covers them.  So in a source that is read from a text the
definitions stand one behind the other, each around its parts, and so does each association around its own
(`Source.nested_of_ofTokens`).
-/
namespace Accessors

theorem byteWidth_toList (text : String) : byteWidth text.toList = text.utf8ByteSize := by
  have hsize : ∀ cs : List Char, byteWidth cs = (String.ofList cs).utf8ByteSize := by
    intro cs
    induction cs with
    | nil => rfl
    | cons c cs ih => rw [byteWidth, ih, String.ofList_cons, String.utf8ByteSize_append, String.utf8ByteSize_singleton]
  rw [hsize, String.ofList_toList]

namespace Span

/-- These spans lie between two places of a text, none of them empty and each behind the one before. -/
def InOrder : Nat → List Span → Nat → Prop
  | start, [], stop => start ≤ stop
  | start, s :: more, stop => start ≤ s.start ∧ s.start < s.stop ∧ InOrder s.stop more stop

namespace InOrder

theorem le : ∀ {l : List Span} {a b : Nat}, InOrder a l b → a ≤ b
  | [], _, _, h => h
  | _ :: _, _, _, ⟨hstart, hlt, hmore⟩ => hstart.trans (hlt.le.trans hmore.le)

theorem widen : ∀ {l : List Span} {a a' b b' : Nat}, InOrder a l b → a' ≤ a → b ≤ b' → InOrder a' l b'
  | [], _, _, _, _, h, ha, hb => ha.trans (Nat.le_trans h hb)
  | _ :: _, _, _, _, _, ⟨hstart, hlt, hmore⟩, ha, hb => ⟨ha.trans hstart, hlt, hmore.widen (Nat.le_refl _) hb⟩

theorem within : ∀ {l : List Span} {a b : Nat}, InOrder a l b → ∀ s ∈ l, a ≤ s.start ∧ s.start < s.stop ∧ s.stop ≤ b
  | [], _, _, _, _, hs => by cases hs
  | s :: l, a, b, ⟨hstart, hlt, hmore⟩, t, ht => by
    rcases List.mem_cons.1 ht with rfl | ht
    · exact ⟨hstart, hlt, hmore.le⟩
    · obtain ⟨hstart', hlt', hstop⟩ := hmore.within t ht
      exact ⟨by omega, hlt', hstop⟩

end InOrder

theorem inOrder_append : ∀ {l m : List Span} {a b : Nat},
    InOrder a (l ++ m) b ↔ ∃ c, InOrder a l c ∧ InOrder c m b
  | [], m, a, b => ⟨fun h => ⟨a, Nat.le_refl a, h⟩, fun ⟨_, hc, h⟩ => h.widen hc (Nat.le_refl b)⟩
  | s :: l, m, a, b => by
    constructor
    · rintro ⟨hstart, hlt, hmore⟩
      obtain ⟨c, hl, hm⟩ := inOrder_append.1 hmore
      exact ⟨c, ⟨hstart, hlt, hl⟩, hm⟩
    · rintro ⟨c, ⟨hstart, hlt, hl⟩, hm⟩
      exact ⟨hstart, hlt, inOrder_append.2 ⟨c, hl, hm⟩⟩

theorem InOrder.of_flatMap {α : Type} {f : α → List Span} {xs : List α} {a b : Nat} (h : InOrder a (xs.flatMap f) b)
    {x : α} (hx : x ∈ xs) : ∃ c d, InOrder c (f x) d := by
  obtain ⟨before, after, rfl⟩ := List.append_of_mem hx
  rw [List.flatMap_append, List.flatMap_cons] at h
  obtain ⟨c, -, h⟩ := inOrder_append.1 h
  obtain ⟨d, h, -⟩ := inOrder_append.1 h
  exact ⟨c, d, h⟩

/-- **Several spans in order** lie just between the start of the first and the end of the last, and the cover of these two
reaches from the one to the other. -/
theorem InOrder.ends {s t : Span} {l : List Span} {a b : Nat} (h : InOrder a (s :: (l ++ [t])) b) :
    s.cover t = ⟨s.start, t.stop⟩ ∧ InOrder s.start (s :: (l ++ [t])) t.stop := by
  obtain ⟨hstart, hlt, hmore⟩ := h
  obtain ⟨c, hl, hc, ht, hb⟩ := inOrder_append.1 hmore
  have hle := hl.le
  refine ⟨?_, Nat.le_refl _, hlt, inOrder_append.2 ⟨c, hl, hc, ht, Nat.le_refl _⟩⟩
  unfold cover
  rw [Nat.min_eq_left (by omega), Nat.max_eq_right (by omega)]

/-! ## Drawn spans -/

/-- Wherever the spans `l` stand in order, so do the spans `parts`. -/
def Drawn (parts l : List Span) : Prop := ∀ a b : Nat, InOrder a l b → InOrder a parts b

namespace Drawn

variable {parts parts' l m : List Span}

theorem refl (l : List Span) : Drawn l l := fun _ _ h => h

theorem nil (l : List Span) : Drawn [] l := fun _ _ h => h.le

theorem append (h : Drawn parts l) (h' : Drawn parts' m) : Drawn (parts ++ parts') (l ++ m) := fun _ _ hlm => by
  obtain ⟨c, hl, hm⟩ := inOrder_append.1 hlm
  exact inOrder_append.2 ⟨c, h _ _ hl, h' _ _ hm⟩

theorem cons (s : Span) (h : Drawn parts l) : Drawn (s :: parts) (s :: l) := (refl [s]).append h

theorem skip (m : List Span) (h : Drawn parts l) : Drawn parts (m ++ l) := (nil m).append h

theorem front (h : Drawn parts l) (m : List Span) : Drawn parts (l ++ m) := by
  have happend := h.append (nil m)
  rwa [List.append_nil] at happend

theorem flatMap {α : Type} {f g : α → List Span} : ∀ {xs : List α}, (∀ x ∈ xs, Drawn (f x) (g x)) →
    Drawn (xs.flatMap f) (xs.flatMap g)
  | [], _ => nil []
  | x :: xs, h => by
    rw [List.flatMap_cons, List.flatMap_cons]
    exact (h x List.mem_cons_self).append (flatMap fun y hy => h y (List.mem_cons_of_mem x hy))

theorem cover (s t : Span) (l : List Span) : Drawn [s.cover t] (s :: (l ++ [t])) := fun a b h => by
  rw [h.ends.1]
  obtain ⟨hstart, hlt, hmore⟩ := h
  obtain ⟨c, hl, hc, ht, hb⟩ := inOrder_append.1 hmore
  have hle := hl.le
  have hb : t.stop ≤ b := hb
  exact ⟨hstart, by show s.start < t.stop; omega, hb⟩

end Drawn
end Span

open Accessors.Span (InOrder Drawn)

/-! ## Phrases -/

/-- Where tokens stand. -/
def Tokens.spans (ts : Tokens) : List Span := ts.map Located.span

/-- Where the parts of an association stand, in the order in which they are written. -/
def Association.spans (a : Association) : List Span :=
  a.ownerBounds.span :: (a.ownerRole.toList.map Located.span ++
    a.targetBounds.span :: a.target.span :: a.targetRole.toList.map Located.span)

theorem spans_nameIfAnyTokens (name : Option (Located String)) :
    Tokens.spans (nameIfAnyTokens name) = name.toList.map Located.span := by
  cases name <;> rfl

theorem BoundsPhrase.drawn (p : BoundsPhrase) : Drawn [p.bounds.span] (Tokens.spans p.tokens) := by
  cases p with
  | any star => exact .refl _
  | exactly n pos => exact .refl _
  | atLeast lower dots star => exact .cover lower.span star [dots]
  | between lower dots upper pos le => exact .cover lower.span upper.span [dots]

theorem NamesPhrase.drawn (m : Mark) (p : NamesPhrase) :
    Drawn (p.names.map Located.span) (Tokens.spans (p.tokens m)) := by
  have hmore : Drawn ((p.more.map Prod.snd).map Located.span) (Tokens.spans (p.more.flatMap (separatedTokens m))) := by
    unfold Tokens.spans
    rw [List.map_map, List.map_flatMap, List.map_eq_flatMap]
    exact .flatMap fun x _ => .skip [x.1] (.refl [x.2.span])
  have hall := (hmore.front [p.close]).cons p.first.span
  unfold NamesPhrase.tokens Tokens.spans
  rw [List.map_cons, List.map_append]
  exact hall

namespace AssociationPhrase

variable (p : AssociationPhrase)

theorem drawn : Drawn (p.association.value.spans ++ [p.close]) (Tokens.spans p.tokens) := by
  have htarget := Drawn.refl (p.target.span :: (p.targetRole.toList.map Located.span ++ [p.close]))
  have hbehind := (Drawn.refl (p.ownerRole.toList.map Located.span)).append
    ((p.targetBounds.drawn.append htarget).skip [p.arrow.span])
  have hall := p.ownerBounds.drawn.append hbehind
  have hparts : p.association.value.spans ++ [p.close] = [p.ownerBounds.bounds.span] ++
      (p.ownerRole.toList.map Located.span ++ ([p.targetBounds.bounds.span] ++
        p.target.span :: (p.targetRole.toList.map Located.span ++ [p.close]))) := by
    simp [Association.spans, association]
  have htokens : Tokens.spans p.tokens = Tokens.spans p.ownerBounds.tokens ++
      (p.ownerRole.toList.map Located.span ++ ([p.arrow.span] ++ (Tokens.spans p.targetBounds.tokens ++
        p.target.span :: (p.targetRole.toList.map Located.span ++ [p.close])))) := by
    simp [← spans_nameIfAnyTokens, Tokens.spans, tokens, Located.map]
  rw [hparts, htokens]
  exact hall

/-- **An association covers its parts**, which stand in order. -/
theorem inOrder {a b : Nat} (h : InOrder a (Tokens.spans p.tokens) b) :
    InOrder a [p.association.span] b ∧
      InOrder p.association.span.start p.association.value.spans p.association.span.stop := by
  have hparts := p.drawn a b h
  obtain ⟨hcover, hinside⟩ := InOrder.ends hparts
  have hspan : p.association.span = ⟨p.ownerBounds.bounds.span.start, p.close.stop⟩ := hcover
  rw [hspan]
  exact ⟨hcover ▸ Drawn.cover _ _ _ a b hparts, (Drawn.refl p.association.value.spans).front [p.close] _ _ hinside⟩

end AssociationPhrase

/-- An association covers its parts, which stand in the order in which they are written. -/
def Association.Around (a : Located Association) : Prop := InOrder a.span.start a.value.spans a.span.stop

namespace MemberPhrase

theorem drawn_supertypes (m : MemberPhrase) : Drawn (m.supertypes.map Located.span) (Tokens.spans m.tokens) := by
  cases m with
  | isA word names => exact (names.drawn .comma).skip [word]
  | ofAssociation a => exact .nil _

theorem drawn_association (m : MemberPhrase) :
    Drawn (m.association?.toList.map Located.span) (Tokens.spans m.tokens) := by
  cases m with
  | isA word names => exact .nil _
  | ofAssociation p => exact fun _ _ h => (p.inOrder h).1

theorem around {m : MemberPhrase} {a b : Nat} (h : InOrder a (Tokens.spans m.tokens) b) :
    ∀ x ∈ m.association?, Association.Around x := by
  cases m with
  | isA word names => exact fun _ hx => by cases hx
  | ofAssociation p =>
    intro x hx
    cases hx
    exact (p.inOrder h).2

end MemberPhrase

/-- A definition covers its name and behind it the names of its supertypes and its associations, each in the order in
which they are written, and so does each association its parts. -/
structure Definition.Around (d : Located Definition) : Prop where
  supertypes : InOrder d.span.start (d.value.name.span :: d.value.supertypes.map Located.span) d.span.stop
  associations : InOrder d.span.start (d.value.name.span :: d.value.associations.map Located.span) d.span.stop
  parts : ∀ a ∈ d.value.associations, Association.Around a

namespace DefinitionPhrase

variable {p : DefinitionPhrase} {start : Span} {a b : Nat}

/-- **A definition covers its parts.** -/
theorem inOrder (kind : DefinitionKind) (h : InOrder a (start :: Tokens.spans p.tokens) b) :
    InOrder a [(p.definition start kind).span] b ∧ Definition.Around (p.definition start kind) := by
  have htokens : start :: Tokens.spans p.tokens = start :: ((p.name.span :: p.brace ::
      p.body.members.flatMap fun m => Tokens.spans m.tokens) ++ [p.body.close]) := by
    simp [Tokens.spans, tokens, BodyPhrase.tokens, Located.map, List.map_flatMap]
  rw [htokens] at h
  obtain ⟨hcover, hinside⟩ := InOrder.ends h
  have hspan : (p.definition start kind).span = ⟨start.start, p.body.close.stop⟩ := hcover
  have hbehind : InOrder start.start (p.name.span :: p.brace ::
      p.body.members.flatMap fun m => Tokens.spans m.tokens) p.body.close.stop :=
    ((Drawn.refl _).front [p.body.close]).skip [start] _ _ hinside
  refine ⟨Drawn.cover _ _ _ a b h, ?_, ?_, fun x hx => ?_⟩
  · rw [hspan]
    have hnames := Drawn.flatMap fun (m : MemberPhrase) (_ : m ∈ p.body.members) => m.drawn_supertypes
    have hdrawn := ((hnames.skip [p.brace]).cons p.name.span) _ _ hbehind
    rwa [← List.map_flatMap] at hdrawn
  · rw [hspan]
    have hnames := Drawn.flatMap fun (m : MemberPhrase) (_ : m ∈ p.body.members) => m.drawn_association
    have hdrawn := ((hnames.skip [p.brace]).cons p.name.span) _ _ hbehind
    rwa [← List.map_flatMap, ← List.filterMap_eq_flatMap_toList] at hdrawn
  · obtain ⟨m, hm, hx⟩ := List.mem_filterMap.1 hx
    obtain ⟨c, d, hmember⟩ := ((Drawn.refl _).skip [p.name.span, p.brace] _ _ hbehind).of_flatMap hm
    exact m.around hmember x hx

end DefinitionPhrase

/-! ## Whole texts -/

namespace ItemPhrase

theorem drawn_namespaceName (item : ItemPhrase) :
    Drawn (item.namespaceName?.toList.map Located.span) (Tokens.spans item.tokens) := by
  cases item with
  | ofDefinition word d => exact .nil _
  | ofNamespace word segments =>
    have hnames := (segments.drawn .dot).cons word
    have hlast : segments.names = segments.names.dropLast ++ [segments.names.getLast segments.names_ne_nil] :=
      (List.dropLast_append_getLast segments.names_ne_nil).symm
    intro a b h
    have hcover := hnames a b h
    rw [hlast, List.map_append] at hcover
    exact Drawn.cover word _ _ a b hcover

theorem drawn_definition (item : ItemPhrase) :
    Drawn (item.definition?.toList.map Located.span) (Tokens.spans item.tokens) := by
  cases item with
  | ofNamespace word segments => exact .nil _
  | ofDefinition word d => exact fun _ _ h => (d.inOrder word.value h).1

theorem around {item : ItemPhrase} {a b : Nat} (h : InOrder a (Tokens.spans item.tokens) b) :
    ∀ d ∈ item.definition?, Definition.Around d := by
  cases item with
  | ofNamespace word segments => exact fun _ hd => by cases hd
  | ofDefinition word p =>
    intro d hd
    cases hd
    exact (p.inOrder word.value h).2

end ItemPhrase

/-- In a text of this many bytes, the definitions of a source stand one behind the other, each around its parts, and the
name of its namespace stands in order too. -/
structure Source.Nested (s : Source) (size : Nat) : Prop where
  namespaceName : InOrder 0 (s.namespaceName.toList.map Located.span) size
  definitions : InOrder 0 (s.definitions.map Located.span) size
  around : ∀ d ∈ s.definitions, Definition.Around d

theorem Token.Divided.inOrder {start : Nat} {text after : List Char} {ts : Tokens} (h : Divided start text after ts) :
    InOrder start ts.spans (start + byteWidth text) := by
  induction h with
  | nil => exact Nat.le_refl _
  | gap _ _ ih =>
    rw [byteWidth_append, ← Nat.add_assoc]
    exact ih.widen (Nat.le_add_right _ _) (Nat.le_refl _)
  | @token start word text after t ts hspells _ _ ih =>
    rw [byteWidth_append, ← Nat.add_assoc]
    have hpos := byteWidth_pos hspells.ne_nil
    exact ⟨Nat.le_refl _, by show start < start + byteWidth word; omega, ih⟩

/-- **The tokens of a text stand in it one behind the other.** -/
theorem Token.inOrder_of_lex {text : String} {ts : Tokens} (h : Token.lex text = .ok ts) :
    InOrder 0 ts.spans text.utf8ByteSize := by
  have hplaces := (Token.lexFrom_eq_ok_iff.1 h).inOrder
  rwa [Nat.zero_add, byteWidth_toList] at hplaces

/-- **What is read from tokens in order stands in order.** -/
theorem Source.nested_of_ofTokens {ts : Tokens} {s : Source} {size : Nat} (hts : InOrder 0 ts.spans size)
    (hs : Source.ofTokens ts = .ok s) : s.Nested size := by
  obtain ⟨items, rfl, hlen⟩ := exists_items_of_takeAll hs
  rw [ofTokens, takeAll_tokens _ items none hlen, Except.ok.injEq] at hs
  subst hs
  unfold Tokens.spans at hts
  rw [List.map_flatMap] at hts
  constructor
  · have hnames := Drawn.flatMap (fun (item : ItemPhrase) (_ : item ∈ items) => item.drawn_namespaceName) 0 size hts
    rw [← List.map_flatMap, ← List.filterMap_eq_flatMap_toList] at hnames
    show InOrder 0 ((items.filterMap ItemPhrase.namespaceName?).head?.toList.map Located.span) size
    cases hfound : items.filterMap ItemPhrase.namespaceName? with
    | nil => exact Nat.zero_le _
    | cons n more =>
      rw [hfound] at hnames
      exact (Drawn.refl [n.span]).front (more.map Located.span) _ _ hnames
  · have hdefinitions := Drawn.flatMap (fun (item : ItemPhrase) (_ : item ∈ items) => item.drawn_definition) 0 size hts
    rwa [← List.map_flatMap, ← List.filterMap_eq_flatMap_toList] at hdefinitions
  · intro d hd
    obtain ⟨item, hitem, hd⟩ := List.mem_filterMap.1 hd
    obtain ⟨c, e, hplaces⟩ := hts.of_flatMap hitem
    exact item.around hplaces d hd

/-! ## All places of a source -/

/-- A span of a text of this many bytes. -/
def Span.Within (s : Span) (size : Nat) : Prop := s.start ≤ s.stop ∧ s.stop ≤ size

theorem Span.Within.cover {s t : Span} {size : Nat} (hs : s.Within size) (ht : t.Within size) :
    (s.cover t).Within size := by
  obtain ⟨hs, hs'⟩ := hs
  obtain ⟨ht, ht'⟩ := ht
  unfold Within Span.cover
  dsimp only
  omega

theorem Span.InOrder.all_within {l : List Span} {a b size : Nat} (h : InOrder a l b) (hb : b ≤ size) :
    ∀ s ∈ l, s.Within size := by
  intro s hs
  obtain ⟨-, hlt, hstop⟩ := h.within s hs
  exact ⟨hlt.le, hstop.trans hb⟩

/-- Where a definition stands and where its parts do. -/
def Definition.spans (d : Located Definition) : List Span :=
  d.span :: d.value.name.span :: (d.value.supertypes.map Located.span ++
    d.value.associations.flatMap fun a => a.span :: a.value.spans)

/-- Every place that a source tells of. -/
def Source.spans (s : Source) : List Span :=
  s.namespaceName.toList.map Located.span ++ s.definitions.flatMap Definition.spans

theorem Definition.Around.within {d : Located Definition} (h : Definition.Around d) {size : Nat}
    (hd : d.span.Within size) : ∀ s ∈ Definition.spans d, s.Within size := by
  have hnames := h.supertypes.all_within hd.2
  have hassociations := h.associations.all_within hd.2
  intro s hs
  unfold spans at hs
  rw [List.mem_cons, List.mem_cons, List.mem_append, List.mem_flatMap] at hs
  rcases hs with rfl | rfl | hs | ⟨a, ha, hs⟩
  · exact hd
  · exact hnames _ List.mem_cons_self
  · exact hnames s (List.mem_cons_of_mem _ hs)
  · have haround := hassociations a.span (List.mem_cons_of_mem _ (List.mem_map_of_mem ha))
    rcases List.mem_cons.1 hs with rfl | hs
    · exact haround
    · exact InOrder.all_within (h.parts a ha) haround.2 s hs

theorem Source.Nested.within {s : Source} {size : Nat} (h : s.Nested size) : ∀ x ∈ s.spans, x.Within size := by
  intro x hx
  rcases List.mem_append.1 hx with hx | hx
  · exact h.namespaceName.all_within (Nat.le_refl size) x hx
  · obtain ⟨d, hd, hx⟩ := List.mem_flatMap.1 hx
    have hspan := h.definitions.all_within (Nat.le_refl size) d.span (List.mem_map_of_mem hd)
    exact (h.around d hd).within hspan x hx

end Accessors
