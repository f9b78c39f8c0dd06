import Accessors.Proofs.Phrases
/-!
# What is read of a text

Reading and writing agree.  `Source.Reads` says of a reading function that it takes one phrase off the front of the
tokens, gives what the phrase says, and fails where there is none; there is one lemma of this kind a function.  A text is
read just if all of it is one phrase, which is then the only one (`Source.ofTokens_takes_phrases`).
-/
namespace Accessors

/-- **Lists of pieces that are told apart one by one are told apart**, if no piece looks like what comes behind the
last. -/
theorem flatMap_append_inj {α β : Type} {f : α → List β} (hf : ∀ a b r r', f a ++ r = f b ++ r' → a = b ∧ r = r')
    (stop : List β → Prop) (hstop : ∀ a r, ¬ stop (f a ++ r)) : ∀ {l l' : List α} {t t' : List β}, stop t → stop t' →
    l.flatMap f ++ t = l'.flatMap f ++ t' → l = l' ∧ t = t'
  | [], [], _, _, _, _, h => ⟨rfl, h⟩
  | [], b :: l', t, t', ht, _, h => by
    rw [List.flatMap_nil, List.nil_append, List.flatMap_cons, List.append_assoc] at h
    exact absurd (h ▸ ht) (hstop b _)
  | a :: l, [], t, t', _, ht', h => by
    rw [List.flatMap_nil, List.nil_append, List.flatMap_cons, List.append_assoc] at h
    exact absurd (h ▸ ht') (hstop a _)
  | a :: l, b :: l', t, t', ht, ht', h => by
    rw [List.flatMap_cons, List.append_assoc, List.flatMap_cons, List.append_assoc] at h
    obtain ⟨rfl, hrest⟩ := hf a b _ _ h
    obtain ⟨rfl, htail⟩ := flatMap_append_inj hf stop hstop ht ht' hrest
    exact ⟨rfl, htail⟩

attribute [ext] Located

theorem Located.map_injective {α β : Type} {f : α → β} (hf : Function.Injective f) :
    Function.Injective (Located.map f) := by
  intro a b h
  obtain ⟨hvalue, hspan⟩ := Located.mk.inj h
  exact Located.ext (hf hvalue) hspan

theorem DefinitionKind.keyword_injective : Function.Injective keyword := by
  rintro (_ | _) (_ | _) h <;> first | rfl | cases h

theorem Direction.mark_injective : Function.Injective mark := by
  rintro (_ | _ | _) (_ | _ | _) h <;> first | rfl | cases h

namespace Source

theorem map_eq_ok {α β : Type} {x : Reading α} {f : α → β} {b : β} : x.map f = .ok b ↔ ∃ a, x = .ok a ∧ f a = b := by
  cases x <;> simp [Except.map]

/-- **What a reading function does**: it takes a phrase off the front of the tokens and gives what the phrase says.  A
phrase that could go on ends only before such tokens as `ends` allows. -/
structure Reads {P V : Type} (take : Tokens → Reading (V × Tokens)) (tokens : P → Tokens) (meaning : P → V)
    (ends : Tokens → Prop) : Prop where
  complete : ∀ p rest, ends rest → take (tokens p ++ rest) = .ok (meaning p, rest)
  sound : ∀ {ts v rest}, take ts = .ok (v, rest) → ∃ p, ts = tokens p ++ rest ∧ meaning p = v
  injective : Function.Injective tokens

/-- **Where a phrase ends, and which it is,** can be told from the tokens. -/
theorem Reads.cancel {P V : Type} {take : Tokens → Reading (V × Tokens)} {tokens : P → Tokens} {meaning : P → V}
    {ends : Tokens → Prop} (h : Reads take tokens meaning ends) {p q : P} {r r' : Tokens} (hr : ends r) (hr' : ends r')
    (heq : tokens p ++ r = tokens q ++ r') : p = q ∧ r = r' := by
  have htake := h.complete p r hr
  rw [heq, h.complete q r' hr', Except.ok.injEq, Prod.mk.injEq] at htake
  obtain ⟨-, rfl⟩ := htake
  exact ⟨h.injective (List.append_cancel_right heq), rfl⟩

/-- The first of these tokens, if there is one, is not this mark. -/
def NotMark (m : Mark) (ts : Tokens) : Prop := ∀ s r, ts ≠ ⟨.mark m, s⟩ :: r

theorem notMark_cons {m : Mark} {t : Located Token} {ts : Tokens} (h : t.value ≠ .mark m) : NotMark m (t :: ts) := by
  intro s r he
  obtain ⟨rfl, -⟩ := List.cons.inj he
  exact h rfl

/-! ## Single tokens -/

theorem reads_mark (fin : Span) (m : Mark) :
    Reads (takeMark fin m) (fun s => [⟨.mark m, s⟩]) id (fun _ => True) where
  complete _ _ _ := if_pos rfl
  sound := by
    intro ts s rest h
    cases ts with
    | nil => cases h
    | cons t ts =>
      simp only [takeMark] at h
      split at h
      · rename_i hm
        cases h
        exact ⟨t.span, by rw [← hm]; rfl, rfl⟩
      · cases h
  injective s s' h := by cases h; rfl

theorem reads_name (fin : Span) : Reads (takeName fin) (fun n => [n.map .name]) id (fun _ => True) where
  complete _ _ _ := rfl
  sound := by
    intro ts n rest h
    unfold takeName at h
    split at h
    · cases h
      exact ⟨_, rfl, rfl⟩
    · cases h
  injective n n' h := Located.map_injective (fun _ _ h => Token.name.inj h) (List.cons.inj h).1

theorem reads_direction (fin : Span) :
    Reads (takeDirection fin) (fun d => [d.map fun d => .mark d.mark]) Located.value (fun _ => True) where
  complete d rest _ := by
    obtain ⟨_ | _ | _, s⟩ := d <;> rfl
  sound := by
    intro ts d rest h
    unfold takeDirection at h
    split at h
    · cases h; exact ⟨⟨.both, _⟩, rfl, rfl⟩
    · cases h; exact ⟨⟨.forward, _⟩, rfl, rfl⟩
    · cases h; exact ⟨⟨.backward, _⟩, rfl, rfl⟩
    · cases h
  injective d d' h :=
    Located.map_injective (fun _ _ h => Direction.mark_injective (Token.mark.inj h)) (List.cons.inj h).1

theorem reads_nameIfAny :
    Reads (fun ts => .ok (takeNameIfAny ts)) nameIfAnyTokens id (fun rest => ∀ n r, rest ≠ Located.map .name n :: r) where
  complete o rest hrest := by
    cases o with
    | some n => rfl
    | none =>
      unfold takeNameIfAny nameIfAnyTokens
      split
      · rename_i text s r heq
        exact absurd heq (hrest ⟨text, s⟩ r)
      · rfl
  sound := by
    intro ts o rest h
    rw [Except.ok.injEq] at h
    unfold takeNameIfAny at h
    split at h
    · cases h; exact ⟨some _, rfl, rfl⟩
    · cases h; exact ⟨none, rfl, rfl⟩
  injective o o' h := by
    have hinj := Located.map_injective (f := Token.name) (fun _ _ h => Token.name.inj h)
    rcases o with _ | n <;> rcases o' with _ | n'
    · rfl
    · cases h
    · cases h
    · rw [hinj (List.cons.inj h).1]

/-! ## Names with separators -/

theorem separatedTokens_append_inj {m : Mark} (a b : Span × Located String) (r r' : Tokens)
    (h : separatedTokens m a ++ r = separatedTokens m b ++ r') : a = b ∧ r = r' := by
  obtain ⟨s, n, t⟩ := a
  obtain ⟨s', n', t'⟩ := b
  cases h
  exact ⟨rfl, rfl⟩

theorem reads_moreNames (fin : Span) (m : Mark) :
    Reads (takeMoreNames fin m) (List.flatMap (separatedTokens m)) (List.map Prod.snd) (NotMark m) where
  complete more rest hrest := by
    induction more with
    | nil =>
      rw [List.flatMap_nil, List.nil_append]
      unfold takeMoreNames
      split
      · rename_i m' at_ text s r
        rw [if_neg (fun hm => hrest at_ _ (by rw [hm]))]
        rfl
      · rename_i m' at_ r _
        rw [if_neg (fun hm => hrest at_ _ (by rw [hm]))]
        rfl
      · rfl
    | cons a more ih =>
      rw [List.flatMap_cons, List.append_assoc]
      show takeMoreNames fin m (⟨.mark m, a.1⟩ :: ⟨.name a.2.value, a.2.span⟩ ::
        (more.flatMap (separatedTokens m) ++ rest)) = _
      unfold takeMoreNames
      rw [if_pos rfl, ih]
      rfl
  sound := by
    intro ts names rest h
    fun_induction takeMoreNames fin m ts generalizing names with
    | case1 at_ text s more ih =>
      obtain ⟨p, hr, hp⟩ := map_eq_ok.1 h
      cases hp
      obtain ⟨ps, rfl, hps⟩ := ih hr
      exact ⟨(at_, ⟨text, s⟩) :: ps, rfl, congrArg (_ :: ·) hps⟩
    | case3 => cases h
    | _ =>
      cases h
      exact ⟨[], rfl, rfl⟩
  injective more more' h :=
    (flatMap_append_inj separatedTokens_append_inj (· = []) (fun _ _ h => by cases h) rfl rfl
      (congrArg (· ++ []) h)).1

/-! ## Bounds -/

/-- **Bounds make sense** if they have no upper end, or one that allows some partner and as many as there must be. -/
theorem boundsFault?_eq_none {b : Bounds} :
    boundsFault? b = none ↔ ∀ upper, b.upper = some upper → 1 ≤ upper ∧ b.lower ≤ upper := by
  obtain ⟨lower, _ | upper⟩ := b
  · exact ⟨fun _ _ h => by (cases h), fun _ => rfl⟩
  · simp only [boundsFault?, Option.some.injEq, forall_eq']
    split
    · simp only [reduceCtorEq, false_iff]; omega
    · split
      · simp only [reduceCtorEq, false_iff]; omega
      · simp only [true_iff]; omega

theorem checkBounds_eq_ok {b : Bounds} {span : Span} {ts rest : Tokens} {v : Located Bounds} :
    checkBounds b span ts = .ok (v, rest) ↔
      (∀ upper, b.upper = some upper → 1 ≤ upper ∧ b.lower ≤ upper) ∧ v = ⟨b, span⟩ ∧ rest = ts := by
  unfold checkBounds
  rw [← boundsFault?_eq_none]
  cases boundsFault? b with
  | none =>
    simp only [Except.ok.injEq, Prod.mk.injEq, true_and]
    exact and_congr eq_comm eq_comm
  | some fault => exact ⟨fun h => by (cases h), fun h => by (cases h.1)⟩

theorem reads_bounds (fin : Span) :
    Reads (takeBounds fin) BoundsPhrase.tokens BoundsPhrase.bounds (NotMark .dots) where
  complete p rest hrest := by
    cases p with
    | any star => rfl
    | atLeast lower dots star => rfl
    | between lower dots upper pos le =>
      refine checkBounds_eq_ok.2 ⟨fun u hu => ?_, rfl, rfl⟩
      cases hu
      exact ⟨pos, le⟩
    | exactly n pos =>
      show takeBounds fin (⟨.number n.value, n.span⟩ :: rest) = _
      -- without dots behind it, a number is taken alone
      rw [takeBounds]
      · exact checkBounds_eq_ok.2 ⟨fun u hu => by (cases hu; exact ⟨pos, Nat.le_refl _⟩), rfl, rfl⟩
      · exact fun dots _ _ h => hrest dots _ h
      · exact fun dots _ _ _ h => hrest dots _ h
      · exact fun dots _ h => hrest dots _ h
  sound := by
    intro ts v rest h
    unfold takeBounds at h
    split at h
    · cases h
      exact ⟨.any _, rfl, rfl⟩
    · rename_i lower first dots last rest'
      cases h
      exact ⟨.atLeast ⟨lower, first⟩ dots last, rfl, rfl⟩
    · rename_i lower first dots upper last rest'
      obtain ⟨hsense, rfl, rfl⟩ := checkBounds_eq_ok.1 h
      obtain ⟨pos, le⟩ := hsense upper rfl
      exact ⟨.between ⟨lower, first⟩ dots ⟨upper, last⟩ pos le, rfl, rfl⟩
    · cases h
    · rename_i n span rest' _ _ _
      obtain ⟨hsense, rfl, rfl⟩ := checkBounds_eq_ok.1 h
      exact ⟨.exactly ⟨n, span⟩ (hsense n rfl).1, rfl, rfl⟩
    · cases h
  injective p q h := by
    cases p <;> cases q <;> simp_all [BoundsPhrase.tokens, Located.map, Located.ext_iff]

/-! ## Associations -/

theorem notMark_dots_arrow (owner : Option (Located String)) (arrow : Located Direction) (ts : Tokens) :
    NotMark .dots (nameIfAnyTokens owner ++ arrow.map (fun d => .mark d.mark) :: ts) := by
  obtain _ | n := owner
  · exact notMark_cons (by obtain ⟨_ | _ | _, s⟩ := arrow <;> simp [Located.map, Direction.mark])
  · exact notMark_cons (by simp [Located.map])

theorem notName_cons {t : Located Token} {ts : Tokens} {m : Mark} (h : t.value = .mark m) (n : Located String)
    (r : Tokens) : t :: ts ≠ Located.map .name n :: r := by
  intro he
  obtain ⟨rfl, -⟩ := List.cons.inj he
  cases h

theorem takeNameIfAny_tokens (name : Option (Located String)) {t : Located Token} {m : Mark} (h : t.value = .mark m)
    (ts : Tokens) : takeNameIfAny (nameIfAnyTokens name ++ t :: ts) = (name, t :: ts) :=
  Except.ok.inj (reads_nameIfAny.complete name (t :: ts) (notName_cons h))

theorem eq_of_takeNameIfAny {ts rest : Tokens} {name : Option (Located String)} (h : takeNameIfAny ts = (name, rest)) :
    ts = nameIfAnyTokens name ++ rest := by
  obtain ⟨_, htokens, rfl⟩ := reads_nameIfAny.sound (congrArg Except.ok h)
  exact htokens

theorem reads_association (fin : Span) : Reads (takeAssociation fin) AssociationPhrase.tokens
    AssociationPhrase.association (fun _ => True) where
  complete p rest _ := by
    unfold AssociationPhrase.tokens
    simp only [List.append_assoc, List.cons_append, List.nil_append]
    simp only [takeAssociation, except_bind_eq_ok, pure, Except.pure, Except.ok.injEq, Prod.mk.injEq]
    refine ⟨_, (reads_bounds fin).complete p.ownerBounds _ (notMark_dots_arrow _ _ _), ?_⟩
    rw [takeNameIfAny_tokens p.ownerRole rfl]
    refine ⟨_, (reads_direction fin).complete p.arrow _ trivial,
      _, (reads_bounds fin).complete p.targetBounds _ (notMark_cons (by simp [Located.map])),
      (p.target, nameIfAnyTokens p.targetRole ++ ⟨.mark .semicolon, p.close⟩ :: rest), rfl, ?_⟩
    rw [takeNameIfAny_tokens p.targetRole rfl]
    exact ⟨_, (reads_mark fin .semicolon).complete p.close rest trivial, rfl, rfl⟩
  sound := by
    intro ts a rest h
    simp only [takeAssociation, except_bind_eq_ok, pure, Except.pure, Except.ok.injEq, Prod.mk.injEq] at h
    obtain ⟨⟨_, ts₁⟩, h₁, ⟨_, ts₂⟩, h₂, ⟨_, ts₃⟩, h₃, ⟨_, ts₄⟩, h₄, ⟨_, _⟩, h₅, rfl, rfl⟩ := h
    rcases hrole : takeNameIfAny ts₁ with ⟨ownerRole, r₁⟩
    rcases hrole' : takeNameIfAny ts₄ with ⟨targetRole, r₄⟩
    simp only [hrole, hrole'] at h₂ h₃ h₄ h₅ ⊢
    obtain ⟨ownerBounds, rfl, rfl⟩ := (reads_bounds fin).sound h₁
    obtain ⟨arrow, rfl, rfl⟩ := (reads_direction fin).sound h₂
    obtain ⟨targetBounds, rfl, rfl⟩ := (reads_bounds fin).sound h₃
    obtain ⟨target, rfl, rfl⟩ := (reads_name fin).sound h₄
    obtain ⟨close, rfl, rfl⟩ := (reads_mark fin .semicolon).sound h₅
    refine ⟨⟨ownerBounds, ownerRole, arrow, targetBounds, target, targetRole, close⟩, ?_, rfl⟩
    rw [eq_of_takeNameIfAny hrole, eq_of_takeNameIfAny hrole']
    simp [AssociationPhrase.tokens]
  injective p q h := by
    obtain ⟨hob, h⟩ := (reads_bounds fin).cancel (notMark_dots_arrow _ _ _) (notMark_dots_arrow _ _ _) h
    obtain ⟨hrole, h⟩ := reads_nameIfAny.cancel (notName_cons rfl) (notName_cons rfl) h
    obtain ⟨harrow, h⟩ := (reads_direction fin).cancel trivial trivial h
    obtain ⟨htb, h⟩ := (reads_bounds fin).cancel (notMark_cons (by simp [Located.map]))
      (notMark_cons (by simp [Located.map])) h
    obtain ⟨htarget, h⟩ := (reads_name fin).cancel trivial trivial h
    obtain ⟨hrole', h⟩ := reads_nameIfAny.cancel (notName_cons rfl) (notName_cons rfl) h
    obtain ⟨hclose, -⟩ := (reads_mark fin .semicolon).cancel trivial trivial h
    obtain ⟨_, _, _, _, _, _, _⟩ := p
    cases hob; cases hrole; cases harrow; cases htb; cases htarget; cases hrole'; cases hclose
    rfl

/-! ## Names up to a semicolon -/

section Names

variable {m : Mark}

theorem takeNames_complete (fin : Span) (hm : m ≠ .semicolon) (p : NamesPhrase) (rest : Tokens) :
    ∃ ts₁ ts₂, takeName fin (p.tokens m ++ rest) = .ok (p.first, ts₁) ∧
      takeMoreNames fin m ts₁ = .ok (p.more.map Prod.snd, ts₂) ∧
      takeMark fin .semicolon ts₂ = .ok (p.close, rest) := by
  refine ⟨p.more.flatMap (separatedTokens m) ++ ([⟨.mark .semicolon, p.close⟩] ++ rest), _, ?_,
    (reads_moreNames fin m).complete p.more _ (notMark_cons fun h => hm (Token.mark.inj h).symm),
    (reads_mark fin .semicolon).complete p.close rest trivial⟩
  unfold NamesPhrase.tokens
  rw [List.cons_append, List.append_assoc]
  rfl

theorem takeNames_sound {fin : Span} {ts ts₁ ts₂ rest : Tokens} {first : Located String} {more : List (Located String)}
    {close : Span} (h₁ : takeName fin ts = .ok (first, ts₁)) (h₂ : takeMoreNames fin m ts₁ = .ok (more, ts₂))
    (h₃ : takeMark fin .semicolon ts₂ = .ok (close, rest)) :
    ∃ p : NamesPhrase, ts = p.tokens m ++ rest ∧ p.first = first ∧ p.more.map Prod.snd = more := by
  obtain ⟨first, rfl, rfl⟩ := (reads_name fin).sound h₁
  obtain ⟨more, rfl, rfl⟩ := (reads_moreNames fin m).sound h₂
  obtain ⟨close, rfl, rfl⟩ := (reads_mark fin .semicolon).sound h₃
  exact ⟨⟨first, more, close⟩, by simp [NamesPhrase.tokens], rfl, rfl⟩

theorem names_injective (hm : m ≠ .semicolon) : Function.Injective (NamesPhrase.tokens m) := by
  intro p q h
  have hend : ∀ close, NotMark m [⟨.mark .semicolon, close⟩] :=
    fun _ => notMark_cons fun h => hm (Token.mark.inj h).symm
  obtain ⟨hfirst, h⟩ := (reads_name .zero).cancel trivial trivial h
  obtain ⟨hmore, h⟩ := (reads_moreNames .zero m).cancel (hend _) (hend _) h
  obtain ⟨hclose, -⟩ := (reads_mark .zero .semicolon).cancel trivial trivial h
  obtain ⟨_, _, _⟩ := p
  cases hfirst; cases hmore; cases hclose
  rfl

end Names

theorem reads_supertypes (fin : Span) :
    Reads (takeSupertypes fin) (NamesPhrase.tokens .comma) NamesPhrase.names (fun _ => True) where
  complete p rest _ := by
    obtain ⟨ts₁, ts₂, h₁, h₂, h₃⟩ := takeNames_complete fin (m := .comma) (by decide) p rest
    simp only [takeSupertypes, except_bind_eq_ok]
    exact ⟨_, h₁, _, h₂, _, h₃, rfl⟩
  sound := by
    intro ts names rest h
    simp only [takeSupertypes, except_bind_eq_ok, pure, Except.pure, Except.ok.injEq, Prod.mk.injEq] at h
    obtain ⟨_, h₁, _, h₂, _, h₃, rfl, rfl⟩ := h
    obtain ⟨p, hts, hfirst, hmore⟩ := takeNames_sound h₁ h₂ h₃
    exact ⟨p, hts, by rw [NamesPhrase.names, hfirst, hmore]⟩
  injective := names_injective (by decide)

theorem getLast_names (p : NamesPhrase) :
    p.names.getLast p.names_ne_nil = (p.more.map Prod.snd).getLast?.getD p.first := by
  refine Option.some.inj ?_
  rw [← List.getLast?_eq_some_getLast, NamesPhrase.names, List.getLast?_cons]

theorem reads_namespace (fin start : Span) :
    Reads (takeNamespace fin start) (NamesPhrase.tokens .dot) (NamesPhrase.namespaceName start) (fun _ => True) where
  complete p rest _ := by
    obtain ⟨ts₁, ts₂, h₁, h₂, h₃⟩ := takeNames_complete fin (m := .dot) (by decide) p rest
    simp only [takeNamespace, except_bind_eq_ok]
    refine ⟨_, h₁, _, h₂, _, h₃, ?_⟩
    rw [NamesPhrase.namespaceName, getLast_names]
    rfl
  sound := by
    intro ts name rest h
    simp only [takeNamespace, except_bind_eq_ok, pure, Except.pure, Except.ok.injEq, Prod.mk.injEq] at h
    obtain ⟨_, h₁, _, h₂, _, h₃, rfl, rfl⟩ := h
    obtain ⟨p, hts, hfirst, hmore⟩ := takeNames_sound h₁ h₂ h₃
    refine ⟨p, hts, ?_⟩
    rw [NamesPhrase.namespaceName, getLast_names, hfirst, hmore, NamesPhrase.names, hfirst, hmore]
  injective := names_injective (by decide)

/-! ## Bodies -/

theorem startsBounds_tokens (a : AssociationPhrase) (rest : Tokens) : startsBounds (a.tokens ++ rest) = true := by
  obtain ⟨_ | _ | _ | _, _, _, _, _, _, _⟩ := a <;> rfl

/-- **What a member adds to a body** that the tokens behind it are read as. -/
theorem takeBody_member (fin : Span) (m : MemberPhrase) (rest : Tokens) :
    takeBody fin (m.tokens ++ rest) = (takeBody fin rest).map fun (body, out) =>
      (⟨m.supertypes ++ body.supertypes, m.association?.toList ++ body.associations, body.close⟩, out) := by
  cases m with
  | isA word names =>
    have htake := (reads_supertypes fin).complete names rest trivial
    show takeBody fin (⟨.keyword .isAWord, word⟩ :: (names.tokens .comma ++ rest)) = _
    rw [takeBody]
    split
    · rename_i h; rw [htake] at h; cases h
    · rename_i h; rw [htake] at h; cases h; rfl
  | ofAssociation a =>
    have htake := (reads_association fin).complete a rest trivial
    have hstart := startsBounds_tokens a rest
    show takeBody fin (a.tokens ++ rest) = _
    generalize a.tokens ++ rest = ts at htake hstart
    rw [takeBody.eq_def]
    split
    · cases hstart
    · cases hstart
    · rw [if_pos hstart]
      split
      · rename_i h; rw [htake] at h; cases h
      · rename_i h; rw [htake] at h; cases h; rfl

theorem member_append_inj (a b : MemberPhrase) (r r' : Tokens) (h : a.tokens ++ r = b.tokens ++ r') :
    a = b ∧ r = r' := by
  cases a with
  | isA word names =>
    cases b with
    | isA word' names' =>
      obtain ⟨hword, htail⟩ := List.cons.inj h
      obtain ⟨rfl, rfl⟩ := (reads_supertypes .zero).cancel trivial trivial htail
      cases hword
      exact ⟨rfl, rfl⟩
    | ofAssociation a' =>
      have hstart := startsBounds_tokens a' r'
      rw [← show _ = a'.tokens ++ r' from h] at hstart
      cases hstart
  | ofAssociation a =>
    have hstart := startsBounds_tokens a r
    rw [show a.tokens ++ r = _ from h] at hstart
    cases b with
    | isA word' names' => cases hstart
    | ofAssociation a' =>
      obtain ⟨rfl, rfl⟩ := (reads_association .zero).cancel trivial trivial h
      exact ⟨rfl, rfl⟩

theorem reads_body (fin : Span) : Reads (takeBody fin) BodyPhrase.tokens BodyPhrase.body (fun _ => True) where
  complete p rest _ := by
    obtain ⟨members, close⟩ := p
    show takeBody fin (members.flatMap MemberPhrase.tokens ++ [⟨.mark .closeBrace, close⟩] ++ rest) = _
    induction members with
    | nil => rw [List.flatMap_nil, List.nil_append, List.singleton_append, takeBody]; rfl
    | cons m ms ih =>
      rw [List.flatMap_cons, List.append_assoc, List.append_assoc, takeBody_member, ← List.append_assoc, ih]
      cases m <;> rfl
  sound := by
    intro ts body rest h
    fun_induction takeBody fin ts generalizing body with
    | case1 span rest' =>
      cases h
      exact ⟨⟨[], span⟩, rfl, rfl⟩
    | case3 word ts names more hnames _ ih =>
      obtain ⟨b, hr, hb⟩ := map_eq_ok.1 h
      cases hb
      obtain ⟨⟨members, close⟩, rfl, hbody⟩ := ih hr
      obtain ⟨p, rfl, rfl⟩ := (reads_supertypes fin).sound hnames
      refine ⟨⟨.isA word p :: members, close⟩, ?_, ?_⟩
      · simp [BodyPhrase.tokens, MemberPhrase.tokens]
      · rw [← hbody]; rfl
    | case5 ts _ _ _ a more ha _ ih =>
      obtain ⟨b, hr, hb⟩ := map_eq_ok.1 h
      cases hb
      obtain ⟨⟨members, close⟩, rfl, hbody⟩ := ih hr
      obtain ⟨p, rfl, rfl⟩ := (reads_association fin).sound ha
      refine ⟨⟨.ofAssociation p :: members, close⟩, ?_, ?_⟩
      · simp [BodyPhrase.tokens, MemberPhrase.tokens]
      · rw [← hbody]; rfl
    | _ => cases h
  injective p q h := by
    have hstop : ∀ (m : MemberPhrase) (r : Tokens), ¬ ∃ close, m.tokens ++ r = [⟨.mark .closeBrace, close⟩] := by
      rintro (_ | a) r ⟨close, he⟩
      · cases he
      · have hstart := startsBounds_tokens a r
        rw [show a.tokens ++ r = _ from he] at hstart
        cases hstart
    obtain ⟨hmembers, hclose⟩ := flatMap_append_inj member_append_inj
      (fun ts => ∃ close, ts = [⟨.mark .closeBrace, close⟩]) hstop ⟨p.close, rfl⟩ ⟨q.close, rfl⟩ h
    obtain ⟨_, _⟩ := p
    cases hmembers; cases hclose
    rfl

theorem reads_definition (fin start : Span) (kind : DefinitionKind) : Reads (takeDefinition fin start kind)
    DefinitionPhrase.tokens (DefinitionPhrase.definition start kind) (fun _ => True) where
  complete p rest _ := by
    simp only [takeDefinition, except_bind_eq_ok]
    exact ⟨(p.name, ⟨.mark .openBrace, p.brace⟩ :: (p.body.tokens ++ rest)), rfl,
      _, (reads_mark fin .openBrace).complete p.brace _ trivial, _, (reads_body fin).complete p.body rest trivial, rfl⟩
  sound := by
    intro ts d rest h
    simp only [takeDefinition, except_bind_eq_ok, pure, Except.pure, Except.ok.injEq, Prod.mk.injEq] at h
    obtain ⟨_, h₁, _, h₂, _, h₃, rfl, rfl⟩ := h
    obtain ⟨name, rfl, hname⟩ := (reads_name fin).sound h₁
    obtain ⟨brace, hbrace, -⟩ := (reads_mark fin .openBrace).sound h₂
    obtain ⟨body, hbody, hmeaning⟩ := (reads_body fin).sound h₃
    refine ⟨⟨name, brace, body⟩, ?_, ?_⟩
    · rw [hbrace, hbody]; rfl
    · rw [← hname, ← hmeaning]; rfl
  injective p q h := by
    obtain ⟨hname, h⟩ := (reads_name .zero).cancel trivial trivial h
    obtain ⟨hbrace, h⟩ := (reads_mark .zero .openBrace).cancel trivial trivial h
    have hbody := (reads_body .zero).injective h
    obtain ⟨_, _, _⟩ := p
    cases hname; cases hbrace; cases hbody
    rfl

/-! ## Whole texts -/

theorem definitionKind?_eq_some {k : Keyword} {kind : DefinitionKind} (h : definitionKind? k = some kind) :
    k = kind.keyword := by
  cases k <;> cases h <;> rfl

theorem definitionKind?_keyword (kind : DefinitionKind) : definitionKind? kind.keyword = some kind := by
  cases kind <;> rfl

theorem item_append_inj (a b : ItemPhrase) (r r' : Tokens) (h : a.tokens ++ r = b.tokens ++ r') : a = b ∧ r = r' := by
  cases a with
  | ofNamespace word names =>
    cases b with
    | ofNamespace word' names' =>
      obtain ⟨hword, htail⟩ := List.cons.inj h
      obtain ⟨rfl, rfl⟩ := (reads_namespace .zero .zero).cancel trivial trivial htail
      cases hword
      exact ⟨rfl, rfl⟩
    | ofDefinition word' d =>
      obtain ⟨hword, -⟩ := List.cons.inj h
      obtain ⟨_ | _, _⟩ := word' <;> cases hword
  | ofDefinition word d =>
    cases b with
    | ofNamespace word' names =>
      obtain ⟨hword, -⟩ := List.cons.inj h
      obtain ⟨_ | _, _⟩ := word <;> cases hword
    | ofDefinition word' d' =>
      obtain ⟨hword, htail⟩ := List.cons.inj h
      obtain ⟨rfl, rfl⟩ := (reads_definition .zero .zero .ofClass).cancel trivial trivial htail
      have hinj := Located.map_injective (f := fun k : DefinitionKind => Token.keyword k.keyword)
        (fun _ _ h => DefinitionKind.keyword_injective (Token.keyword.inj h))
      rw [hinj hword]
      exact ⟨rfl, rfl⟩

theorem source_injective : Function.Injective SourcePhrase.tokens := by
  intro p q h
  have hstop : ∀ (i : ItemPhrase) (r : Tokens), i.tokens ++ r ≠ [] := by
    rintro (_ | _) r <;> exact List.cons_ne_nil _ _
  obtain ⟨hitems, -⟩ := flatMap_append_inj item_append_inj (· = []) hstop rfl rfl (congrArg (· ++ []) h)
  obtain ⟨_, _⟩ := p
  cases hitems
  rfl

theorem takeAll_namespace {fin word : Span} {ts rest : Tokens} {name : Located String}
    (h : takeNamespace fin word ts = .ok (name, rest)) :
    takeAll fin none (⟨.keyword .namespaceWord, word⟩ :: ts) = takeAll fin (some name) rest := by
  rw [takeAll]
  split
  · rename_i he; rw [h] at he; cases he
  · rename_i he; rw [h] at he; cases he; rfl

theorem takeAll_definition {fin start : Span} {kind : DefinitionKind} {seen : Option (Located String)}
    {ts rest : Tokens} {d : Located Definition} (h : takeDefinition fin start kind ts = .ok (d, rest)) :
    takeAll fin seen (⟨.keyword kind.keyword, start⟩ :: ts) =
      (takeAll fin seen rest).map fun s => { s with definitions := d :: s.definitions } := by
  rw [takeAll]
  · split
    · rename_i he; rw [definitionKind?_keyword] at he; cases he
    · rename_i he
      rw [definitionKind?_keyword] at he
      cases he
      split
      · rename_i he; rw [h] at he; cases he
      · rename_i he; rw [h] at he; cases he; rfl
  · cases kind <;> exact fun he => by cases he

/-- **Any items are read**, if there is one namespace at most together with the one declared before. -/
theorem takeAll_tokens (fin : Span) : ∀ (items : List ItemPhrase) (seen : Option (Located String)),
    (seen.toList ++ items.filterMap ItemPhrase.namespaceName?).length ≤ 1 →
    takeAll fin seen (items.flatMap ItemPhrase.tokens) =
      .ok ⟨(seen.toList ++ items.filterMap ItemPhrase.namespaceName?).head?, items.filterMap ItemPhrase.definition?⟩
  | [], seen, _ => by
    rw [List.flatMap_nil, takeAll]
    cases seen <;> rfl
  | .ofNamespace word names :: items, none, h => by
    have htake := (reads_namespace fin word).complete names (items.flatMap ItemPhrase.tokens) trivial
    rw [List.flatMap_cons]
    exact (takeAll_namespace htake).trans (takeAll_tokens fin items (some (names.namespaceName word)) h)
  | .ofNamespace word names :: items, some n, h => by
    have hlen : (n :: names.namespaceName word :: items.filterMap ItemPhrase.namespaceName?).length ≤ 1 := h
    simp only [List.length_cons] at hlen
    omega
  | .ofDefinition word d :: items, seen, h => by
    have htake := (reads_definition fin word.span word.value).complete d (items.flatMap ItemPhrase.tokens) trivial
    rw [List.flatMap_cons]
    refine (takeAll_definition htake).trans ?_
    rw [takeAll_tokens fin items seen h]
    rfl

theorem exists_items_of_takeAll {fin : Span} {seen : Option (Located String)} {ts : Tokens} {s : Source}
    (h : takeAll fin seen ts = .ok s) : ∃ items : List ItemPhrase, ts = items.flatMap ItemPhrase.tokens ∧
      (seen.toList ++ items.filterMap ItemPhrase.namespaceName?).length ≤ 1 := by
  fun_induction takeAll fin seen ts generalizing s with
  | case1 seen => exact ⟨[], rfl, by cases seen <;> simp⟩
  | case4 seen word ts name rest hname _ hseen ih =>
    obtain ⟨items, rfl, hlen⟩ := ih h
    obtain ⟨names, rfl, rfl⟩ := (reads_namespace fin word).sound hname
    have hnone : seen = none := Option.not_isSome_iff_eq_none.1 hseen
    rw [hnone]
    exact ⟨.ofNamespace word names :: items, rfl, hlen⟩
  | case7 seen k start ts hk kind hkind d rest hd _ ih =>
    obtain ⟨_, hr, -⟩ := map_eq_ok.1 h
    obtain ⟨items, rfl, hlen⟩ := ih hr
    obtain ⟨p, rfl, rfl⟩ := (reads_definition fin start kind).sound hd
    rw [definitionKind?_eq_some hkind]
    exact ⟨.ofDefinition ⟨kind, start⟩ p :: items, rfl, hlen⟩
  | _ => cases h

/-- **Just the phrases of the grammar are read.**  Either the tokens are those of one phrase only, and what it says is
read; or of none, and reading them comes to a fault. -/
theorem ofTokens_takes_phrases (ts : Tokens) :
    (∃ p : SourcePhrase, p.tokens = ts ∧ ofTokens ts = .ok p.source ∧ ∀ q : SourcePhrase, q.tokens = ts → q = p) ∨
      ((∀ p : SourcePhrase, p.tokens ≠ ts) ∧ ∃ fault, ofTokens ts = .error fault) := by
  have hread : ∀ p : SourcePhrase, ofTokens p.tokens = .ok p.source :=
    fun p => takeAll_tokens (finish p.tokens) p.items none p.single
  cases hts : ofTokens ts with
  | ok s =>
    obtain ⟨items, rfl, hlen⟩ := exists_items_of_takeAll hts
    have hs := hread ⟨items, hlen⟩
    refine .inl ⟨⟨items, hlen⟩, rfl, hts.symm.trans hs, fun q hq => source_injective hq⟩
  | error fault =>
    refine .inr ⟨?_, fault, rfl⟩
    rintro p rfl
    rw [hread p] at hts
    cases hts

end Source
end Accessors
