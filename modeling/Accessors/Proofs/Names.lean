import Mathlib
import Accessors.Proofs.Generation
import Accessors.Proofs.Occurrences
import Accessors.Proofs.Plurals
import Accessors.Proofs.Printing
import Accessors.Proofs.SnakeCase
/-!
# Names of what is read from a text

Every token of a text has a spelling, so a source that is read from one can be written down again
(`Source.writable_of_parse`).  All names in it are words of letters, digits and underscores, and so are those that a graph
makes of them: the roles' names, whether written or taken from their targets (`Graph.Worded`), and what the styles of
naming make of either.
-/
namespace Accessors

/-! ## What is read can be written -/

namespace Token

/-- A token that has a spelling. -/
def Writable (t : Token) : Prop := ∃ word, Spells word t

theorem isName_of_writable {name : String} (h : (Token.name name).Writable) : IsName name := by
  obtain ⟨word, hword⟩ := h
  cases hword with
  | name hname => exact (congrArg isName String.toList_ofList).trans hname

theorem le_of_writable {n : Nat} (h : (Token.number n).Writable) : n ≤ largestNumber := by
  obtain ⟨word, hword⟩ := h
  cases hword with
  | number _ _ hv => exact hv

end Token

/-- All of these tokens have spellings. -/
def Tokens.Writable (ts : Tokens) : Prop := ∀ t ∈ ts, t.value.Writable

namespace Tokens

theorem writable_cons {t : Located Token} {ts : Tokens} :
    Writable (t :: ts) ↔ t.value.Writable ∧ Writable ts := List.forall_mem_cons

theorem writable_append {ts ts' : Tokens} : Writable (ts ++ ts') ↔ Writable ts ∧ Writable ts' := List.forall_mem_append

theorem writable_flatMap {α : Type} {f : α → Tokens} {l : List α} :
    Writable (l.flatMap f) ↔ ∀ a ∈ l, Writable (f a) := by
  unfold Writable
  constructor
  · exact fun h a ha t ht => h t (List.mem_flatMap.2 ⟨a, ha, ht⟩)
  · intro h t ht
    obtain ⟨a, ha, ht⟩ := List.mem_flatMap.1 ht
    exact h a ha t ht

theorem writable_of_lex {text : String} {ts : Tokens} (h : Token.lex text = .ok ts) : Writable ts :=
  (Token.lexFrom_eq_ok_iff.1 h).exists_spells

end Tokens

open Tokens

theorem isName_of_nameIfAnyTokens {name : Option (Located String)} (h : Writable (nameIfAnyTokens name)) :
    ∀ n ∈ name, IsName n.value := fun n hn => by
  cases hn
  exact Token.isName_of_writable (writable_cons.1 h).1

theorem NamesPhrase.isName_of_writable {m : Mark} {p : NamesPhrase} (h : Writable (p.tokens m)) :
    ∀ n ∈ p.names, IsName n.value := by
  obtain ⟨hfirst, hrest⟩ := writable_cons.1 h
  have hmore := writable_flatMap.1 (writable_append.1 hrest).1
  refine List.forall_mem_cons.2 ⟨Token.isName_of_writable hfirst, fun n hn => ?_⟩
  obtain ⟨separated, hs, rfl⟩ := List.mem_map.1 hn
  exact Token.isName_of_writable (writable_cons.1 (writable_cons.1 (hmore separated hs)).2).1

theorem BoundsPhrase.writable_bounds {p : BoundsPhrase} (h : Writable p.tokens) : p.bounds.value.Writable := by
  cases p with
  | any star => exact ⟨Nat.zero_le _, fun _ hu => by cases hu⟩
  | exactly n pos =>
    have hn := Token.le_of_writable (writable_cons.1 h).1
    exact ⟨hn, fun _ hu => by cases hu; exact ⟨pos, Nat.le_refl _, hn⟩⟩
  | atLeast lower dots star => exact ⟨Token.le_of_writable (writable_cons.1 h).1, fun _ hu => by cases hu⟩
  | between lower dots upper pos le =>
    obtain ⟨hlower, hrest⟩ := writable_cons.1 h
    have hupper := (writable_cons.1 (writable_cons.1 hrest).2).1
    exact ⟨Token.le_of_writable hlower, fun _ hu => by cases hu; exact ⟨pos, le, Token.le_of_writable hupper⟩⟩

theorem AssociationPhrase.writable_association {p : AssociationPhrase} (h : Writable p.tokens) :
    p.association.value.Writable := by
  obtain ⟨hownerBounds, h⟩ := writable_append.1 h
  obtain ⟨hownerRole, h⟩ := writable_append.1 h
  obtain ⟨htargetBounds, h⟩ := writable_append.1 (writable_cons.1 h).2
  obtain ⟨htarget, h⟩ := writable_cons.1 h
  exact ⟨BoundsPhrase.writable_bounds hownerBounds, isName_of_nameIfAnyTokens hownerRole,
    BoundsPhrase.writable_bounds htargetBounds, Token.isName_of_writable htarget,
    isName_of_nameIfAnyTokens (writable_append.1 h).1⟩

theorem MemberPhrase.isName_of_writable {p : MemberPhrase} (h : Writable p.tokens) :
    ∀ n ∈ p.supertypes, IsName n.value := by
  cases p with
  | isA word names => exact NamesPhrase.isName_of_writable (writable_cons.1 h).2
  | ofAssociation a => exact fun _ hn => absurd hn List.not_mem_nil

theorem MemberPhrase.writable_association {p : MemberPhrase} (h : Writable p.tokens) {a : Located Association}
    (ha : p.association? = some a) : a.value.Writable := by
  cases p with
  | isA word names => cases ha
  | ofAssociation p =>
    cases ha
    exact AssociationPhrase.writable_association h

theorem DefinitionPhrase.writable_definition {p : DefinitionPhrase} (h : Writable p.tokens) (start : Span)
    (kind : DefinitionKind) : (p.definition start kind).value.Writable := by
  obtain ⟨hname, h⟩ := writable_cons.1 h
  have hmembers := writable_flatMap.1 (writable_append.1 (writable_cons.1 h).2).1
  refine ⟨Token.isName_of_writable hname, fun n hn => ?_, fun a ha => ?_⟩
  · obtain ⟨member, hm, hn⟩ := List.mem_flatMap.1 hn
    exact MemberPhrase.isName_of_writable (hmembers member hm) n hn
  · obtain ⟨member, hm, ha⟩ := List.mem_filterMap.1 ha
    exact MemberPhrase.writable_association (hmembers member hm) ha

/-- **What is read from a text can be written.** -/
theorem Source.writable_of_parse {text : String} {ts : Tokens} {s : Source} (hts : Token.lex text = .ok ts)
    (hs : Source.ofTokens ts = .ok s) : s.Writable := by
  have hwritable := writable_of_lex hts
  obtain ⟨items, rfl, hlen⟩ := exists_items_of_takeAll hs
  have hitems := writable_flatMap.1 hwritable
  rw [ofTokens, takeAll_tokens _ items none hlen, Except.ok.injEq] at hs
  subst hs
  constructor
  · intro n hn
    obtain ⟨item, hitem, hname⟩ := List.mem_filterMap.1 (List.mem_of_mem_head? hn)
    cases item with
    | ofDefinition word d => cases hname
    | ofNamespace word segments =>
      cases hname
      have hnames := NamesPhrase.isName_of_writable (writable_cons.1 (hitems _ hitem)).2
      refine ⟨segments.names.map Located.value, fun hnil => segments.names_ne_nil (List.map_eq_nil_iff.1 hnil), ?_, rfl⟩
      exact List.forall_mem_map.2 hnames
  · intro d hd
    obtain ⟨item, hitem, hdefinition⟩ := List.mem_filterMap.1 hd
    cases item with
    | ofNamespace word segments => cases hdefinition
    | ofDefinition word d =>
      cases hdefinition
      exact DefinitionPhrase.writable_definition (writable_cons.1 (hitems _ hitem)).2 word.span word.value

/-! ## Words -/

/-- Letters, digits and underscores only. -/
def IsWord (text : String) : Prop := ∀ c ∈ text.toList, Token.isNameChar c = true

instance (text : String) : Decidable (IsWord text) := List.decidableBAll _ text.toList

theorem isWord_of_isName {name : String} (h : IsName name) : IsWord name := by
  unfold IsName Token.isName at h
  intro c hc
  split at h
  · cases h
  · rename_i first more heq
    simp only [Bool.and_eq_true, List.all_eq_true] at h
    obtain ⟨⟨hstart, hmore⟩, -⟩ := h
    rw [heq] at hc
    rcases List.mem_cons.1 hc with rfl | hc
    · simp only [Token.isNameStart, Token.isNameChar, Char.isAlphanum, Bool.or_eq_true] at hstart ⊢
      exact hstart.imp_left .inl
    · exact hmore c hc

theorem isWord_append {a b : String} : IsWord (a ++ b) ↔ IsWord a ∧ IsWord b := by
  unfold IsWord
  rw [String.toList_append, List.forall_mem_append]

theorem isWord_ofList {cs : List Char} : IsWord (String.ofList cs) ↔ ∀ c ∈ cs, Token.isNameChar c = true := by
  unfold IsWord
  rw [String.toList_ofList]

theorem Method.Kind.isWord_text (k : Kind) : IsWord k.text := by
  cases k <;> decide

/-- Characters that no word holds are in no word. -/
theorem IsWord.lacks {text : String} (h : IsWord text) {cs : List Char}
    (hcs : cs.any Token.isNameChar = false) : Lacks cs text := fun c hc hm =>
  List.any_eq_false.1 hcs c hc (h c hm)

namespace LetterCase

theorem lt_of_isNameChar {c : Char} (h : Token.isNameChar c = true) : c.toNat < 128 := by
  simp only [Token.isNameChar, Char.isAlphanum, Char.isAlpha, Char.isUpper, Char.isLower, Char.isDigit,
    Bool.or_eq_true, Bool.and_eq_true, decide_eq_true_eq, UInt32.le_iff_toNat_le] at h
  rcases h with ((⟨-, h⟩ | ⟨-, h⟩) | ⟨-, h⟩) | rfl
  · exact Nat.lt_of_le_of_lt h (by decide)
  · exact Nat.lt_of_le_of_lt h (by decide)
  · exact Nat.lt_of_le_of_lt h (by decide)
  · decide

/-- What holds of each ASCII character that a word may have holds of all characters in words. -/
theorem of_isNameChar {p : Char → Prop} (h : ∀ n < 128, Token.isNameChar (Char.ofNat n) = true → p (Char.ofNat n))
    {c : Char} (hc : Token.isNameChar c = true) : p c :=
  of_ascii (p := fun c => Token.isNameChar c = true → p c) h (lt_of_isNameChar hc) hc

theorem isNameChar_of_mem_toUpper {c d : Char} (hc : Token.isNameChar c = true) (hd : d ∈ toUpper c) :
    Token.isNameChar d = true := by
  unfold toUpper at hd
  rw [if_pos (lt_of_isNameChar hc), List.mem_singleton] at hd
  rw [hd]
  exact of_isNameChar (p := fun c => Token.isNameChar c.toUpper = true) (by decide) hc

theorem isNameChar_of_mem_toLower {c d : Char} (hc : Token.isNameChar c = true) (hd : d ∈ toLower c) :
    Token.isNameChar d = true := by
  unfold toLower at hd
  rw [if_pos (lt_of_isNameChar hc), List.mem_singleton] at hd
  rw [hd]
  exact of_isNameChar (p := fun c => Token.isNameChar c.toLower = true) (by decide) hc

end LetterCase

namespace Name

variable {name : String}

theorem mem_of_mem_singularChars {cs : List Char} {c : Char} (h : c ∈ singularChars cs) : c ∈ cs ∨ c = 'y' := by
  rcases singularChars_cases cs with hcase | ⟨stem, -, hcs, hcase⟩ | ⟨stem, hcs, -, hcase⟩ <;> rw [hcase] at h
  · exact .inl h
  · rw [hcs]
    exact (List.mem_append.1 h).imp (List.mem_append_left _) List.mem_singleton.1
  · rw [hcs]
    exact .inl (List.mem_append_left _ h)

theorem isWord_singular (h : IsWord name) : IsWord (singular name) := isWord_ofList.2 fun c hc => by
  rcases mem_of_mem_singularChars hc with hc | rfl
  · exact h c hc
  · rfl

/-- What a method deals with is a word if its role is. -/
theorem isWord_partner {m : Method} (h : IsWord m.role) :
    IsWord (if m.kind.isPerPartner then singular m.role else m.role) := by
  split
  · exact isWord_singular h
  · exact h

theorem isWord_capitalized (h : IsWord name) : IsWord (capitalized name) := by
  unfold capitalized
  split
  · exact fun _ hc => absurd hc List.not_mem_nil
  · rename_i first rest heq
    unfold IsWord at h
    rw [heq, List.forall_mem_cons] at h
    exact isWord_ofList.2 (List.forall_mem_append.2 ⟨fun _ => LetterCase.isNameChar_of_mem_toUpper h.1, h.2⟩)

theorem isWord_uncapitalized (h : IsWord name) : IsWord (uncapitalized name) := by
  unfold uncapitalized
  split
  · exact fun _ hc => absurd hc List.not_mem_nil
  · rename_i first rest heq
    unfold IsWord at h
    rw [heq, List.forall_mem_cons] at h
    exact isWord_ofList.2 (List.forall_mem_append.2 ⟨fun _ => LetterCase.isNameChar_of_mem_toLower h.1, h.2⟩)

theorem isWord_ofRole (h : IsWord name) (m : Multiplicity) : IsWord (ofRole name m) := by
  cases m with
  | one => exact isWord_uncapitalized h
  | many => exact isWord_append.2 ⟨isWord_uncapitalized h, by decide⟩

theorem isWord_snake (h : IsWord name) : IsWord (snake name) := by
  intro d hd
  rcases (parted_snake fun c hc => LetterCase.lt_of_isNameChar (h c hc)).mem hd with rfl | ⟨c, hc, rfl⟩
  · rfl
  · exact LetterCase.of_isNameChar (p := fun c => Token.isNameChar c.toLower = true) (by decide) (h c hc)

end Name

/-! ## Graphs -/

namespace Graph

/-- All names in a graph are words, and its namespace is some with dots between them. -/
structure Worded (g : Graph) : Prop where
  types : ∀ n ∈ g.types, IsWord n.name
  roles : ∀ n ∈ g.types, ∀ r ∈ n.roles, IsWord r.name
  namespaceName : ∀ name ∈ g.namespaceName, ∃ names : List String, (∀ n ∈ names, IsWord n) ∧
    name = ".".intercalate names

theorem isWord_roleName {written : Option (Located String)} {target : String} {b : Bounds}
    (hwritten : ∀ name ∈ written, IsName name.value) (htarget : IsName target) : IsWord (roleName written target b) := by
  cases written with
  | none => exact Name.isWord_ofRole (isWord_of_isName htarget) _
  | some name => exact isWord_of_isName (hwritten name rfl)

theorem isWord_of_declaredRole {ds : List Definition} {t : TypeId} {d : Definition} {a : Located Association} {r : Role}
    (ha : a.value.Writable) (h : declaredRole ds t d a = .ok r) : IsWord r.name := by
  unfold declaredRole at h
  split at h
  · cases h
  · cases h
    exact isWord_roleName ha.targetRole ha.target

theorem isWord_of_oppositeRole? {ds : List Definition} {t : TypeId} {d : Definition} {a : Located Association} {r : Role}
    (hd : d.Writable) (ha : a.value.Writable) (h : oppositeRole? ds t d a = some r) : IsWord r.name := by
  unfold oppositeRole? at h
  split at h
  · split at h
    · cases h
      exact isWord_roleName ha.ownerRole hd.name
    · cases h
  · cases h

/-- **The names in the graph of a source that can be written** are words. -/
theorem worded_of_ofSource {s : Source} {g : Graph} (hs : s.Writable) (h : ofSource s = .ok g) : g.Worded := by
  have hdefinitions : ∀ d ∈ s.definitions.map Located.value, d.Writable := List.forall_mem_map.2 hs.definitions
  constructor
  · intro n hn
    have hname : n.name ∈ g.types.map TypeNode.name := List.mem_map_of_mem hn
    rw [names_of_ofSource h] at hname
    obtain ⟨d, hd, hname⟩ := List.mem_map.1 hname
    exact hname ▸ isWord_of_isName (hs.definitions d hd).name
  · intro n hn r hr
    obtain ⟨i, hi⟩ := List.mem_iff_getElem?.1 hn
    have hlt : i < s.definitions.length := size_of_ofSource h ▸ (List.getElem?_eq_some_iff.1 hi).1
    obtain ⟨her, declared, -, hdeclared, hnode⟩ := exists_node_of_ofSource h (List.getElem?_eq_getElem hlt)
    rw [hi, Option.some.injEq] at hnode
    subst hnode
    rcases List.mem_append.1 hr with hr | hr
    · obtain ⟨k, hk⟩ := List.mem_iff_getElem?.1 hr
      obtain ⟨a, ha, hrole⟩ := getElem?_of_forall₂ (forall₂_of_mapM_eq_ok _ hdeclared) hk
      have hd := hs.definitions _ (List.getElem_mem hlt)
      exact isWord_of_declaredRole (hd.associations a (List.mem_of_getElem? ha)) hrole
    · obtain ⟨⟨d, k⟩, hd, hrole⟩ := List.mem_flatMap.1 (List.mem_filter.1 hr).1
      obtain ⟨a, ha, hrole⟩ := List.mem_filterMap.1 hrole
      have hd := hdefinitions d (List.mem_of_getElem? (List.mem_zipIdx_iff_getElem?.1 hd))
      exact isWord_of_oppositeRole? hd (hd.associations a ha) hrole
  · intro name hname
    obtain ⟨-, heritages, declared, -, -, rfl⟩ := ofSource_eq_ok.1 h
    obtain ⟨written, hwritten, rfl⟩ := Option.map_eq_some_iff.1 hname
    obtain ⟨names, -, hnames, heq⟩ := hs.namespaceName written hwritten
    exact ⟨names, fun n hn => isWord_of_isName (hnames n hn), heq⟩

/-- **A text has a graph** just if each stage of reading it succeeds. -/
theorem parse_eq_ok {text : String} {g : Graph} : Graph.parse text = .ok g ↔
    ∃ ts s, Token.lex text = .ok ts ∧ Source.ofTokens ts = .ok s ∧ Graph.ofSource s = .ok g := by
  unfold parse Source.parse
  cases Token.lex text with
  | error f => simp [bind, Except.bind]
  | ok ts =>
    cases hs : Source.ofTokens ts with
    | error f => simp [bind, Except.bind, hs]
    | ok s => cases hg : Graph.ofSource s <;> simp [bind, Except.bind, hs, hg, Except.mapError]

theorem worded_of_parse {text : String} {g : Graph} (h : Graph.parse text = .ok g) : g.Worded := by
  obtain ⟨ts, s, hts, hs, hg⟩ := parse_eq_ok.1 h
  exact worded_of_ofSource (Source.writable_of_parse hts hs) hg

namespace Worded

variable {g : Graph} (hg : g.Worded)

include hg

theorem isWord_name (t : TypeId) : IsWord (g.name t) := by
  unfold name
  cases hn : g.node? t with
  | none => exact fun _ hc => absurd hc List.not_mem_nil
  | some n => exact hg.types n (List.mem_of_getElem? hn)

theorem isWord_of_mem_roles {t : TypeId} {r : Role} (hr : r ∈ g.roles t) : IsWord r.name := by
  obtain ⟨n, hn, hr⟩ := mem_roles.1 hr
  exact hg.roles n (List.mem_of_getElem? hn) r hr

/-- The roles of methods have words for names. -/
theorem isWord_role {o : TypeId} {ms : List Method} (h : (g.reportOn o).methods? = some ms) {m : Method}
    (hm : m ∈ ms) : IsWord m.role := by
  obtain ⟨d, hd, hsig⟩ := (mem_signatures_reportOn h).1 (List.mem_map_of_mem hm)
  obtain ⟨kind, -, hsig⟩ := List.mem_map.1 hsig
  have hrole : d.role.name = m.role := congrArg Method.Signature.role hsig
  obtain ⟨⟨resolved, hresolved, hd⟩, -⟩ := Resolution.mem_navigable.1 hd
  obtain ⟨c, hc, hdc, -⟩ := Resolution.mem_declarations_resolve hresolved hd
  obtain ⟨t, path, -, -, hr, -⟩ := Resolution.mem_candidates hc
  rw [← hrole, hdc]
  exact hg.isWord_of_mem_roles hr

end Worded
end Graph
end Accessors
