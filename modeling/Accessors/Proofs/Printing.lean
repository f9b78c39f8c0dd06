import Accessors.Failure
import Accessors.Proofs.Lexing
import Accessors.Proofs.Parsing
import Accessors.Proofs.Placement
/-!
# Writing sources down

`Source.text` writes a source as a text.  A source that can be written is read back from it, and from every other text
with the same tokens, but for places; and the graph of the text, or the message that there is none, is that of the source
(`Source.is_read_from_text`).

The text is cut into the tokens of the source word by word (`Token.Lays`); these tokens are those of a phrase that says
what the source does (`Source.Writable.exists_items`); and what is read does not depend on where the tokens stand.
-/
namespace Accessors

/-! ## What can be written, and how -/

/-- The parts of a text between its dots. -/
def segments (text : String) : List String := (text.toList.splitOn '.').map String.ofList

namespace Bounds

def tokens (b : Bounds) : List Token :=
  match b.upper with
  | none => if b.lower = 0 then [.mark .star] else [.number b.lower, .mark .dots, .mark .star]
  | some upper => if b.lower = upper then [.number upper] else [.number b.lower, .mark .dots, .number upper]

/-- Bounds that make sense, of numbers that are not too large to be read. -/
structure Writable (b : Bounds) : Prop where
  lower : b.lower ≤ Token.largestNumber
  upper : ∀ u ∈ b.upper, 1 ≤ u ∧ b.lower ≤ u ∧ u ≤ Token.largestNumber

end Bounds

/-- A name that can be written. -/
def IsName (name : String) : Prop := Token.isName name.toList = true

instance (name : String) : Decidable (IsName name) := inferInstanceAs (Decidable (_ = true))

theorem Keyword.ofText?_of_isName {name : String} (h : IsName name) : Keyword.ofText? name = none := by
  unfold IsName Token.isName at h
  split at h
  · cases h
  · rw [Bool.and_eq_true, String.ofList_toList] at h
    exact Option.isNone_iff_eq_none.1 h.2

/-- A token as a word. -/
def Token.text : Token → String
  | .keyword k => k.text
  | .name text => text
  | .number n => toString n
  | .mark m => String.ofList m.chars

def Direction.text (d : Direction) : String := String.ofList d.mark.chars

namespace Association

structure Writable (a : Association) : Prop where
  ownerBounds : a.ownerBounds.value.Writable
  ownerRole : ∀ r ∈ a.ownerRole, IsName r.value
  targetBounds : a.targetBounds.value.Writable
  target : IsName a.target.value
  targetRole : ∀ r ∈ a.targetRole, IsName r.value

/-- `bounds [name] arrow bounds name [name] ;` -/
def words (a : Association) : List String :=
  a.ownerBounds.value.text :: ((a.ownerRole.map Located.value).toList ++ a.direction.text ::
    a.targetBounds.value.text :: a.target.value :: ((a.targetRole.map Located.value).toList ++ [";"]))

def tokens (a : Association) : List Token :=
  a.ownerBounds.value.tokens ++ ((a.ownerRole.map fun r => .name r.value).toList ++ .mark a.direction.mark ::
    (a.targetBounds.value.tokens ++ .name a.target.value ::
      ((a.targetRole.map fun r => .name r.value).toList ++ [.mark .semicolon])))

end Association

namespace Definition

structure Writable (d : Definition) : Prop where
  name : IsName d.name.value
  supertypes : ∀ n ∈ d.supertypes, IsName n.value
  associations : ∀ a ∈ d.associations, a.value.Writable

/-- `isA name (, name)* ;`, or nothing if there are no names. -/
def clauseWords : List String → List String
  | [] => []
  | names => "isA" :: (names.intersperse "," ++ [";"])

def clauseTokens : List String → List Token
  | [] => []
  | names => .keyword .isAWord :: ((names.map .name).intersperse (.mark .comma) ++ [.mark .semicolon])

/-- The supertypes in one clause, then the associations. -/
def words (d : Definition) : List String :=
  d.kind.text :: d.name.value :: "\x7b" :: (clauseWords (d.supertypes.map Located.value) ++
    (d.associations.flatMap (fun a => a.value.words) ++ ["\x7d"]))

def tokens (d : Definition) : List Token :=
  .keyword d.kind.keyword :: .name d.name.value :: .mark .openBrace ::
    (clauseTokens (d.supertypes.map Located.value) ++
      (d.associations.flatMap (fun a => a.value.tokens) ++ [.mark .closeBrace]))

end Definition

namespace Source

/-- A source with a namespace of names with dots between them, if it has one, and with definitions that can be
written. -/
structure Writable (s : Source) : Prop where
  namespaceName : ∀ n ∈ s.namespaceName, ∃ names : List String, names ≠ [] ∧ (∀ name ∈ names, IsName name) ∧
    n.value = ".".intercalate names
  definitions : ∀ d ∈ s.definitions, d.value.Writable

def namespaceWords (name : String) : List String := ["namespace", name, ";"]

def namespaceTokens (name : String) : List Token :=
  .keyword .namespaceWord :: (((segments name).map .name).intersperse (.mark .dot) ++ [.mark .semicolon])

def words (s : Source) : List String :=
  s.namespaceName.elim [] (fun n => namespaceWords n.value) ++ s.definitions.flatMap (fun d => d.value.words)

def tokens (s : Source) : List Token :=
  s.namespaceName.elim [] (fun n => namespaceTokens n.value) ++ s.definitions.flatMap (fun d => d.value.tokens)

/-- The source as a text, with a space between words. -/
def text (s : Source) : String := " ".intercalate s.words

/-- The source as a text with a space between any two tokens, also within bounds and the namespace. -/
def spacedText (s : Source) : String := " ".intercalate (s.tokens.map Token.text)

end Source

/-! ## Texts cut into tokens -/

namespace Token

/-- A text, wherever it starts and with `after` behind it, is divided into tokens of these values. -/
def Cut (text after : List Char) (values : List Token) : Prop :=
  ∀ start, ∃ ts, Divided start text after ts ∧ ts.map Located.value = values

namespace Cut

variable {word text after : List Char} {t : Token} {vs : List Token}

theorem nil : Cut [] after [] := fun _ => ⟨[], .nil, rfl⟩

theorem gap (h : IsGap word (text ++ after)) (more : Cut text after vs) : Cut (word ++ text) after vs := fun start => by
  obtain ⟨ts, hdiv, hvs⟩ := more (start + byteWidth word)
  exact ⟨ts, .gap h hdiv, hvs⟩

theorem token (h : Spells word t) (hend : t.Ends (text ++ after)) (more : Cut text after vs) :
    Cut (word ++ text) after (t :: vs) := fun start => by
  obtain ⟨ts, hdiv, rfl⟩ := more (start + byteWidth word)
  exact ⟨_, .token h hend hdiv, rfl⟩

theorem single (h : Spells word t) (hend : t.Ends after) : Cut word after [t] := by
  rw [← List.append_nil word]
  exact token h hend nil

end Cut

theorem Divided.append {start : Nat} {a b after : List Char} {ts ts' : List (Located Token)}
    (h : Divided start a (b ++ after) ts) (h' : Divided (start + byteWidth a) b after ts') :
    Divided start (a ++ b) after (ts ++ ts') := by
  generalize hrest : b ++ after = rest at h
  induction h with
  | nil => exact h'
  | gap h _ ih =>
    subst hrest
    rw [byteWidth_append, ← Nat.add_assoc] at h'
    rw [List.append_assoc]
    exact .gap (by rwa [List.append_assoc]) (ih h' rfl)
  | token h hend _ ih =>
    subst hrest
    rw [byteWidth_append, ← Nat.add_assoc] at h'
    rw [List.append_assoc]
    exact .token h (by rwa [List.append_assoc]) (ih h' rfl)

theorem Cut.append {a b after : List Char} {vs vs' : List Token} (h : Cut a (b ++ after) vs) (h' : Cut b after vs') :
    Cut (a ++ b) after (vs ++ vs') := fun start => by
  obtain ⟨ts, hdiv, rfl⟩ := h start
  obtain ⟨ts', hdiv', rfl⟩ := h' (start + byteWidth a)
  exact ⟨ts ++ ts', hdiv.append hdiv', List.map_append⟩

/-- What comes behind a word of a text that is written with spaces. -/
def Spaced (after : List Char) : Prop := ∀ c ∈ after.head?, c = ' '

theorem ends_of_spaced {after : List Char} (h : Spaced after) (t : Token) : t.Ends after := fun c hc => by
  rw [h c hc]
  cases t with
  | mark m => cases m <;> rfl
  | _ => rfl

/-- A word is cut into tokens of these values. -/
def Yields (word : String) (values : List Token) : Prop := ∀ after, Spaced after → Cut word.toList after values

theorem yields_of_spells {word : String} {t : Token} (h : Spells word.toList t) : Yields word [t] :=
  fun _ hafter => .single h (ends_of_spaced hafter t)

theorem spells_name {name : String} (h : IsName name) : Spells name.toList (.name name) := by
  have hspells := Spells.name h
  rwa [String.ofList_toList] at hspells

theorem yields_name {name : String} (h : IsName name) : Yields name [.name name] := yields_of_spells (spells_name h)

theorem yields_mark (m : Mark) : Yields (String.ofList m.chars) [.mark m] :=
  yields_of_spells (by rw [String.toList_ofList]; exact .mark m)

theorem spells_number {n : Nat} (h : n ≤ largestNumber) : Spells (toString n).toList (.number n) := by
  have hdigits : ∀ c ∈ Nat.toDigits 10 n, c.isDigit = true := fun c hc =>
    Nat.isDigit_of_mem_toDigits (by omega) (by omega) hc
  have hspells := Spells.number (List.ne_nil_of_length_pos Nat.length_toDigits_pos) hdigits
    (by rwa [Nat.ofDigitChars_ten_toDigits])
  rw [Nat.ofDigitChars_ten_toDigits] at hspells
  show Spells n.repr.toList _
  rwa [Nat.toList_repr]

theorem Spells.text {word : List Char} {t : Token} (h : Spells word t) : Spells t.text.toList t := by
  cases h with
  | keyword k => exact .keyword k
  | mark m => rw [Token.text, String.toList_ofList]; exact .mark m
  | name h => rw [Token.text, String.toList_ofList]; exact .name h
  | number _ _ hv => exact spells_number hv

theorem Divided.exists_spells {start : Nat} {text after : List Char} {ts : List (Located Token)}
    (h : Divided start text after ts) : ∀ t ∈ ts, ∃ word, Spells word t.value := by
  induction h with
  | nil => exact fun _ ht => absurd ht List.not_mem_nil
  | gap _ _ ih => exact ih
  | token h _ _ ih => exact List.forall_mem_cons.2 ⟨⟨_, h⟩, ih⟩

theorem yields_bounds {b : Bounds} (h : b.Writable) : Yields b.text b.tokens := fun after hafter => by
  have hnumber : ∀ n rest, (Token.number n).Ends ('.' :: rest) := fun n rest c hc => by cases hc; rfl
  have hdots : ∀ rest, (Token.mark .dots).Ends rest := fun rest c _ => rfl
  obtain ⟨lower, upper⟩ := b
  cases upper with
  | none =>
    unfold Bounds.text Bounds.tokens
    dsimp only
    split
    · exact .single (.mark .star) (ends_of_spaced hafter _)
    · rw [String.toList_append]
      exact .token (spells_number h.lower) (hnumber _ _)
        (.token (.mark .dots) (hdots _) (.single (.mark .star) (ends_of_spaced hafter _)))
  | some upper =>
    obtain ⟨-, -, hupper⟩ := h.upper upper rfl
    unfold Bounds.text Bounds.tokens
    dsimp only
    split
    · rename_i heq
      rw [heq]
      exact .single (spells_number hupper) (ends_of_spaced hafter _)
    · rw [String.toList_append, String.toList_append, List.append_assoc]
      exact .token (spells_number h.lower) (hnumber _ _)
        (.token (.mark .dots) (hdots _) (.single (spells_number hupper) (ends_of_spaced hafter _)))

/-! ### Names with dots between them -/

theorem dot_notMem_of_isName {word : List Char} (h : isName word = true) : '.' ∉ word := by
  cases word with
  | nil => exact List.not_mem_nil
  | cons c more =>
    simp only [isName, Bool.and_eq_true, List.all_eq_true] at h
    obtain ⟨⟨hstart, hmore⟩, -⟩ := h
    intro hm
    rcases List.mem_cons.1 hm with rfl | hm
    · cases hstart
    · cases hmore '.' hm

theorem exists_intercalate_cons (sep word : List Char) (words : List (List Char)) :
    ∃ rest, sep.intercalate (word :: words) = word ++ rest := by
  cases words with
  | nil => exact ⟨[], by rw [List.intercalate_singleton, List.append_nil]⟩
  | cons next words => exact ⟨_, by rw [List.intercalate_cons_cons, List.append_assoc]⟩

theorem cut_intercalate {after : List Char} (hafter : Spaced after) : ∀ names : List String, names ≠ [] →
    (∀ n ∈ names, IsName n) →
    Cut (['.'].intercalate (names.map String.toList)) after ((names.map Token.name).intersperse (.mark .dot))
  | [first], _, h => by
    have hyields := yields_name (h first List.mem_cons_self) after hafter
    simpa using hyields
  | first :: next :: names, _, h => by
    have ih := cut_intercalate hafter (next :: names) (List.cons_ne_nil _ _)
      (fun n hn => h n (List.mem_cons_of_mem _ hn))
    rw [List.map_cons, List.map_cons, List.intercalate_cons_cons, List.append_assoc]
    refine .token (spells_name (h first List.mem_cons_self)) (fun c hc => by cases hc; rfl)
      (.token (.mark .dot) (fun c hc => ?_) ih)
    -- the next name does not start with a dot
    have hnext : IsName next := h next (List.mem_cons_of_mem _ List.mem_cons_self)
    obtain ⟨rest, hrest⟩ := exists_intercalate_cons ['.'] next.toList (names.map String.toList)
    rw [hrest, List.append_assoc, List.head?_append_of_ne_nil _ (spells_name hnext).ne_nil] at hc
    have hdot : c ≠ '.' := fun h => dot_notMem_of_isName hnext (h ▸ List.mem_of_head? hc)
    simpa [goesOn] using hdot

theorem segments_intercalate {names : List String} (hne : names ≠ []) (h : ∀ n ∈ names, IsName n) :
    segments (".".intercalate names) = names := by
  have hdot : ∀ word ∈ names.map String.toList, '.' ∉ word := fun word hword hm => by
    obtain ⟨n, hn, rfl⟩ := List.mem_map.1 hword
    exact dot_notMem_of_isName (h n hn) hm
  unfold segments
  rw [String.toList_intercalate]
  show ((['.'].intercalate (names.map String.toList)).splitOn '.').map String.ofList = names
  rw [List.splitOn_intercalate '.' hdot (fun hnil => hne (List.map_eq_nil_iff.1 hnil)), List.map_map]
  exact (List.map_congr_left (fun n _ => String.ofList_toList)).trans (List.map_id names)

/-- **A namespace is cut into its names and dots.** -/
theorem yields_namespace {names : List String} (hne : names ≠ []) (h : ∀ n ∈ names, IsName n) :
    Yields (".".intercalate names) ((names.map Token.name).intersperse (.mark .dot)) := fun after hafter => by
  rw [String.toList_intercalate]
  exact cut_intercalate hafter names hne h

/-! ### Words with spaces between them -/

/-- Words, and the values of the tokens that they are cut into. -/
inductive Lays : List String → List Token → Prop
  | nil : Lays [] []
  | cons {word : String} {words : List String} {vs vs' : List Token} (h : Yields word vs) (more : Lays words vs') :
      Lays (word :: words) (vs ++ vs')

namespace Lays

variable {words words' : List String} {vs vs' : List Token}

theorem append (h : Lays words vs) (h' : Lays words' vs') : Lays (words ++ words') (vs ++ vs') := by
  induction h with
  | nil => exact h'
  | cons h _ ih =>
    rw [List.append_assoc]
    exact .cons h ih

theorem single {word : String} (h : Yields word vs) : Lays [word] vs := by
  rw [← List.append_nil vs]
  exact .cons h .nil

/-- A word that is one token. -/
theorem token {word : String} {t : Token} (h : Yields word [t]) (more : Lays words vs) :
    Lays (word :: words) (t :: vs) :=
  .cons h more

theorem flatMap {α : Type} {f : α → List String} {g : α → List Token} : ∀ {l : List α}, (∀ a ∈ l, Lays (f a) (g a)) →
    Lays (l.flatMap f) (l.flatMap g)
  | [], _ => .nil
  | a :: l, h => by
    rw [List.flatMap_cons, List.flatMap_cons]
    exact (h a List.mem_cons_self).append (flatMap (fun b hb => h b (List.mem_cons_of_mem _ hb)))

/-- **Words with spaces between them are cut one by one.** -/
theorem cut (h : Lays words vs) : Cut (" ".intercalate words).toList [] vs := by
  rw [String.toList_intercalate]
  induction h with
  | nil => exact .nil
  | @cons word words vs vs' h more ih =>
    cases words with
    | nil =>
      cases more
      rw [List.append_nil, List.map_singleton, List.intercalate_singleton]
      exact h [] (fun c hc => by cases hc)
    | cons next words =>
      rw [List.map_cons, List.map_cons, List.intercalate_cons_cons, List.append_assoc]
      exact (h _ (fun c hc => by cases hc; rfl)).append (.gap (.blank rfl) ih)

theorem ofTokens : ∀ {ts : List Token}, (∀ t ∈ ts, ∃ word, Spells word t) → Lays (ts.map Token.text) ts
  | [], _ => .nil
  | t :: ts, h => by
    obtain ⟨⟨_, hspells⟩, hrest⟩ := List.forall_mem_cons.1 h
    exact token (yields_of_spells hspells.text) (ofTokens hrest)

/-! ### The words of a source -/

theorem ofSeparated (m : Mark) : ∀ {names : List String}, (∀ n ∈ names, IsName n) →
    Lays (names.intersperse (String.ofList m.chars)) ((names.map Token.name).intersperse (.mark m))
  | [], _ => .nil
  | [first], h => single (yields_name (h first List.mem_cons_self))
  | first :: _ :: _, h =>
    token (yields_name (h first List.mem_cons_self)) (token (yields_mark m)
      (ofSeparated m (fun n hn => h n (List.mem_cons_of_mem _ hn))))

theorem ofNameIfAny {name : Option (Located String)} (h : ∀ n ∈ name, IsName n.value) :
    Lays (name.map Located.value).toList (name.map fun n => Token.name n.value).toList := by
  cases name with
  | none => exact .nil
  | some n => exact single (yields_name (h n rfl))

theorem ofAssociation {a : Association} (h : a.Writable) : Lays a.words a.tokens := by
  refine .cons (yields_bounds h.ownerBounds) ((ofNameIfAny h.ownerRole).append ?_)
  refine token (yields_mark a.direction.mark) (.cons (yields_bounds h.targetBounds) ?_)
  refine token (yields_name h.target) ((ofNameIfAny h.targetRole).append ?_)
  exact single (yields_mark .semicolon)

theorem ofClause {names : List String} (h : ∀ n ∈ names, IsName n) :
    Lays (Definition.clauseWords names) (Definition.clauseTokens names) := by
  cases names with
  | nil => exact .nil
  | cons first more =>
    exact token (yields_of_spells (.keyword .isAWord))
      ((ofSeparated .comma h).append (single (yields_mark .semicolon)))

theorem ofDefinition {d : Definition} (h : d.Writable) : Lays d.words d.tokens := by
  have hkind : Yields d.kind.text [.keyword d.kind.keyword] := by
    cases d.kind
    · exact yields_of_spells (.keyword .classWord)
    · exact yields_of_spells (.keyword .interfaceWord)
  have hsupertypes : ∀ n ∈ d.supertypes.map Located.value, IsName n := fun n hn => by
    obtain ⟨x, hx, rfl⟩ := List.mem_map.1 hn
    exact h.supertypes x hx
  refine token hkind (token (yields_name h.name) (token (yields_mark .openBrace) ?_))
  refine (ofClause hsupertypes).append ((flatMap fun a ha => ofAssociation (h.associations a ha)).append ?_)
  exact single (yields_mark .closeBrace)

theorem ofSource {s : Source} (h : s.Writable) : Lays s.words s.tokens := by
  refine Lays.append ?_ (flatMap fun d hd => ofDefinition (h.definitions d hd))
  cases hn : s.namespaceName with
  | none => exact .nil
  | some n =>
    obtain ⟨names, hne, hnames, hvalue⟩ := h.namespaceName n hn
    show Lays (Source.namespaceWords n.value) (Source.namespaceTokens n.value)
    unfold Source.namespaceWords Source.namespaceTokens
    rw [hvalue, segments_intercalate hne hnames]
    exact token (yields_of_spells (.keyword .namespaceWord))
      (.cons (yields_namespace hne hnames) (single (yields_mark .semicolon)))

end Lays
end Token

/-! ## The phrase of a source -/

theorem intersperse_cons_eq_flatMap {α : Type} (sep a : α) : ∀ l : List α,
    (a :: l).intersperse sep = a :: l.flatMap fun b => [sep, b]
  | [] => rfl
  | b :: l => by
    rw [List.intersperse_cons_cons, intersperse_cons_eq_flatMap sep b l, List.flatMap_cons]
    rfl

/-- The phrase of some names. -/
def NamesPhrase.ofNames (first : String) (more : List String) : NamesPhrase :=
  ⟨.unplaced first, more.map fun n => (.zero, .unplaced n), .zero⟩

namespace NamesPhrase

variable (first : String) (more : List String)

theorem tokens_ofNames (m : Mark) : (ofNames first more).tokens m =
    (((first :: more).map Token.name).intersperse (Token.mark m) ++ [Token.mark .semicolon]).map Located.unplaced := by
  rw [List.map_cons, intersperse_cons_eq_flatMap, List.flatMap_map, List.map_append, List.map_cons, List.map_flatMap]
  unfold ofNames tokens
  rw [List.flatMap_map]
  rfl

theorem names_ofNames : (ofNames first more).names = (first :: more).map Located.unplaced := by
  unfold ofNames names
  rw [List.map_map]
  rfl

theorem namespaceName_ofNames :
    (ofNames first more).namespaceName .zero = .unplaced (".".intercalate (first :: more)) := by
  have hall : ∀ n ∈ (ofNames first more).names, n.span = .zero := fun n hn => by
    rw [names_ofNames] at hn
    obtain ⟨_, -, rfl⟩ := List.mem_map.1 hn
    rfl
  have hvalues : (ofNames first more).names.map Located.value = first :: more := by
    rw [names_ofNames, List.map_map]
    exact List.map_id _
  unfold namespaceName
  rw [hall _ (List.getLast_mem _), hvalues]
  rfl

end NamesPhrase

/-- **Bounds that can be written** are what a phrase says. -/
theorem Bounds.Writable.exists_phrase {b : Bounds} (h : b.Writable) : ∃ p : BoundsPhrase,
    p.tokens = b.tokens.map Located.unplaced ∧ p.bounds = .unplaced b := by
  obtain ⟨lower, upper⟩ := b
  unfold tokens
  dsimp only
  cases upper with
  | none =>
    dsimp only
    split
    · rename_i hzero
      subst hzero
      exact ⟨.any .zero, rfl, rfl⟩
    · exact ⟨.atLeast (.unplaced lower) .zero .zero, rfl, rfl⟩
  | some upper =>
    obtain ⟨hpos, hle, -⟩ := h.upper upper rfl
    dsimp only
    split
    · rename_i heq
      subst heq
      exact ⟨.exactly (.unplaced lower) hpos, rfl, rfl⟩
    · exact ⟨.between (.unplaced lower) .zero (.unplaced upper) hpos hle, rfl, rfl⟩

theorem nameIfAnyTokens_unplace (name : Option (Located String)) :
    nameIfAnyTokens (name.map Located.unplace) = ((name.map fun n => Token.name n.value).toList).map .unplaced := by
  cases name <;> rfl

theorem Association.Writable.exists_phrase {a : Association} (h : a.Writable) : ∃ p : AssociationPhrase,
    p.tokens = a.tokens.map Located.unplaced ∧ p.association = .unplaced a.unplace := by
  obtain ⟨owner, hown, hown'⟩ := h.ownerBounds.exists_phrase
  obtain ⟨target, htar, htar'⟩ := h.targetBounds.exists_phrase
  refine ⟨⟨owner, a.ownerRole.map Located.unplace, .unplaced a.direction, target, a.target.unplace,
    a.targetRole.map Located.unplace, .zero⟩, ?_, ?_⟩
  · unfold AssociationPhrase.tokens tokens
    simp only [hown, htar, nameIfAnyTokens_unplace, List.map_append, List.map_cons]
    rfl
  · unfold AssociationPhrase.association
    rw [hown', htar']
    rfl

theorem exists_associations : ∀ {as : List (Located Association)}, (∀ a ∈ as, a.value.Writable) →
    ∃ ps : List AssociationPhrase,
      ps.flatMap AssociationPhrase.tokens = (as.flatMap fun a => a.value.tokens).map Located.unplaced ∧
      ps.map AssociationPhrase.association = as.map fun a => .unplaced a.value.unplace
  | [], _ => ⟨[], rfl, rfl⟩
  | a :: as, h => by
    obtain ⟨p, htokens, hp⟩ := (h a List.mem_cons_self).exists_phrase
    obtain ⟨ps, hrest, hps⟩ := exists_associations (fun b hb => h b (List.mem_cons_of_mem _ hb))
    refine ⟨p :: ps, ?_, ?_⟩
    · rw [List.flatMap_cons, List.flatMap_cons, List.map_append, htokens, hrest]
    · rw [List.map_cons, List.map_cons, hp, hps]

namespace MemberPhrase

/-- The members that name some supertypes: one `isA`, or none. -/
def ofSupertypes : List String → List MemberPhrase
  | [] => []
  | first :: more => [.isA .zero (.ofNames first more)]

theorem tokens_ofSupertypes (names : List String) :
    (ofSupertypes names).flatMap tokens = (Definition.clauseTokens names).map Located.unplaced := by
  cases names with
  | nil => rfl
  | cons first more =>
    show ⟨.keyword .isAWord, .zero⟩ :: ((NamesPhrase.ofNames first more).tokens .comma ++ []) = _
    rw [List.append_nil, NamesPhrase.tokens_ofNames]
    rfl

theorem supertypes_ofSupertypes (names : List String) :
    (ofSupertypes names).flatMap supertypes = names.map Located.unplaced := by
  cases names with
  | nil => rfl
  | cons first more => exact (List.append_nil _).trans (NamesPhrase.names_ofNames first more)

theorem association?_ofSupertypes (names : List String) : (ofSupertypes names).filterMap association? = [] := by
  cases names <;> rfl

end MemberPhrase

theorem Definition.Writable.exists_body {d : Definition} (h : d.Writable) : ∃ p : BodyPhrase,
    p.tokens = (clauseTokens (d.supertypes.map Located.value) ++
      (d.associations.flatMap (fun a => a.value.tokens) ++ [Token.mark .closeBrace])).map Located.unplaced ∧
    p.body = ⟨d.unplace.supertypes, d.unplace.associations, .zero⟩ := by
  obtain ⟨ps, htokens, hps⟩ := exists_associations h.associations
  have hsupertypes : (ps.map MemberPhrase.ofAssociation).flatMap MemberPhrase.supertypes = [] := by
    rw [List.flatMap_map, List.flatMap_eq_nil_iff]
    exact fun _ _ => rfl
  have hassociations : (ps.map MemberPhrase.ofAssociation).filterMap MemberPhrase.association? =
      ps.map AssociationPhrase.association := by
    rw [List.filterMap_map, ← List.filterMap_eq_map]
    rfl
  have hmembers : (ps.map MemberPhrase.ofAssociation).flatMap MemberPhrase.tokens =
      ps.flatMap AssociationPhrase.tokens := List.flatMap_map ..
  refine ⟨⟨MemberPhrase.ofSupertypes (d.supertypes.map Located.value) ++ ps.map .ofAssociation, .zero⟩, ?_, ?_⟩
  · unfold BodyPhrase.tokens
    dsimp only
    rw [List.flatMap_append, MemberPhrase.tokens_ofSupertypes, hmembers, htokens, List.map_append, List.map_append,
      List.append_assoc]
    rfl
  · unfold BodyPhrase.body
    dsimp only
    rw [List.flatMap_append, List.filterMap_append, MemberPhrase.supertypes_ofSupertypes,
      MemberPhrase.association?_ofSupertypes, hsupertypes, hassociations, hps, List.append_nil, List.map_map]
    rfl

theorem Definition.Writable.exists_item {d : Definition} (h : d.Writable) : ∃ i : ItemPhrase,
    i.tokens = d.tokens.map Located.unplaced ∧ i.namespaceName? = none ∧
      i.definition? = some (.unplaced d.unplace) := by
  obtain ⟨body, htokens, hbody⟩ := h.exists_body
  refine ⟨.ofDefinition (.unplaced d.kind) ⟨d.name.unplace, .zero, body⟩, ?_, rfl, ?_⟩
  · show _ :: _ :: _ :: body.tokens = _
    rw [htokens]
    rfl
  · show some (Located.mk (Definition.mk _ _ body.body.supertypes body.body.associations)
      (Span.zero.cover body.body.close)) = _
    rw [hbody]
    rfl

theorem exists_definitions : ∀ {ds : List (Located Definition)}, (∀ d ∈ ds, d.value.Writable) →
    ∃ items : List ItemPhrase,
      items.flatMap ItemPhrase.tokens = (ds.flatMap fun d => d.value.tokens).map Located.unplaced ∧
      items.filterMap ItemPhrase.namespaceName? = [] ∧
      items.filterMap ItemPhrase.definition? = ds.map fun d => .unplaced d.value.unplace
  | [], _ => ⟨[], rfl, rfl, rfl⟩
  | d :: ds, h => by
    obtain ⟨i, htokens, hname, hdef⟩ := (h d List.mem_cons_self).exists_item
    obtain ⟨items, hrest, hnames, hdefs⟩ := exists_definitions (fun e he => h e (List.mem_cons_of_mem _ he))
    refine ⟨i :: items, ?_, ?_, ?_⟩
    · rw [List.flatMap_cons, List.flatMap_cons, List.map_append, htokens, hrest]
    · rw [List.filterMap_cons_none hname, hnames]
    · rw [List.filterMap_cons_some hdef, hdefs, List.map_cons]

theorem ItemPhrase.tokens_ofNamespace {first : String} {more : List String} (h : ∀ n ∈ first :: more, IsName n) :
    (ItemPhrase.ofNamespace .zero (.ofNames first more)).tokens =
      (Source.namespaceTokens (".".intercalate (first :: more))).map Located.unplaced := by
  show ⟨.keyword .namespaceWord, .zero⟩ :: (NamesPhrase.ofNames first more).tokens .dot = _
  unfold Source.namespaceTokens
  rw [NamesPhrase.tokens_ofNames, Token.segments_intercalate (List.cons_ne_nil _ _) h]
  rfl

/-- Two outcomes that are the same but for places: one graph without places, or one message. -/
theorem Graph.outcome_congr {x y : Except (Located ModelFault) Graph} (h : bare unplace x = bare unplace y) :
    ((x.mapError Failure.ofModel).map unplace).mapError Failure.text =
      (y.map unplace).mapError fun f => (Failure.ofModel f).text := by
  cases x <;> cases y
  · have hvalue := congrArg Located.value (Except.error.inj h)
    exact congrArg (fun m : ModelFault => Except.error ("Model error: " ++ m.message)) hvalue
  · cases h
  · cases h
  · exact congrArg Except.ok (Except.ok.inj h)

namespace Source

/-- **The items that say what a source does**, written with its tokens. -/
theorem Writable.exists_items {s : Source} (h : s.Writable) : ∃ items : List ItemPhrase,
    items.flatMap ItemPhrase.tokens = s.tokens.map Located.unplaced ∧
      items.filterMap ItemPhrase.namespaceName? = s.unplace.namespaceName.toList ∧
      items.filterMap ItemPhrase.definition? = s.unplace.definitions := by
  obtain ⟨items, htokens, hnames, hdefs⟩ := exists_definitions h.definitions
  unfold Source.tokens Source.unplace
  cases hn : s.namespaceName with
  | none => exact ⟨items, htokens, hnames, hdefs⟩
  | some n =>
    obtain ⟨names, hne, hall, hvalue⟩ := h.namespaceName n hn
    obtain ⟨first, more, rfl⟩ := List.exists_cons_of_ne_nil hne
    refine ⟨.ofNamespace .zero (.ofNames first more) :: items, ?_, ?_, hdefs⟩
    · rw [List.flatMap_cons, htokens, ItemPhrase.tokens_ofNamespace hall, ← hvalue, ← List.map_append]
      rfl
    · show (NamesPhrase.ofNames first more).namespaceName .zero :: _ = _
      rw [NamesPhrase.namespaceName_ofNames, hnames, ← hvalue]
      rfl

/-- **The tokens of a source say what the source does**, wherever they stand. -/
theorem ofTokens_of_tokens {s : Source} (h : s.Writable) {ts : Tokens} (hts : ts.map Located.value = s.tokens) :
    (ofTokens ts).map Source.unplace = .ok s.unplace := by
  obtain ⟨items, htokens, hname, hdefs⟩ := h.exists_items
  have hplaced : ts.map Located.unplace = items.flatMap ItemPhrase.tokens := by
    rw [htokens, ← hts, List.map_map]
    rfl
  have hhead : (none.toList ++ s.unplace.namespaceName.toList).head? = s.unplace.namespaceName := by
    cases s.unplace.namespaceName <;> rfl
  have hsingle : (none.toList ++ s.unplace.namespaceName.toList).length ≤ 1 := by
    cases s.unplace.namespaceName <;> simp
  have hread : ofTokens (ts.map Located.unplace) = .ok s.unplace := by
    rw [hplaced, ofTokens, takeAll_tokens _ items none (by rwa [hname]), hname, hdefs, hhead]
  rw [ofTokens_unplace] at hread
  cases hok : ofTokens ts with
  | error f => rw [hok] at hread; cases hread
  | ok s' => rwa [hok] at hread

/-- What reading a text gives is this source, but for places; and what the source comes to, its graph or a message, is
what the text comes to. -/
structure IsReadFrom (s : Source) (text : String) : Prop where
  source : (Source.parse text).map Source.unplace = .ok s.unplace
  graph : ((Graph.parse text).map Graph.unplace).mapError Failure.text =
    ((Graph.ofDraft s).map Graph.unplace).mapError fun f => (Failure.ofModel f).text

theorem ofDraft_eq_ofSource {s : Source} (h : s.Writable) : Graph.ofDraft s = Graph.ofSource s := by
  have hnone : s.definitions.find? (fun d => (Keyword.ofText? d.value.name.value).isSome) = none :=
    List.find?_eq_none.2 (fun d hd => by
      rw [Keyword.ofText?_of_isName (h.definitions d hd).name]
      exact Bool.false_ne_true)
  unfold Graph.ofDraft
  rw [hnone]

theorem isReadFrom {s : Source} (h : s.Writable) {text : String}
    (hs : (Source.parse text).map Source.unplace = .ok s.unplace) : s.IsReadFrom text := by
  refine ⟨hs, ?_⟩
  rw [ofDraft_eq_ofSource h]
  unfold Graph.parse
  cases hparse : Source.parse text with
  | error f => rw [hparse] at hs; cases hs
  | ok s' =>
    rw [hparse, Except.map, Except.ok.injEq] at hs
    have hsame : bare Graph.unplace (Graph.ofSource s') = bare Graph.unplace (Graph.ofSource s) := by
      rw [← Graph.ofSource_unplace, ← Graph.ofSource_unplace, hs]
    exact Graph.outcome_congr hsame

/-- **Sources are read back** from their texts, and from every text that has their tokens. -/
theorem is_read_from_text {s : Source} (h : s.Writable) : s.IsReadFrom s.text ∧ s.IsReadFrom s.spacedText ∧
    ∀ text ts, Token.lex text = .ok ts → ts.map Located.value = s.tokens → s.IsReadFrom text := by
  have hread : ∀ text ts, Token.lex text = .ok ts → ts.map Located.value = s.tokens → s.IsReadFrom text :=
    fun text ts hlex hts => isReadFrom h (by
      unfold parse
      rw [hlex]
      exact ofTokens_of_tokens h hts)
  have hwords : ∀ words, Token.Lays words s.tokens → s.IsReadFrom (" ".intercalate words) := fun words hlays => by
    obtain ⟨ts, hdiv, hts⟩ := hlays.cut 0
    exact hread _ ts (((Token.lex_divides _).1 ts).2 hdiv) hts
  have hlays := Token.Lays.ofSource h
  refine ⟨hwords s.words hlays, hwords _ (Token.Lays.ofTokens fun t ht => ?_), hread⟩
  -- each token is spelled somewhere in the text above
  obtain ⟨ts, hdiv, hts⟩ := hlays.cut 0
  rw [← hts] at ht
  obtain ⟨placed, hplaced, rfl⟩ := List.mem_map.1 ht
  exact hdiv.exists_spells placed hplaced

def seminar : Source :=
  (empty.withNamespace "uni.courses").withDefinition
    ((((Definition.draft .ofClass "Lecturer").withSupertype "Person").withSupertype "Tutor").withAssociation
      ⟨.unplaced (.exactly 1), some (.unplaced "lecturer"), .both, .unplaced ⟨2, none⟩, .unplaced "Seminar", none⟩)

theorem is_read_from_text_seminar : seminar.Writable ∧ seminar.IsReadFrom
    "namespace uni.courses ; class Lecturer \x7b isA Person , Tutor ; 1 lecturer -- 2..* Seminar ; \x7d" := by
  have h : seminar.Writable := by
    refine ⟨fun n hn => ?_, fun d hd => ?_⟩
    · cases hn
      exact ⟨["uni", "courses"], List.cons_ne_nil _ _, by decide, rfl⟩
    · cases List.mem_singleton.1 hd
      refine ⟨by decide, by decide, fun a ha => ?_⟩
      cases List.mem_singleton.1 ha
      exact ⟨⟨by decide, by decide⟩, by decide, ⟨by decide, by decide⟩, by decide, by decide⟩
  exact ⟨h, (is_read_from_text h).1⟩

end Source
end Accessors
