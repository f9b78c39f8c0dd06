import Accessors.Proofs.Names
import Accessors.Proofs.Spans
import Accessors.Proofs.Unplacing
/-!
# Layout does not matter

Blanks and comments may be put between any two tokens of a text, glued as they may be, and ahead of the first and behind
the last: the text has the same tokens, moved along behind the place (`Token.Divided.insert`).  What is read from the
tokens depends on their places only where it gives places, so the new text comes to what the old one does, message or
files (`Source.layout_does_not_matter`).
-/
namespace Accessors

/-- The same value, read so many bytes farther behind. -/
def Located.moved {α : Type} (width : Nat) (a : Located α) : Located α :=
  ⟨a.value, ⟨a.span.start + width, a.span.stop + width⟩⟩

/-- Makes room at a place: what stands behind it is moved. -/
def Located.roomAt {α : Type} (place width : Nat) (a : Located α) : Located α :=
  if place ≤ a.span.start then a.moved width else a

namespace Token

/-- Blanks, block comments that are closed, and comments up to the line feed that ends them. -/
inductive IsLayout : List Char → Prop
  | nil : IsLayout []
  | blank {c : Char} {rest : List Char} (h : isBlank c = true) (more : IsLayout rest) : IsLayout (c :: rest)
  | blockComment {body rest : List Char} (h : ¬ ['*', '/'] <:+: body) (more : IsLayout rest) :
      IsLayout ('/' :: '*' :: (body ++ '*' :: '/' :: rest))
  | lineComment {body rest : List Char} (h : '\n' ∉ body) (more : IsLayout rest) :
      IsLayout ('/' :: '/' :: (body ++ '\n' :: rest))

variable {start : Nat} {text before after after' word layout : List Char} {t : Token} {ts : List (Located Token)}

/-! ## Layout by itself -/

theorem goesOn_of_isBlank (t : Token) {c : Char} (h : isBlank c = true) : t.goesOn c = false := by
  rcases isBlank_iff.1 h with rfl | rfl | rfl | rfl | rfl
  all_goals
    cases t with
    | mark m => cases m <;> rfl
    | _ => rfl

/-- **No token goes on in layout.** -/
theorem Ends.layout_append (hlayout : IsLayout layout) (h : t.Ends after) : t.Ends (layout ++ after) := by
  have hslash : t.goesOn '/' = false := by
    cases t with
    | mark m => cases m <;> rfl
    | _ => rfl
  cases hlayout with
  | nil => exact h
  | blank hblank _ =>
    intro c hc
    cases hc
    exact goesOn_of_isBlank t hblank
  | blockComment _ _ =>
    intro c hc
    cases hc
    exact hslash
  | lineComment _ _ =>
    intro c hc
    cases hc
    exact hslash

/-- **Layout has no tokens**, wherever it stands and whatever is behind it. -/
theorem IsLayout.divided (h : IsLayout layout) (start : Nat) (after : List Char) : Divided start layout after [] := by
  induction h generalizing start with
  | nil => exact .nil
  | @blank c rest hblank _ ih =>
    rw [← List.singleton_append]
    exact .gap (.blank hblank) (ih _)
  | @blockComment body rest hbody _ ih =>
    have hword : '/' :: '*' :: (body ++ '*' :: '/' :: rest) = ('/' :: '*' :: (body ++ ['*', '/'])) ++ rest := by simp
    rw [hword]
    exact .gap (.blockComment hbody) (ih _)
  | @lineComment body rest hbody _ ih =>
    have hword : '/' :: '/' :: (body ++ '\n' :: rest) = ('/' :: '/' :: body) ++ (['\n'] ++ rest) := by simp
    have hend : ∀ c ∈ (['\n'] ++ rest ++ after).head?, c = '\n' := by
      intro c hc
      cases hc
      rfl
    rw [hword]
    exact .gap (.lineComment hbody hend) (.gap (.blank rfl) (ih _))

/-! ## What is behind a part, and where it starts -/

theorem IsGap.congr (h : IsGap word after) (hhead : after'.head? = after.head?) : IsGap word after' := by
  cases h with
  | blank h => exact .blank h
  | lineComment h hend => exact .lineComment h (hhead ▸ hend)
  | blockComment h => exact .blockComment h

theorem Spells.exists_head (h : Spells word t) : ∃ c, word.head? = some c ∧ c ≠ '\n' := by
  cases h with
  | keyword k => cases k <;> exact ⟨_, rfl, by decide⟩
  | mark m => cases m <;> exact ⟨_, rfl, by decide⟩
  | name h =>
    unfold isName at h
    split at h
    · cases h
    · rename_i c more
      refine ⟨c, rfl, ?_⟩
      rintro rfl
      cases h
  | number hne hd _ =>
    obtain ⟨c, more, rfl⟩ := List.exists_cons_of_ne_nil hne
    refine ⟨c, rfl, ?_⟩
    rintro rfl
    exact absurd (hd '\n' List.mem_cons_self) (by decide)

/-- **A part is divided as before** ahead of something else, if its last token ends there too.  It must not be cut within
a comment of one line. -/
theorem Divided.ahead (h : Divided start text after ts) (hline : ∃ c, after.head? = some c ∧ c ≠ '\n')
    (hends : ∀ t : Token, t.Ends after → t.Ends after') : Divided start text after' ts := by
  induction h with
  | nil => exact .nil
  | @gap start word text after ts hgap _ ih =>
    refine .gap ?_ (ih hline hends)
    cases text with
    | cons c text => exact hgap.congr rfl
    | nil =>
      cases hgap with
      | blank h => exact .blank h
      | blockComment h => exact .blockComment h
      | lineComment _ hend =>
        obtain ⟨c, hc, hne⟩ := hline
        exact absurd (hend c hc) hne
  | @token start word text after t ts hspells hend _ ih =>
    refine .token hspells ?_ (ih hline hends)
    cases text with
    | cons c text => exact fun d hd => hend d hd
    | nil => exact hends t hend

/-- **A part that starts farther behind** is divided into the same tokens there. -/
theorem Divided.moved (h : Divided start text after ts) (width : Nat) :
    Divided (start + width) text after (ts.map (Located.moved width)) := by
  induction h with
  | nil => exact .nil
  | gap hgap _ ih =>
    rw [Nat.add_right_comm] at ih
    exact .gap hgap ih
  | token hspells hend _ ih =>
    rw [Nat.add_right_comm] at ih
    have htoken := Divided.token hspells hend ih
    rwa [Nat.add_right_comm] at htoken

theorem Divided.within (h : Divided start text after ts) : ∀ t ∈ ts, start ≤ t.span.start ∧
    t.span.start < t.span.stop ∧ t.span.stop ≤ start + byteWidth text :=
  fun t ht => h.inOrder.within t.span (List.mem_map_of_mem ht)

/-- **At each of its tokens** a text is divided into what is before, the token and what is behind. -/
theorem Divided.exists_parts (h : Divided start text after ts) {t : Located Token} (ht : t ∈ ts) :
    ∃ before word rest ts₁ ts₂, text = before ++ (word ++ rest) ∧ ts = ts₁ ++ t :: ts₂ ∧
      t.span = ⟨start + byteWidth before, start + byteWidth before + byteWidth word⟩ ∧
      Divided start before (word ++ (rest ++ after)) ts₁ ∧ Spells word t.value ∧ t.value.Ends (rest ++ after) ∧
      Divided t.span.stop rest after ts₂ := by
  induction h with
  | nil => cases ht
  | @gap start word text after ts hgap more ih =>
    obtain ⟨before, w, rest, ts₁, ts₂, rfl, rfl, hspan, hbefore, hrest⟩ := ih ht
    refine ⟨word ++ before, w, rest, ts₁, ts₂, (List.append_assoc ..).symm, rfl, ?_, .gap ?_ hbefore, hrest⟩
    · rw [hspan, byteWidth_append, Nat.add_assoc]
    · simpa only [List.append_assoc] using hgap
  | @token start word text after u ts hspells hend more ih =>
    rcases List.mem_cons.1 ht with rfl | ht
    · exact ⟨[], word, text, [], ts, rfl, rfl, rfl, .nil, hspells, hend, more⟩
    · obtain ⟨before, w, rest, ts₁, ts₂, rfl, rfl, hspan, hbefore, hrest⟩ := ih ht
      refine ⟨word ++ before, w, rest, _ :: ts₁, ts₂, (List.append_assoc ..).symm, rfl, ?_,
        .token hspells ?_ hbefore, hrest⟩
      · rw [hspan, byteWidth_append, Nat.add_assoc]
      · simpa only [List.append_assoc] using hend

/-! ## Places in a text -/

/-- Two parts of a text that begin it: the one that is no wider begins the other. -/
theorem exists_append_of_byteWidth_le : ∀ {a b c d : List Char}, a ++ b = c ++ d → byteWidth a ≤ byteWidth c →
    ∃ x, c = a ++ x ∧ b = x ++ d := by
  intro a b c d heq hle
  rcases List.append_eq_append_iff.1 heq with ⟨x, rfl, rfl⟩ | ⟨x, rfl, rfl⟩
  · exact ⟨x, rfl, rfl⟩
  · rw [byteWidth_append] at hle
    have hx : x = [] := by
      by_contra hne
      have hpos := byteWidth_pos hne
      omega
    rw [hx]
    exact ⟨[], by simp, by simp⟩

theorem eq_of_byteWidth_eq {a b c d : List Char} (heq : a ++ b = c ++ d) (hwidth : byteWidth a = byteWidth c) :
    a = c ∧ b = d := by
  obtain ⟨x, rfl, rfl⟩ := exists_append_of_byteWidth_le heq (Nat.le_of_eq hwidth)
  rw [byteWidth_append] at hwidth
  have hx : x = [] := by
    by_contra hne
    have hpos := byteWidth_pos hne
    omega
  rw [hx]
  exact ⟨(List.append_nil a).symm, rfl⟩

def Stands (text word : List Char) (s : Span) : Prop :=
  ∃ before after, text = before ++ (word ++ after) ∧ s = ⟨byteWidth before, byteWidth before + byteWidth word⟩

/-- A word stands in a text that makes room, if the room is not within the word. -/
theorem Stands.roomAt {a : Located Token} (h : Stands (before ++ after) word a.span)
    (hplace : a.span.stop ≤ byteWidth before ∨ byteWidth before ≤ a.span.start) (hlt : a.span.start < a.span.stop) :
    Stands (before ++ (layout ++ after)) word (a.roomAt (byteWidth before) (byteWidth layout)).span := by
  obtain ⟨b, r, heq, hspan⟩ := h
  unfold Located.roomAt
  rcases hplace with hplace | hplace
  · have hfront : ¬ byteWidth before ≤ a.span.start := by omega
    have hwidth : byteWidth (b ++ word) ≤ byteWidth before := by
      rw [byteWidth_append]
      rwa [hspan] at hplace
    rw [← List.append_assoc] at heq
    obtain ⟨x, rfl, rfl⟩ := exists_append_of_byteWidth_le heq.symm hwidth
    rw [if_neg hfront]
    exact ⟨b, x ++ (layout ++ after), by simp only [List.append_assoc], hspan⟩
  · have hwidth : byteWidth before ≤ byteWidth b := by rwa [hspan] at hplace
    obtain ⟨x, rfl, rfl⟩ := exists_append_of_byteWidth_le heq hwidth
    rw [if_pos hplace]
    refine ⟨before ++ (layout ++ x), r, by simp only [List.append_assoc], ?_⟩
    unfold Located.moved
    rw [hspan]
    simp only [byteWidth_append, Span.mk.injEq]
    omega

/-! ## Layout within a text -/

/-- **A text may be cut at the start or the end of a token**, with layout behind the cut. -/
theorem Divided.exists_cut (h : Divided 0 (before ++ after) [] ts) {t : Located Token} (ht : t ∈ ts)
    (hplace : byteWidth before = t.span.start ∨ byteWidth before = t.span.stop) (hlayout : IsLayout layout) :
    ∃ ts₁ ts₂, ts = ts₁ ++ ts₂ ∧ Divided 0 before (layout ++ after) ts₁ ∧ Divided (byteWidth before) after [] ts₂ := by
  obtain ⟨front, word, rest, ts₁, ts₂, htext, rfl, hspan, hfront, hspells, hend, hrest⟩ := h.exists_parts ht
  rw [List.append_nil] at hfront hend
  rw [Nat.zero_add] at hspan
  obtain ⟨c, more, rfl⟩ := List.exists_cons_of_ne_nil hspells.ne_nil
  have hline : ∃ d, (c :: more ++ rest).head? = some d ∧ d ≠ '\n' := by
    obtain ⟨d, hd, hne⟩ := hspells.exists_head
    exact ⟨d, hd, hne⟩
  rw [hspan] at hplace hrest
  rcases hplace with hplace | hplace
  · -- ahead of the token
    obtain ⟨rfl, rfl⟩ := eq_of_byteWidth_eq htext hplace
    refine ⟨ts₁, t :: ts₂, rfl, hfront.ahead hline fun t hends => hends.layout_append hlayout, ?_⟩
    have htoken := Divided.token hspells (by rwa [List.append_nil]) hrest
    rwa [← hspan] at htoken
  · -- behind it
    have hwidth : byteWidth before = byteWidth (front ++ (c :: more)) := by rw [hplace, byteWidth_append]
    rw [← List.append_assoc] at htext
    obtain ⟨rfl, rfl⟩ := eq_of_byteWidth_eq htext hwidth
    have hcut : Divided 0 front (c :: more ++ (layout ++ after)) ts₁ := hfront.ahead hline fun t hends d hd => hends d hd
    have htoken : Divided (0 + byteWidth front) (c :: more) (layout ++ after) [t] := by
      have hends : t.value.Ends (layout ++ after) := hend.layout_append hlayout
      have hnone : Divided (byteWidth front + byteWidth (c :: more)) [] (layout ++ after) [] := .nil
      rw [← List.nil_append (layout ++ after)] at hends
      have hsingle := Divided.token hspells hends hnone
      rw [List.append_nil, ← hspan] at hsingle
      rwa [Nat.zero_add]
    refine ⟨ts₁ ++ [t], ts₂, by simp, hcut.append htoken, ?_⟩
    rwa [byteWidth_append]

theorem map_roomAt {place width : Nat} {ts₁ ts₂ : List (Located Token)}
    (hbefore : ∀ t ∈ ts₁, t.span.start < place) (hbehind : ∀ t ∈ ts₂, place ≤ t.span.start) :
    (ts₁ ++ ts₂).map (Located.roomAt place width) = ts₁ ++ ts₂.map (Located.moved width) := by
  rw [List.map_append]
  refine congrArg₂ _ ?_ (List.map_congr_left fun t ht => if_pos (hbehind t ht))
  refine (List.map_congr_left fun t ht => ?_).trans (List.map_id ts₁)
  exact if_neg (Nat.not_le.2 (hbefore t ht))

/-- **Layout at the start or the end of a token** moves along the tokens behind it, and changes no other. -/
theorem Divided.insert (h : Divided 0 (before ++ after) [] ts) {t : Located Token} (ht : t ∈ ts)
    (hplace : byteWidth before = t.span.start ∨ byteWidth before = t.span.stop) (hlayout : IsLayout layout) :
    Divided 0 (before ++ (layout ++ after)) [] (ts.map (Located.roomAt (byteWidth before) (byteWidth layout))) ∧
      ∀ u ∈ ts, u.span.stop ≤ byteWidth before ∨ byteWidth before ≤ u.span.start := by
  obtain ⟨ts₁, ts₂, rfl, hbefore, hbehind⟩ := h.exists_cut ht hplace hlayout
  have hwithin : ∀ u ∈ ts₁, u.span.start < u.span.stop ∧ u.span.stop ≤ byteWidth before := by
    intro u hu
    obtain ⟨-, hlt, hle⟩ := hbefore.within u hu
    exact ⟨hlt, by omega⟩
  have hfar : ∀ u ∈ ts₂, byteWidth before ≤ u.span.start := fun u hu => (hbehind.within u hu).1
  constructor
  · rw [map_roomAt (fun u hu => by have := hwithin u hu; omega) hfar]
    refine Divided.append (by rwa [List.append_nil]) ?_
    rw [Nat.zero_add, ← List.nil_append (ts₂.map _)]
    exact (hlayout.divided _ _).append (hbehind.moved (byteWidth layout))
  · intro u hu
    exact (List.mem_append.1 hu).imp (fun hu => (hwithin u hu).2) (hfar u)

end Token

/-! ## Texts of the same tokens -/

/-- Two texts come to the same, but for places: what is read from them or the message that it is not, the graph or the
message that there is none, and of the graphs the reports, the files and the collisions. -/
structure SameButForPlaces (text text' : String) : Prop where
  source : bare Source.unplace (Source.parse text') = bare Source.unplace (Source.parse text)
  graph : ((Graph.parse text').map Graph.unplace).mapError Failure.text =
    ((Graph.parse text).map Graph.unplace).mapError Failure.text
  report : ∀ g g', Graph.parse text = .ok g → Graph.parse text' = .ok g' → g'.report.unplace = g.report.unplace
  emission : ∀ g g', Graph.parse text = .ok g → Graph.parse text' = .ok g' → ∀ b : Backend,
    (b.emit g' g'.report).files = (b.emit g g.report).files ∧
      (b.emit g' g'.report).unplace = (b.emit g g.report).unplace

theorem Graph.parse_congr {text text' : String}
    (h : bare Source.unplace (Source.parse text') = bare Source.unplace (Source.parse text)) :
    ((Graph.parse text').map Graph.unplace).mapError Failure.text =
      ((Graph.parse text).map Graph.unplace).mapError Failure.text := by
  unfold Graph.parse
  cases hs : Source.parse text <;> cases hs' : Source.parse text' <;> rw [hs, hs'] at h
  · have hvalue := congrArg Located.value (Except.error.inj h)
    exact congrArg (fun f : SyntaxFault => Except.error ("Syntax error: " ++ f.message)) hvalue
  · cases h
  · cases h
  · rename_i s s'
    have hsame : bare Graph.unplace (Graph.ofSource s') = bare Graph.unplace (Graph.ofSource s) := by
      rw [← Graph.ofSource_unplace, ← Graph.ofSource_unplace, Except.ok.inj h]
    exact (outcome_congr hsame).trans (outcome_congr rfl).symm

/-- **Texts of the same tokens** come to the same, wherever the tokens stand. -/
theorem sameButForPlaces_of_lex {text text' : String} {ts ts' : Tokens} (h : Token.lex text = .ok ts)
    (h' : Token.lex text' = .ok ts') (hvalues : ts'.map Located.value = ts.map Located.value) :
    SameButForPlaces text text' := by
  have hplaced : ts'.map Located.unplace = ts.map Located.unplace := by
    have hunplaced := congrArg (List.map Located.unplaced) hvalues
    rwa [List.map_map, List.map_map] at hunplaced
  have hsource : bare Source.unplace (Source.parse text') = bare Source.unplace (Source.parse text) := by
    unfold Source.parse
    rw [h, h']
    show bare Source.unplace (Source.ofTokens ts') = bare Source.unplace (Source.ofTokens ts)
    rw [← Source.ofTokens_unplace, ← Source.ofTokens_unplace, hplaced]
  have hgraph := Graph.parse_congr hsource
  have hunplaced : ∀ g g', Graph.parse text = .ok g → Graph.parse text' = .ok g' → g'.unplace = g.unplace := by
    intro g g' hg hg'
    rw [hg, hg'] at hgraph
    exact Except.ok.inj hgraph
  have hreport : ∀ g g', Graph.parse text = .ok g → Graph.parse text' = .ok g' → g'.report.unplace = g.report.unplace := by
    intro g g' hg hg'
    rw [← g.report_unplace, ← g'.report_unplace, hunplaced g g' hg hg']
  refine ⟨hsource, hgraph, hreport, fun g g' hg hg' b => ?_⟩
  have hemission : (b.emit g' g'.report).unplace = (b.emit g g.report).unplace := by
    rw [← b.emit_unplace, ← b.emit_unplace, hunplaced g g' hg hg', hreport g g' hg hg']
  have hfiles := congrArg Emission.files hemission
  exact ⟨hfiles, hemission⟩

/-- **Layout does not matter.**  Blanks, closed comments and comments that end with their lines, put into a text at the
start or the end of one of its tokens, leave the tokens and the words that spell them as they are; tokens behind the place
are moved.  So the new text comes to what the old one does, but for places. -/
theorem Source.layout_does_not_matter {before layout after : String} {ts : Tokens}
    (h : Token.lex (before ++ after) = .ok ts) {t : Located Token} (ht : t ∈ ts)
    (hplace : byteWidth before.toList = t.span.start ∨ byteWidth before.toList = t.span.stop)
    (hlayout : Token.IsLayout layout.toList) :
    Token.lex (before ++ layout ++ after) =
        .ok (ts.map (Located.roomAt (byteWidth before.toList) (byteWidth layout.toList))) ∧
      (∀ u ∈ ts, ∀ word, Token.Stands (before ++ after).toList word u.span →
        Token.Stands (before ++ layout ++ after).toList word
          (u.roomAt (byteWidth before.toList) (byteWidth layout.toList)).span) ∧
      SameButForPlaces (before ++ after) (before ++ layout ++ after) := by
  have hchars : (before ++ layout ++ after).toList = before.toList ++ (layout.toList ++ after.toList) := by
    rw [String.toList_append, String.toList_append, List.append_assoc]
  have hdivided : Token.Divided 0 (before.toList ++ after.toList) [] ts := by
    rw [← String.toList_append]
    exact ((Token.lex_divides _).1 ts).1 h
  obtain ⟨hinserted, hplaces⟩ := hdivided.insert ht hplace hlayout
  have hlex : Token.lex (before ++ layout ++ after) =
      .ok (ts.map (Located.roomAt (byteWidth before.toList) (byteWidth layout.toList))) := by
    rw [← hchars] at hinserted
    exact ((Token.lex_divides _).1 _).2 hinserted
  have hvalue : ∀ u : Located Token,
      (u.roomAt (byteWidth before.toList) (byteWidth layout.toList)).value = u.value := by
    intro u
    unfold Located.roomAt
    split <;> rfl
  refine ⟨hlex, fun u hu word hword => ?_, sameButForPlaces_of_lex h hlex ?_⟩
  · rw [String.toList_append] at hword
    rw [hchars]
    exact hword.roomAt (hplaces u hu) (hdivided.within u hu).2.1
  · rw [List.map_map]
    exact List.map_congr_left fun u _ => hvalue u

/-- Comments between the glued tokens of bounds. -/
theorem Source.layout_does_not_matter_bounds : ∃ ts : Tokens,
    Token.lex ("class A \x7b 1 -> 0" ++ "..1 B b; \x7d class B \x7b\x7d") = .ok ts ∧ ⟨.number 0, ⟨15, 16⟩⟩ ∈ ts ∧
    Token.lex ("class A \x7b 1 -> 0" ++ " /**/ // 1..\n" ++ "..1 B b; \x7d class B \x7b\x7d") = .ok (ts.map (Located.roomAt 16 13)) ∧
    SameButForPlaces ("class A \x7b 1 -> 0" ++ "..1 B b; \x7d class B \x7b\x7d")
      ("class A \x7b 1 -> 0" ++ " /**/ // 1..\n" ++ "..1 B b; \x7d class B \x7b\x7d") := by
  have hlayout : Token.IsLayout " /**/ // 1..\n".toList := by
    have hline : Token.IsLayout ('/' :: '/' :: ([' ', '1', '.', '.'] ++ '\n' :: [])) := .lineComment (by decide) .nil
    have hblock : Token.IsLayout ('/' :: '*' :: ([] ++ '*' :: '/' :: ' ' :: '/' :: '/' :: [' ', '1', '.', '.', '\n'])) :=
      .blockComment (by decide) (.blank rfl hline)
    have hchars : " /**/ // 1..\n".toList = ' ' :: '/' :: '*' :: '*' :: '/' :: ' ' :: '/' :: '/' ::
        [' ', '1', '.', '.', '\n'] := by
      decide
    rw [hchars]
    exact .blank rfl hblock
  have hzero : (Token.lex ("class A \x7b 1 -> 0" ++ "..1 B b; \x7d class B \x7b\x7d")).toOption.any
      (fun ts => ts.contains ⟨.number 0, ⟨15, 16⟩⟩) = true := by
    with_unfolding_all decide
  cases hlex : Token.lex ("class A \x7b 1 -> 0" ++ "..1 B b; \x7d class B \x7b\x7d") with
  | error f =>
    rw [hlex] at hzero
    cases hzero
  | ok ts =>
    rw [hlex] at hzero
    have ht : ⟨.number 0, ⟨15, 16⟩⟩ ∈ ts := List.contains_iff_mem.1 hzero
    obtain ⟨hmoved, -, hsame⟩ := layout_does_not_matter hlex ht (.inr (by decide)) hlayout
    exact ⟨ts, rfl, ht, hmoved, hsame⟩

end Accessors
