import Accessors.Token.Lexer
import Mathlib.Data.List.Infix
import Mathlib.Data.List.TakeWhile
/-!
# What a text is cut into

A text is divided into gaps and tokens (`Divided`) if each token is spelled by its part of the text and could not go on
there, and each gap is a blank or a comment.  Lexing gives the tokens of just those texts that are divided up to their
end, and otherwise tells the fault at which the division stops (`lex_divides`).

Two facts about the front of a text carry this: some piece stands there (`exists_fits`), and `front` gives whichever
does (`front_of_fits`).
-/
namespace Accessors
namespace Token

/-! ## Pieces of a text -/

/-- A name is a letter or an underscore, then letters, digits and underscores, and no keyword. -/
def isName (word : List Char) : Bool :=
  match word with
  | [] => false
  | c :: more => isNameStart c && more.all isNameChar && (Keyword.ofText? (String.ofList word)).isNone

/-- How a token can be written. -/
inductive Spells : (word : List Char) → Token → Prop
  | keyword (k : Keyword) : Spells k.text.toList (.keyword k)
  | mark (m : Mark) : Spells m.chars (.mark m)
  | name {word : List Char} (h : isName word = true) : Spells word (.name (String.ofList word))
  | number {digits : List Char} (hne : digits ≠ []) (hd : ∀ c ∈ digits, c.isDigit = true)
      (hv : Nat.ofDigitChars 10 digits 0 ≤ largestNumber) : Spells digits (.number (Nat.ofDigitChars 10 digits 0))

/-- Whether a token, with this character behind it, is only the beginning of a longer one. -/
def goesOn : Token → Char → Bool
  | .keyword _, c => isNameChar c
  | .name _, c => isNameChar c
  | .number _, c => c.isDigit
  | .mark m, c => m = .dot && c = '.'

/-- A token is the longest that it can be, ahead of `after`. -/
def Ends (t : Token) (after : List Char) : Prop := ∀ c ∈ after.head?, t.goesOn c = false

/-- A blank or a comment, ahead of `after`: a comment of one line runs up to the line feed or the end of the text, any
other up to the first mark that closes it. -/
inductive IsGap : (word after : List Char) → Prop
  | blank {c : Char} {after : List Char} (h : isBlank c = true) : IsGap [c] after
  | lineComment {body after : List Char} (h : '\n' ∉ body) (hend : ∀ c ∈ after.head?, c = '\n') :
      IsGap ('/' :: '/' :: body) after
  | blockComment {body after : List Char} (h : ¬ ['*', '/'] <:+: body) :
      IsGap ('/' :: '*' :: (body ++ ['*', '/'])) after

/-- What is at fault, ahead of `after`. -/
inductive Faulty : SyntaxFault → (word after : List Char) → Prop
  | numberTooLarge {digits after : List Char} (hne : digits ≠ []) (hd : ∀ c ∈ digits, c.isDigit = true)
      (hv : largestNumber < Nat.ofDigitChars 10 digits 0) (hend : ∀ c ∈ after.head?, c.isDigit = false) :
      Faulty (.numberTooLarge (String.ofList digits)) digits after
  | unclosedComment {body : List Char} (h : ¬ ['*', '/'] <:+: body) : Faulty .unclosedComment ('/' :: '*' :: body) []
  | strayCharacter {c : Char} {after : List Char} (hblank : isBlank c = false) (hname : isNameStart c = false)
      (hdigit : c.isDigit = false) (hmark : ∀ m : Mark, ¬ m.chars <+: c :: after)
      (hcomment : c = '/' → ∀ d ∈ after.head?, d ≠ '/' ∧ d ≠ '*') : Faulty (.strayCharacter c) [c] after

/-- A word is the piece that stands at the front of `word ++ after`. -/
def Piece.Fits : Piece → (word after : List Char) → Prop
  | .gap, word, after => IsGap word after
  | .token t, word, after => Spells word t ∧ t.Ends after
  | .fault f, word, after => Faulty f word after

/-- The text, which starts at byte `start` and has `after` behind it, is divided into gaps and these tokens. -/
inductive Divided : (start : Nat) → (text after : List Char) → List (Located Token) → Prop
  | nil {start : Nat} {after : List Char} : Divided start [] after []
  | gap {start : Nat} {word text after : List Char} {ts : List (Located Token)} (h : IsGap word (text ++ after))
      (more : Divided (start + byteWidth word) text after ts) : Divided start (word ++ text) after ts
  | token {start : Nat} {word text after : List Char} {t : Token} {ts : List (Located Token)} (h : Spells word t)
      (hend : t.Ends (text ++ after)) (more : Divided (start + byteWidth word) text after ts) :
      Divided start (word ++ text) after (⟨t, ⟨start, start + byteWidth word⟩⟩ :: ts)

/-! ## The piece at the front -/

theorem takeWhile_append_eq_left {p : Char → Bool} {l after : List Char} (hl : ∀ c ∈ l, p c = true)
    (hafter : ∀ c ∈ after.head?, p c = false) : (l ++ after).takeWhile p = l := by
  rw [List.takeWhile_append_of_pos hl]
  cases after with
  | nil => exact List.append_nil l
  | cons c after => rw [List.takeWhile_cons_of_neg (by simp [hafter c rfl]), List.append_nil]

theorem commentBody?_append : ∀ {body : List Char}, ¬ ['*', '/'] <:+: body → ∀ (after : List Char),
    commentBody? (body ++ '*' :: '/' :: after) = some (body ++ ['*', '/'])
  | [], _, _ => rfl
  | c :: body, h, after => by
    have hbody : ¬ ['*', '/'] <:+: body := fun hi => h (hi.trans (List.suffix_cons c body).isInfix)
    rw [List.cons_append, commentBody?, commentBody?_append hbody after]
    · rfl
    · rintro rest rfl hrest
      cases body with
      | nil => cases hrest
      | cons d body =>
        cases hrest
        exact h ⟨[], body, rfl⟩

theorem commentBody?_eq_none : ∀ {text : List Char}, ¬ ['*', '/'] <:+: text → commentBody? text = none
  | [], _ => rfl
  | c :: text, h => by
    rw [commentBody?, commentBody?_eq_none (fun hi => h (hi.trans (List.suffix_cons c text).isInfix))]
    · rfl
    · rintro rest rfl rfl
      exact h ⟨[], rest, rfl⟩

/-- Where a comment is closed, it is closed for the first time. -/
theorem exists_first_close : ∀ {text : List Char}, ['*', '/'] <:+: text →
    ∃ body after, text = body ++ '*' :: '/' :: after ∧ ¬ ['*', '/'] <:+: body
  | [], h => by cases List.infix_nil.1 h
  | c :: text, h => by
    by_cases hfront : ['*', '/'] <+: c :: text
    · obtain ⟨after, ha⟩ := hfront
      exact ⟨[], after, ha.symm, fun hi => by cases List.infix_nil.1 hi⟩
    · obtain ⟨body, after, rfl, hbody⟩ := exists_first_close ((List.infix_cons_iff.1 h).resolve_left hfront)
      refine ⟨c :: body, after, rfl, fun hi => ?_⟩
      rcases List.infix_cons_iff.1 hi with hi | hi
      · exact hfront (hi.trans (List.prefix_append _ _))
      · exact hbody hi

theorem byteWidth_pos : ∀ {text : List Char}, text ≠ [] → 0 < byteWidth text
  | [], h => absurd rfl h
  | c :: _, _ => Nat.add_pos_left (Char.utf8Size_pos c) _

theorem Spells.ne_nil {word : List Char} {t : Token} (h : Spells word t) : word ≠ [] := by
  cases h with
  | keyword k => cases k <;> decide
  | mark m => cases m <;> exact List.cons_ne_nil _ _
  | name h => rintro rfl; cases h
  | number hne _ _ => exact hne

theorem Piece.Fits.ne_nil {p : Piece} {word after : List Char} (h : p.Fits word after) : word ≠ [] := by
  cases p with
  | gap => cases h <;> exact List.cons_ne_nil _ _
  | token t => exact h.1.ne_nil
  | fault f =>
    cases h with
    | numberTooLarge hne _ _ _ => exact hne
    | unclosedComment _ => exact List.cons_ne_nil _ _
    | strayCharacter _ _ _ _ _ => exact List.cons_ne_nil _ _

/-! ### The kinds of characters exclude each other -/

theorem isBlank_iff {c : Char} : isBlank c = true ↔ c = ' ' ∨ c = '\t' ∨ c = '\r' ∨ c = '\n' ∨ c = '\x0c' := by
  simp only [isBlank, Bool.or_eq_true, decide_eq_true_eq, or_assoc]

theorem not_isBlank_of_isNameStart {c : Char} (h : isNameStart c = true) : isBlank c = false := by
  by_contra hb
  rw [Bool.not_eq_false, isBlank_iff] at hb
  rcases hb with rfl | rfl | rfl | rfl | rfl <;> cases h

theorem not_isBlank_of_isDigit {c : Char} (h : c.isDigit = true) : isBlank c = false := by
  by_contra hb
  rw [Bool.not_eq_false, isBlank_iff] at hb
  rcases hb with rfl | rfl | rfl | rfl | rfl <;> cases h

theorem not_isNameStart_of_isDigit {c : Char} (h : c.isDigit = true) : isNameStart c = false := by
  have halpha : c.isAlpha = false := by
    delta Char.isDigit at h
    delta Char.isAlpha Char.isUpper Char.isLower
    grind
  have hunderscore : c ≠ '_' := fun hc => by subst hc; cases h
  simp [isNameStart, halpha, hunderscore]

/-- A character that starts a mark starts nothing else. -/
theorem kinds_of_mem_head?_chars {m : Mark} {c : Char} (h : c ∈ m.chars.head?) :
    isBlank c = false ∧ c ≠ '/' ∧ isNameStart c = false ∧ c.isDigit = false := by
  cases m <;> cases h <;> decide

/-! ### Each piece is found -/

section Front

variable {c : Char} {more after : List Char}

theorem front_word (hc : isNameStart c = true) (hmore : ∀ d ∈ more, isNameChar d = true)
    (hend : ∀ d ∈ after.head?, isNameChar d = false) :
    front c (more ++ after) = (.token (ofWord (c :: more)), more) := by
  have hslash : c ≠ '/' := fun h => by subst h; cases hc
  unfold front
  rw [if_neg (by simp [not_isBlank_of_isNameStart hc]), if_neg (by simp [hslash]), if_neg (by simp [hslash]), if_pos hc,
    takeWhile_append_eq_left hmore hend]

theorem front_digits (hc : c.isDigit = true) (hmore : ∀ d ∈ more, d.isDigit = true)
    (hend : ∀ d ∈ after.head?, d.isDigit = false) : front c (more ++ after) =
      if digitsValue (c :: more) ≤ largestNumber then (.token (.number (digitsValue (c :: more))), more)
      else (.fault (.numberTooLarge (String.ofList (c :: more))), more) := by
  have hslash : c ≠ '/' := fun h => by subst h; cases hc
  unfold front
  rw [if_neg (by simp [not_isBlank_of_isDigit hc]), if_neg (by simp [hslash]), if_neg (by simp [hslash]),
    if_neg (by simp [not_isNameStart_of_isDigit hc]), if_pos hc, takeWhile_append_eq_left hmore hend]

theorem front_mark {m : Mark} (hm : c :: more = m.chars) (hend : (Token.mark m).Ends after) :
    front c (more ++ after) = (.token (.mark m), more) := by
  obtain ⟨hblank, hslash, hname, hdigit⟩ := kinds_of_mem_head?_chars (m := m) (c := c) (by rw [← hm]; rfl)
  have hfind : Mark.all.find? (fun m => m.chars.isPrefixOf (c :: (more ++ after))) = some m := by
    rw [← List.cons_append, hm]
    cases m with
    | dot =>
      cases after with
      | nil => rfl
      | cons d after =>
        have hd : d ≠ '.' := by simpa [goesOn] using hend d rfl
        simp [Mark.all, Mark.chars, hd.symm]
    | _ => rfl
  unfold front
  rw [if_neg (by simp [hblank]), if_neg (by simp [hslash]), if_neg (by simp [hslash]), if_neg (by simp [hname]),
    if_neg (by simp [hdigit]), hfind]
  exact congrArg (Prod.mk _) (congrArg List.tail hm.symm)

theorem front_lineComment (rest : List Char) :
    front '/' ('/' :: rest) = (.gap, ('/' :: rest).takeWhile (· ≠ '\n')) := rfl

theorem front_blockComment (rest : List Char) : front '/' ('*' :: rest) =
    match commentBody? rest with
    | some body => (.gap, '*' :: body)
    | none => (.fault .unclosedComment, '*' :: rest) := rfl

theorem front_gap (h : IsGap (c :: more) after) : front c (more ++ after) = (.gap, more) := by
  generalize hw : c :: more = word at h
  cases h with
  | blank h =>
    cases hw
    exact if_pos h
  | @lineComment body _ hbody hend =>
    cases hw
    have hline : ∀ d ∈ '/' :: body, decide (d ≠ '\n') = true := by
      intro d hd
      rcases List.mem_cons.1 hd with rfl | hd
      · rfl
      · exact decide_eq_true (fun he => hbody (he ▸ hd))
    rw [List.cons_append, front_lineComment, ← List.cons_append,
      takeWhile_append_eq_left hline (fun d hd => by simp [hend d hd])]
  | @blockComment body _ hbody =>
    cases hw
    rw [List.cons_append, front_blockComment, List.append_assoc]
    simp only [List.cons_append, List.nil_append, commentBody?_append hbody]

theorem front_fault {f : SyntaxFault} (h : Faulty f (c :: more) after) :
    front c (more ++ after) = (.fault f, more) := by
  generalize hw : c :: more = word at h
  cases h with
  | numberTooLarge hne hd hv hend =>
    subst hw
    rw [front_digits (hd c List.mem_cons_self) (fun d hm => hd d (List.mem_cons_of_mem c hm)) hend]
    exact if_neg (Nat.not_le.2 hv)
  | unclosedComment hbody =>
    cases hw
    rw [List.append_nil, front_blockComment, commentBody?_eq_none hbody]
  | strayCharacter hblank hname hdigit hmark hcomment =>
    cases hw
    have hfind : Mark.all.find? (fun m => m.chars.isPrefixOf (c :: after)) = none :=
      List.find?_eq_none.2 (fun m _ hm => hmark m (List.isPrefixOf_iff_prefix.1 hm))
    have hline : ¬ (decide (c = '/') && decide (after.head? = some '/')) = true := by
      simpa using fun hc hd => (hcomment hc '/' hd).1 rfl
    have hblock : ¬ (decide (c = '/') && decide (after.head? = some '*')) = true := by
      simpa using fun hc hd => (hcomment hc '*' hd).2 rfl
    unfold front
    rw [List.nil_append, if_neg (by simp [hblank]), if_neg hline, if_neg hblock, if_neg (by simp [hname]),
      if_neg (by simp [hdigit]), hfind]

theorem isWord_keyword (k : Keyword) :
    k.text.toList.head?.all isNameStart = true ∧ k.text.toList.all isNameChar = true ∧
      ofWord k.text.toList = .keyword k := by
  cases k <;> decide

theorem ofWord_eq_name {word : List Char} (h : Keyword.ofText? (String.ofList word) = none) :
    ofWord word = .name (String.ofList word) := by
  unfold ofWord
  rw [h]

/-- **Whatever piece stands at the front of a text is found.** -/
theorem front_of_fits {p : Piece} (h : p.Fits (c :: more) after) : front c (more ++ after) = (p, more) := by
  cases p with
  | gap => exact front_gap h
  | fault f => exact front_fault h
  | token t =>
    obtain ⟨hspells, hend⟩ := h
    generalize hw : c :: more = word at hspells
    cases hspells with
    | keyword k =>
      obtain ⟨hc, hall, hk⟩ := isWord_keyword k
      rw [← hw] at hc hall hk
      rw [front_word (by simpa using hc) (fun d hd => List.all_eq_true.1 hall d (List.mem_cons_of_mem c hd)) hend, hk]
    | name hn =>
      subst hw
      simp only [isName, Bool.and_eq_true, List.all_eq_true, Option.isNone_iff_eq_none] at hn
      obtain ⟨⟨hc, hmore⟩, hk⟩ := hn
      rw [front_word hc hmore hend, ofWord_eq_name hk]
    | mark m => exact front_mark hw hend
    | number hne hd hv =>
      subst hw
      rw [front_digits (hd c List.mem_cons_self) (fun d hm => hd d (List.mem_cons_of_mem c hm)) hend]
      exact if_pos hv

end Front

/-! ### Some piece stands there -/

theorem exists_takeWhile (p : Char → Bool) (text : List Char) : ∃ l after, text = l ++ after ∧ (∀ c ∈ l, p c = true) ∧
    ∀ c ∈ after.head?, p c = false := by
  refine ⟨text.takeWhile p, text.dropWhile p, (List.takeWhile_append_dropWhile).symm,
    fun c hc => List.mem_takeWhile_imp hc, fun c hc => ?_⟩
  have := List.head?_dropWhile_not p text
  rw [Option.mem_def.1 hc] at this
  simpa using this

theorem exists_fits_word {c : Char} (hc : isNameStart c = true) (rest : List Char) : ∃ t more after,
    rest = more ++ after ∧ Spells (c :: more) t ∧ t.Ends after := by
  obtain ⟨more, after, rfl, hmore, hend⟩ := exists_takeWhile isNameChar rest
  cases hk : Keyword.ofText? (String.ofList (c :: more)) with
  | some k =>
    have hword : (c :: more) = k.text.toList := by
      have h := List.find?_some hk
      rw [decide_eq_true_eq] at h
      rw [h, String.toList_ofList]
    exact ⟨.keyword k, more, after, rfl, hword ▸ .keyword k, hend⟩
  | none =>
    refine ⟨_, more, after, rfl, .name ?_, hend⟩
    simp only [isName, Bool.and_eq_true, List.all_eq_true, Option.isNone_iff_eq_none]
    exact ⟨⟨hc, hmore⟩, hk⟩

theorem exists_fits_digits {c : Char} (hc : c.isDigit = true) (rest : List Char) : ∃ p : Piece, ∃ more after,
    rest = more ++ after ∧ p.Fits (c :: more) after := by
  obtain ⟨more, after, rfl, hmore, hend⟩ := exists_takeWhile Char.isDigit rest
  have hall : ∀ d ∈ c :: more, d.isDigit = true := List.forall_mem_cons.2 ⟨hc, hmore⟩
  by_cases hv : Nat.ofDigitChars 10 (c :: more) 0 ≤ largestNumber
  · exact ⟨.token _, more, after, rfl, .number (List.cons_ne_nil c more) hall hv, hend⟩
  · exact ⟨.fault _, more, after, rfl, .numberTooLarge (List.cons_ne_nil c more) hall (Nat.not_le.1 hv) hend⟩

theorem exists_fits_slash (rest : List Char) :
    (∃ p : Piece, ∃ more after, rest = more ++ after ∧ p.Fits ('/' :: more) after) ∨
      ∀ d ∈ rest.head?, d ≠ '/' ∧ d ≠ '*' := by
  by_cases hline : rest.head? = some '/'
  · obtain ⟨rest, rfl⟩ := List.head?_eq_some_iff.1 hline
    obtain ⟨body, after, rfl, hbody, hend⟩ := exists_takeWhile (· ≠ '\n') rest
    refine .inl ⟨.gap, '/' :: body, after, rfl, .lineComment (fun hn => ?_) (fun d hd => ?_)⟩
    · exact absurd rfl (of_decide_eq_true (hbody _ hn))
    · exact not_not.1 (of_decide_eq_false (hend d hd))
  by_cases hblock : rest.head? = some '*'
  · obtain ⟨rest, rfl⟩ := List.head?_eq_some_iff.1 hblock
    by_cases hclose : ['*', '/'] <:+: rest
    · obtain ⟨body, after, rfl, hbody⟩ := exists_first_close hclose
      exact .inl ⟨.gap, '*' :: (body ++ ['*', '/']), after, by simp, .blockComment hbody⟩
    · exact .inl ⟨.fault _, '*' :: rest, [], by simp, .unclosedComment hclose⟩
  refine .inr (fun d hd => ⟨?_, ?_⟩)
  · rintro rfl
    exact hline hd
  · rintro rfl
    exact hblock hd

/-- Where a mark stands, the longest one that does ends. -/
theorem exists_fits_mark {m : Mark} {c : Char} {rest : List Char} (h : m.chars <+: c :: rest) :
    ∃ m' : Mark, ∃ more after, rest = more ++ after ∧ Spells (c :: more) (.mark m') ∧ (Token.mark m').Ends after := by
  obtain ⟨after, ha⟩ := h
  by_cases hm : m = .dot ∧ after.head? = some '.'
  · obtain ⟨rfl, hd⟩ := hm
    obtain ⟨after, rfl⟩ := List.head?_eq_some_iff.1 hd
    cases ha
    exact ⟨.dots, ['.'], after, rfl, .mark .dots, fun d _ => rfl⟩
  · obtain ⟨more, hmore⟩ : ∃ more, m.chars = c :: more := by
      cases m <;> cases ha <;> exact ⟨_, rfl⟩
    rw [hmore] at ha
    cases ha
    refine ⟨m, more, after, rfl, hmore ▸ .mark m, fun d hd => ?_⟩
    simp only [goesOn, Bool.and_eq_false_iff, decide_eq_false_iff_not]
    rw [← not_and_or]
    rintro ⟨rfl, rfl⟩
    exact hm ⟨rfl, hd⟩

/-- **Some piece stands at the front of a text.** -/
theorem exists_fits (c : Char) (rest : List Char) : ∃ p : Piece, ∃ more after,
    rest = more ++ after ∧ p.Fits (c :: more) after := by
  by_cases hblank : isBlank c = true
  · exact ⟨.gap, [], rest, rfl, .blank hblank⟩
  by_cases hname : isNameStart c = true
  · obtain ⟨t, more, after, hrest, hfits⟩ := exists_fits_word hname rest
    exact ⟨.token t, more, after, hrest, hfits⟩
  by_cases hdigit : c.isDigit = true
  · exact exists_fits_digits hdigit rest
  by_cases hmark : ∃ m : Mark, m.chars <+: c :: rest
  · obtain ⟨m, hm⟩ := hmark
    obtain ⟨m', more, after, hrest, hfits⟩ := exists_fits_mark hm
    exact ⟨.token (.mark m'), more, after, hrest, hfits⟩
  rw [Bool.not_eq_true] at hblank hname hdigit
  have hstray : (c = '/' → ∀ d ∈ rest.head?, d ≠ '/' ∧ d ≠ '*') → ∃ p : Piece, ∃ more after,
      rest = more ++ after ∧ p.Fits (c :: more) after := fun hcomment =>
    ⟨.fault _, [], rest, rfl, .strayCharacter hblank hname hdigit (not_exists.1 hmark) hcomment⟩
  by_cases hslash : c = '/'
  · subst hslash
    exact (exists_fits_slash rest).elim id (fun h => hstray (fun _ => h))
  · exact hstray (fun h => absurd h hslash)

/-! ## Whole texts -/

section Whole

variable {start : Nat} {text word after : List Char} {ts : List (Located Token)}

theorem lexFrom_gap (h : IsGap word after) (start : Nat) :
    lexFrom start (word ++ after) = lexFrom (start + byteWidth word) after := by
  have hfits : Piece.gap.Fits word after := h
  obtain ⟨c, more, rfl⟩ := List.exists_cons_of_ne_nil hfits.ne_nil
  rw [List.cons_append, lexFrom, front_of_fits hfits, List.drop_left]

theorem lexFrom_token {t : Token} (h : Spells word t) (hend : t.Ends after) (start : Nat) :
    lexFrom start (word ++ after) =
      (lexFrom (start + byteWidth word) after).map (⟨t, ⟨start, start + byteWidth word⟩⟩ :: ·) := by
  have hfits : (Piece.token t).Fits word after := ⟨h, hend⟩
  obtain ⟨c, more, rfl⟩ := List.exists_cons_of_ne_nil hfits.ne_nil
  rw [List.cons_append, lexFrom, front_of_fits hfits, List.drop_left]

theorem lexFrom_fault {f : SyntaxFault} (h : Faulty f word after) (start : Nat) :
    lexFrom start (word ++ after) = .error ⟨f, ⟨start, start + byteWidth word⟩⟩ := by
  have hfits : (Piece.fault f).Fits word after := h
  obtain ⟨c, more, rfl⟩ := List.exists_cons_of_ne_nil hfits.ne_nil
  rw [List.cons_append, lexFrom, front_of_fits hfits]

/-- **A part that is divided is lexed by itself**, and what is behind it from its end. -/
theorem lexFrom_append (h : Divided start text after ts) :
    lexFrom start (text ++ after) = (lexFrom (start + byteWidth text) after).map (ts ++ ·) := by
  induction h with
  | @nil start after =>
    show lexFrom start after = (lexFrom start after).map id
    cases lexFrom start after <;> rfl
  | gap h _ ih => rw [List.append_assoc, lexFrom_gap h, ih, byteWidth_append, Nat.add_assoc]
  | @token start word text after t ts h hend _ ih =>
    rw [List.append_assoc, lexFrom_token h hend, ih, byteWidth_append, Nat.add_assoc]
    cases lexFrom (start + (byteWidth word + byteWidth text)) after <;> rfl

/-- **Every text is divided up to its end or its first fault.** -/
theorem exists_divided (start : Nat) (text : List Char) : ∃ before rest ts, text = before ++ rest ∧
    Divided start before rest ts ∧ (rest = [] ∨ ∃ f word after, rest = word ++ after ∧ Faulty f word after) := by
  match text with
  | [] => exact ⟨[], [], [], rfl, .nil, .inl rfl⟩
  | c :: rest =>
    obtain ⟨p, more, after, htext, hfits⟩ := exists_fits c rest
    have hlt : after.length < (c :: rest).length := by
      rw [htext, List.length_cons, List.length_append]
      omega
    obtain ⟨before, rest', ts, hafter, hdiv, hrest⟩ := exists_divided (start + byteWidth (c :: more)) after
    rw [htext, ← List.cons_append]
    cases p with
    | gap =>
      subst hafter
      exact ⟨(c :: more) ++ before, rest', ts, by simp, .gap hfits hdiv, hrest⟩
    | token t =>
      subst hafter
      exact ⟨(c :: more) ++ before, rest', _, by simp, .token hfits.1 hfits.2 hdiv, hrest⟩
    | fault f => exact ⟨[], _, [], rfl, .nil, .inr ⟨f, c :: more, after, rfl, hfits⟩⟩
termination_by text.length

theorem lexFrom_eq_ok_iff : lexFrom start text = .ok ts ↔ Divided start text [] ts := by
  constructor
  · intro h
    obtain ⟨before, rest, ts', rfl, hdiv, hrest⟩ := exists_divided start text
    rw [lexFrom_append hdiv] at h
    rcases hrest with rfl | ⟨f, word, after, rfl, hfaulty⟩
    · rw [lexFrom] at h
      cases h
      show Divided start (before ++ []) [] (ts' ++ [])
      rwa [List.append_nil, List.append_nil]
    · rw [lexFrom_fault hfaulty] at h
      cases h
  · intro h
    have hlex := lexFrom_append h
    rw [List.append_nil, lexFrom] at hlex
    rw [hlex]
    exact congrArg Except.ok (List.append_nil ts)

theorem lexFrom_eq_error_iff {fault : Located SyntaxFault} : lexFrom start text = .error fault ↔
    ∃ before word after ts, text = before ++ (word ++ after) ∧ Divided start before (word ++ after) ts ∧
      Faulty fault.value word after ∧
      fault.span = ⟨start + byteWidth before, start + byteWidth before + byteWidth word⟩ := by
  constructor
  · intro h
    obtain ⟨before, rest, ts', rfl, hdiv, hrest⟩ := exists_divided start text
    rw [lexFrom_append hdiv] at h
    rcases hrest with rfl | ⟨f, word, after, rfl, hfaulty⟩
    · rw [lexFrom] at h
      cases h
    · rw [lexFrom_fault hfaulty] at h
      cases h
      exact ⟨before, word, after, ts', rfl, hdiv, hfaulty, rfl⟩
  · rintro ⟨before, word, after, ts, rfl, hdiv, hfaulty, hspan⟩
    rw [lexFrom_append hdiv, lexFrom_fault hfaulty, ← hspan]
    rfl

/-- **Where the tokens stand**: in order, each over its own characters, which spell it and cannot be continued. -/
theorem Divided.places (h : Divided start text after ts) :
    ts.Pairwise (fun a b => a.span.stop ≤ b.span.start) ∧ ∀ t ∈ ts, start ≤ t.span.start ∧ t.span.start < t.span.stop ∧
      ∃ before word rest, text = before ++ (word ++ rest) ∧
        t.span = ⟨start + byteWidth before, start + byteWidth before + byteWidth word⟩ ∧
        Spells word t.value ∧ t.value.Ends (rest ++ after) := by
  induction h with
  | nil => exact ⟨.nil, fun t ht => by cases ht⟩
  | @gap start word text after ts _ _ ih =>
    refine ⟨ih.1, fun t ht => ?_⟩
    obtain ⟨hle, hlt, before, w, rest, rfl, hspan, hspells⟩ := ih.2 t ht
    refine ⟨by omega, hlt, word ++ before, w, rest, (List.append_assoc ..).symm, ?_, hspells⟩
    rw [hspan, byteWidth_append, Nat.add_assoc]
  | @token start word text after t ts h hend _ ih =>
    refine ⟨List.pairwise_cons.2 ⟨fun u hu => (ih.2 u hu).1, ih.1⟩, fun u hu => ?_⟩
    rcases List.mem_cons.1 hu with rfl | hu
    · have hpos : 0 < byteWidth word := byteWidth_pos h.ne_nil
      exact ⟨Nat.le_refl _, by show start < start + byteWidth word; omega, [], word, text, rfl, rfl, h, hend⟩
    · obtain ⟨hle, hlt, before, w, rest, rfl, hspan, hspells⟩ := ih.2 u hu
      refine ⟨by omega, hlt, word ++ before, w, rest, (List.append_assoc ..).symm, ?_, hspells⟩
      rw [hspan, byteWidth_append, Nat.add_assoc]

end Whole

/-- **Lexing is exact.**  The tokens of a text are those into which it is divided, with gaps before, between and behind
them; they stand one behind the other, each over the characters that spell it, and none of them could be longer.  A text
that is not divided is refused for the fault at which its division stops: a character that begins nothing, a comment that
is not closed or a number that is too large. -/
theorem lex_divides (text : String) :
    (∀ ts, lex text = .ok ts ↔ Divided 0 text.toList [] ts) ∧
    (∀ ts, lex text = .ok ts → ts.Pairwise (fun a b => a.span.stop ≤ b.span.start) ∧
      ∀ t ∈ ts, t.span.start < t.span.stop ∧ ∃ before word after, text.toList = before ++ (word ++ after) ∧
        t.span = ⟨byteWidth before, byteWidth before + byteWidth word⟩ ∧ Spells word t.value ∧ t.value.Ends after) ∧
    ∀ fault, lex text = .error fault ↔ ∃ before word after ts, text.toList = before ++ (word ++ after) ∧
      Divided 0 before (word ++ after) ts ∧ Faulty fault.value word after ∧
      fault.span = ⟨byteWidth before, byteWidth before + byteWidth word⟩ := by
  refine ⟨fun ts => lexFrom_eq_ok_iff, fun ts h => ?_, fun fault => ?_⟩
  · obtain ⟨hpairs, hplaces⟩ := (lexFrom_eq_ok_iff.1 h).places
    refine ⟨hpairs, fun t ht => ?_⟩
    obtain ⟨-, hlt, before, word, after, htext, hspan, hspells, hend⟩ := hplaces t ht
    rw [Nat.zero_add] at hspan
    rw [List.append_nil] at hend
    exact ⟨hlt, before, word, after, htext, hspan, hspells, hend⟩
  · unfold lex
    rw [lexFrom_eq_error_iff]
    simp only [Nat.zero_add]

/-- Comments that seem to overlap, a number that two dots follow, and a name that begins like a keyword. -/
theorem lex_divides_comments : ∃ ts, lex "0..12/*/**/isAx//*/" = .ok ts ∧
    ts.map Located.value = [.number 0, .mark .dots, .number 12, .name "isAx"] ∧
    Divided 0 "0..12/*/**/isAx//*/".toList [] ts ∧ ts.Pairwise (fun a b => a.span.stop ≤ b.span.start) := by
  obtain ⟨hok, hplaces, -⟩ := lex_divides "0..12/*/**/isAx//*/"
  have hlex : lex "0..12/*/**/isAx//*/" = .ok [⟨.number 0, ⟨0, 1⟩⟩, ⟨.mark .dots, ⟨1, 3⟩⟩, ⟨.number 12, ⟨3, 5⟩⟩,
      ⟨.name "isAx", ⟨11, 15⟩⟩] := by decide +kernel
  exact ⟨_, hlex, rfl, (hok _).1 hlex, (hplaces _ hlex).1⟩

end Token
end Accessors
