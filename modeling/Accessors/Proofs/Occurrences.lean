import Accessors.Text.Lines
import Accessors.Text.Pieces
import Mathlib.Data.List.Forall2
import Mathlib.Data.List.Infix
/-!
# How often something stands in a text

A text of lines is cut into these lines again if none of them holds a line feed (`pieces_unlines`), and a pattern
without a line feed stands in it as often as in all lines together (`occurrences_unlines_cons`).  In a line with one
bracket, a word and the bracket behind it stand just if the word before the bracket is this one
(`occurrencesChars_bracket`).
-/
namespace Accessors

/-! ## Patterns -/

section Chars

variable {c : Char} {p q l r : List Char}

/-- How often the pattern stands in the text: at the front of how many of its ends. -/
def occurrencesChars (pattern text : List Char) : Nat := text.tails.countP fun rest => pattern.isPrefixOf rest

theorem occurrencesChars_cons (p : List Char) (c : Char) (l : List Char) :
    occurrencesChars p (c :: l) = occurrencesChars p l + if p <+: c :: l then 1 else 0 := by
  unfold occurrencesChars
  rw [List.tails_cons, List.countP_cons]
  simp only [List.isPrefixOf_iff_prefix]

theorem occurrencesChars_nil (hp : p ≠ []) : occurrencesChars p [] = 0 := by
  cases p with
  | nil => exact absurd rfl hp
  | cons d p => rfl

/-- **A pattern stands nowhere** in a text that lacks one of its characters. -/
theorem occurrencesChars_eq_zero (hp : c ∈ p) (hl : c ∉ l) : occurrencesChars p l = 0 := by
  unfold occurrencesChars
  refine List.countP_eq_zero.2 (fun rest hrest hprefix => hl ?_)
  exact ((List.mem_tails _ _).1 hrest).subset ((List.isPrefixOf_iff_prefix.1 hprefix).subset hp)

theorem prefix_append_cons_iff (hp : c ∉ p) : p <+: l ++ c :: r ↔ p <+: l := by
  induction l generalizing p with
  | nil =>
    cases p with
    | nil => exact iff_of_true List.nil_prefix List.nil_prefix
    | cons d p =>
      have hne : d ≠ c := fun h => hp (h ▸ List.mem_cons_self)
      exact iff_of_false (fun h => hne (List.cons_prefix_cons.1 h).1) (fun h => by cases List.prefix_nil.1 h)
  | cons e l ih =>
    cases p with
    | nil => exact iff_of_true List.nil_prefix List.nil_prefix
    | cons d p =>
      rw [List.cons_append, List.cons_prefix_cons, List.cons_prefix_cons, ih (fun h => hp (List.mem_cons_of_mem d h))]

/-- **A pattern stands in no two pieces at once**: where a character that it lacks parts the text, it stands on either
side. -/
theorem occurrencesChars_append_cons (hne : p ≠ []) (hp : c ∉ p) :
    occurrencesChars p (l ++ c :: r) = occurrencesChars p l + occurrencesChars p r := by
  induction l with
  | nil =>
    have hfront : ¬ p <+: c :: r := fun h => hne (List.prefix_nil.1 ((prefix_append_cons_iff (l := []) hp).1 h))
    rw [List.nil_append, occurrencesChars_cons, if_neg hfront, occurrencesChars_nil hne, Nat.add_zero, Nat.zero_add]
  | cons d l ih =>
    have hfront := prefix_append_cons_iff (l := d :: l) (r := r) hp
    rw [List.cons_append] at hfront
    rw [List.cons_append, occurrencesChars_cons, occurrencesChars_cons, ih, if_congr hfront rfl rfl]
    omega

/-- Two texts are compared up to the first place of a character, and then behind it. -/
theorem append_cons_prefix_append_cons_iff (hp : c ∉ p) (hl : c ∉ l) : p ++ c :: q <+: l ++ c :: r ↔ p = l ∧ q <+: r := by
  induction p generalizing l with
  | nil =>
    cases l with
    | nil => simp only [List.nil_append, List.cons_prefix_cons, true_and]
    | cons e l =>
      have hne : c ≠ e := fun h => hl (h ▸ List.mem_cons_self)
      exact iff_of_false (fun h => hne (List.cons_prefix_cons.1 h).1) (fun h => by cases h.1)
  | cons d p ih =>
    cases l with
    | nil =>
      have hne : d ≠ c := fun h => hp (h ▸ List.mem_cons_self)
      exact iff_of_false (fun h => hne (List.cons_prefix_cons.1 h).1) (fun h => by cases h.1)
    | cons e l =>
      rw [List.cons_append, List.cons_append, List.cons_prefix_cons,
        ih (fun h => hp (List.mem_cons_of_mem d h)) (fun h => hl (List.mem_cons_of_mem e h)), List.cons.injEq, and_assoc]

theorem eq_of_append_cons_eq (hp : c ∉ p) (hl : c ∉ l) (h : p ++ c :: q = l ++ c :: r) : p = l ∧ q = r := by
  have hprefix : p ++ c :: q <+: l ++ c :: r := by rw [h]
  obtain ⟨rfl, -⟩ := (append_cons_prefix_append_cons_iff hp hl).1 hprefix
  exact ⟨rfl, (List.cons.inj (List.append_cancel_left h)).2⟩

theorem append_cons_suffix_append_cons_iff (hq : c ∉ q) (hr : c ∉ r) : p ++ c :: q <:+ l ++ c :: r ↔ p <:+ l ∧ q = r := by
  have hiff := append_cons_prefix_append_cons_iff (q := p.reverse) (r := l.reverse) (mt List.mem_reverse.1 hq)
    (mt List.mem_reverse.1 hr)
  rw [List.reverse_inj, List.reverse_prefix] at hiff
  rw [← List.reverse_prefix, List.reverse_append, List.reverse_append, List.reverse_cons, List.reverse_cons,
    List.append_assoc, List.append_assoc, List.singleton_append, List.singleton_append, hiff, and_comm]

/-- **In a text with one bracket**, what ends in the bracket stands once if what is before the bracket ends so, and
nowhere else. -/
theorem occurrencesChars_append_bracket (hp : c ∉ p) (hl : c ∉ l) (hr : c ∉ r) :
    occurrencesChars (p ++ [c]) (l ++ c :: r) = if p <:+ l then 1 else 0 := by
  have hmem : c ∈ p ++ [c] := List.mem_append_right _ List.mem_cons_self
  induction l with
  | nil =>
    have hfront := append_cons_prefix_append_cons_iff (q := []) (r := r) hp hl
    rw [List.nil_append] at hfront
    rw [List.nil_append, occurrencesChars_cons, occurrencesChars_eq_zero hmem hr, Nat.zero_add]
    refine if_congr ?_ rfl rfl
    rw [hfront, List.suffix_nil]
    exact and_iff_left List.nil_prefix
  | cons d l ih =>
    have hfront := append_cons_prefix_append_cons_iff (q := []) (r := r) hp hl
    rw [List.cons_append] at hfront
    rw [List.cons_append, occurrencesChars_cons, ih (fun h => hl (List.mem_cons_of_mem d h))]
    by_cases hwhole : p = d :: l
    · have hshort : ¬ p <:+ l := fun h => by
        have hlength := h.length_le
        rw [hwhole, List.length_cons] at hlength
        omega
      rw [if_neg hshort, if_pos (hfront.2 ⟨hwhole, List.nil_prefix⟩),
        if_pos (List.suffix_cons_iff.2 (.inl hwhole))]
    · rw [if_neg (fun h => hwhole (hfront.1 h).1), Nat.add_zero]
      exact if_congr (List.suffix_cons_iff.trans (or_iff_right hwhole)).symm rfl rfl

/-- **A word between a blank and a bracket** stands where the bracket is behind this word, and the same is before the
blank. -/
theorem occurrencesChars_bracket {word word' before before' : List Char} (hword : ' ' ∉ word) (hword' : ' ' ∉ word')
    (hp : '(' ∉ before ++ ' ' :: word) (hl : '(' ∉ before' ++ ' ' :: word') (hr : '(' ∉ r) :
    occurrencesChars (before ++ ' ' :: word ++ ['(']) (before' ++ ' ' :: word' ++ '(' :: r) =
      if before <:+ before' ∧ word = word' then 1 else 0 := by
  rw [occurrencesChars_append_bracket hp hl hr]
  exact if_congr (append_cons_suffix_append_cons_iff hword hword') rfl rfl

end Chars

/-! ## What is ahead of the first -/

section First

variable {α : Type} [DecidableEq α] {a : α} {l : List α}

theorem takeWhile_ne_append_cons (h : a ∉ l) (r : List α) : (l ++ a :: r).takeWhile (· ≠ a) = l := by
  have hne : ∀ b ∈ l, decide (b ≠ a) = true := fun b hb => decide_eq_true (ne_of_mem_of_not_mem hb h)
  rw [List.takeWhile_append_of_pos hne, List.takeWhile_cons_of_neg (by simp), List.append_nil]

theorem dropWhile_ne_append_cons (h : a ∉ l) (r : List α) : (l ++ a :: r).dropWhile (· ≠ a) = a :: r := by
  have hne : ∀ b ∈ l, decide (b ≠ a) = true := fun b hb => decide_eq_true (ne_of_mem_of_not_mem hb h)
  rw [List.dropWhile_append_of_pos hne, List.dropWhile_cons_of_neg (by simp)]

/-- What begins at an element that stands once. -/
theorem dropWhile_of_count_eq_one {r : List α} (h : (l ++ a :: r).count a = 1) :
    (l ++ a :: r).dropWhile (· ≠ a) = a :: r := by
  refine dropWhile_ne_append_cons (fun hmem => ?_) r
  have hpos := List.count_pos_iff.2 hmem
  rw [List.count_append, List.count_cons_self] at h
  omega

end First

/-! ## Texts -/

/-- How often a pattern stands in a text. -/
def occurrences (pattern text : String) : Nat := occurrencesChars pattern.toList text.toList

/-- None of the characters is in the text. -/
def Lacks (cs : List Char) (text : String) : Prop := ∀ c ∈ cs, c ∉ text.toList

namespace Lacks

variable {cs : List Char} {a b : String}

instance (cs : List Char) (text : String) : Decidable (Lacks cs text) := List.decidableBAll _ cs

theorem append (ha : Lacks cs a) (hb : Lacks cs b) : Lacks cs (a ++ b) := fun c hc => by
  rw [String.toList_append, List.mem_append, not_or]
  exact ⟨ha c hc, hb c hc⟩

theorem intercalate {separator : String} (hsep : Lacks cs separator) : ∀ {parts : List String},
    (∀ part ∈ parts, Lacks cs part) → Lacks cs (separator.intercalate parts)
  | [], _ => fun _ _ => List.not_mem_nil
  | [part], h => fun c hc => by
    rw [String.toList_intercalate, List.map_singleton, List.intercalate_singleton]
    exact h part List.mem_cons_self c hc
  | part :: next :: parts, h => fun c hc => by
    obtain ⟨hpart, hmore⟩ := List.forall_mem_cons.1 h
    have ih := intercalate hsep hmore c hc
    rw [String.toList_intercalate, List.map_cons] at ih ⊢
    rw [List.map_cons, List.intercalate_cons_cons]
    simp only [List.mem_append, not_or]
    exact ⟨⟨hpart c hc, hsep c hc⟩, ih⟩

end Lacks

/-- What is read from the runs of a text between its breaks, run by run. -/
structure ReadByRuns {α : Type} (isBreak : Char → Bool) (read : List Char → List α) : Prop where
  nil : read [] = []
  cons : ∀ {c : Char}, isBreak c = true → ∀ l r, read (l ++ c :: r) = read l ++ read r

namespace ReadByRuns

variable {α : Type} {isBreak : Char → Bool} {read : List Char → List α} (hread : ReadByRuns isBreak read)
  {a b : List Char}

include hread

/-- Behind a break another run begins. -/
theorem append (h : a.getLast?.any isBreak = true) : read (a ++ b) = read a ++ read b := by
  obtain ⟨c, hc, hbreak⟩ := (Option.any_eq_true _ _).1 h
  obtain ⟨l, rfl⟩ := List.getLast?_eq_some_iff.1 hc
  rw [List.append_assoc, List.singleton_append, hread.cons hbreak, hread.cons hbreak, hread.nil, List.append_nil]

/-- Ahead of a break a run has ended. -/
theorem append_of_head (h : b.head?.any isBreak = true) : read (a ++ b) = read a ++ read b := by
  obtain ⟨c, hc, hbreak⟩ := (Option.any_eq_true _ _).1 h
  obtain ⟨r, rfl⟩ := List.head?_eq_some_iff.1 hc
  have hrest := hread.cons hbreak [] r
  rw [hread.nil, List.nil_append, List.nil_append] at hrest
  rw [hread.cons hbreak, hrest]

end ReadByRuns

theorem toList_unlines_cons (line : String) (lines : List String) :
    (unlines (line :: lines)).toList = line.toList ++ '\n' :: (unlines lines).toList := by
  unfold unlines
  rw [List.map_cons, String.join_cons, String.toList_append, String.toList_append, List.append_assoc]
  rfl

theorem occurrences_unlines_nil {pattern : String} (hne : pattern ≠ "") : occurrences pattern (unlines []) = 0 :=
  occurrencesChars_nil (mt String.toList_eq_nil_iff.1 hne)

/-- **A pattern without a line feed** stands in a text as often as in its first line and in the others. -/
theorem occurrences_unlines_cons {pattern : String} (hne : pattern ≠ "") (hbreak : '\n' ∉ pattern.toList)
    (line : String) (lines : List String) :
    occurrences pattern (unlines (line :: lines)) = occurrences pattern line + occurrences pattern (unlines lines) := by
  unfold occurrences
  rw [toList_unlines_cons, occurrencesChars_append_cons (mt String.toList_eq_nil_iff.1 hne) hbreak]

theorem piecesChars_append_cons {separator : Char} : ∀ {l : List Char}, separator ∉ l → ∀ rest : List Char,
    piecesChars separator (l ++ separator :: rest) = l :: piecesChars separator rest
  | [], _, rest => if_pos rfl
  | c :: l, h, rest => by
    have hne : c ≠ separator := fun hc => h (hc ▸ List.mem_cons_self)
    rw [List.cons_append, piecesChars, if_neg hne, piecesChars_append_cons (fun hl => h (List.mem_cons_of_mem c hl))]

/-- **The lines of a text are its pieces**, with an empty one behind the last line feed. -/
theorem pieces_unlines : ∀ {lines : List String}, (∀ line ∈ lines, '\n' ∉ line.toList) →
    pieces '\n' (unlines lines) = lines ++ [""]
  | [], _ => rfl
  | line :: lines, h => by
    obtain ⟨hline, hlines⟩ := List.forall_mem_cons.1 h
    have ih := pieces_unlines hlines
    unfold pieces at ih ⊢
    rw [toList_unlines_cons, piecesChars_append_cons hline, List.map_cons, ih, String.ofList_toList, List.cons_append]

/-! ## Blocks -/

theorem spaced_cons (block : List String) {blocks : List (List String)} (h : blocks ≠ []) :
    spaced (block :: blocks) = block ++ "" :: spaced blocks := by
  obtain ⟨next, more, rfl⟩ := List.exists_cons_of_ne_nil h
  unfold spaced
  rw [List.intercalate_cons_cons, List.append_assoc]
  rfl

theorem spaced_singleton (block : List String) : spaced [block] = block := List.intercalate_singleton

/-- The empty lines between blocks do not count for what is read from them. -/
theorem flatMap_spaced {α : Type} {f : String → List α} (hf : f "" = []) : ∀ blocks : List (List String),
    (spaced blocks).flatMap f = blocks.flatMap (·.flatMap f)
  | [] => rfl
  | [block] => by rw [spaced_singleton, List.flatMap_singleton]
  | block :: next :: blocks => by
    rw [spaced_cons block (List.cons_ne_nil _ _), List.flatMap_append, List.flatMap_cons, hf, List.nil_append,
      flatMap_spaced hf (next :: blocks)]
    exact List.flatMap_cons.symm

theorem filterMap_spaced {α : Type} {f : String → Option α} (hf : f "" = none) (blocks : List (List String)) :
    (spaced blocks).filterMap f = blocks.flatMap (·.filterMap f) := by
  have hempty : (f "").toList = [] := by rw [hf]; rfl
  simp only [List.filterMap_eq_flatMap_toList]
  exact flatMap_spaced hempty blocks

theorem infix_spaced {block : List String} : ∀ {blocks : List (List String)}, block ∈ blocks → block <:+: spaced blocks
  | [only], h => by
    rw [List.mem_singleton.1 h, spaced_singleton]
  | first :: next :: blocks, h => by
    rw [spaced_cons first (List.cons_ne_nil _ _)]
    rcases List.mem_cons.1 h with rfl | h
    · exact (List.prefix_append _ _).isInfix
    · exact (infix_spaced h).trans ((List.suffix_cons _ _).trans (List.suffix_append _ _)).isInfix

/-- Behind a block, too, there is an empty line, or the text ends. -/
theorem infix_spaced_concat {block : List String} : ∀ {blocks : List (List String)}, block ∈ blocks →
    block ++ [""] <:+: spaced blocks ++ [""]
  | [only], h => by
    rw [List.mem_singleton.1 h, spaced_singleton]
  | first :: next :: blocks, h => by
    rw [spaced_cons first (List.cons_ne_nil _ _)]
    rcases List.mem_cons.1 h with rfl | h
    · exact ⟨[], spaced (next :: blocks) ++ [""], by simp⟩
    · exact (infix_spaced_concat h).trans ⟨first ++ [""], [], by simp⟩

theorem forall₂_map_map {α β γ : Type} {R : β → γ → Prop} {f : α → β} {f' : α → γ} {l : List α}
    (h : ∀ a ∈ l, R (f a) (f' a)) : List.Forall₂ R (l.map f) (l.map f') := by
  rw [List.forall₂_map_left_iff, List.forall₂_map_right_iff, List.forall₂_same]
  exact h

theorem count_eq_zero_of_ne {α : Type} [DecidableEq α] {a b : α} (hne : a ≠ b) {l : List α} (h : l ∈ [[], [b]]) :
    l.count a = 0 := by
  rcases List.mem_cons.1 h with rfl | h
  · rfl
  · cases List.mem_singleton.1 h
    exact List.count_eq_zero.2 fun hmem => hne (List.mem_singleton.1 hmem)

theorem flatten_map_singleton {α β : Type} (f : α → β) (l : List α) : (l.map fun a => [f a]).flatten = l.map f := by
  rw [← List.flatMap_def, ← List.map_eq_flatMap]

end Accessors
