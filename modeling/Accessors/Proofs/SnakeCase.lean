import Mathlib
import Accessors.Name
/-!
# Names in small letters

Read from left to right, a name in small letters is the name with every capital made small and an underscore put in front
of some of the capitals, none of them first and none behind an underscore (`Name.Parted`).  So within ASCII it has no
capitals left, is its own form in small letters, and tells apart all names that differ in more than letter case and
underscores (`Name.snake_parts_words`).
-/
namespace Accessors
namespace LetterCase

/-- What holds of each of the 128 characters holds of all ASCII characters. -/
theorem of_ascii {p : Char → Prop} (h : ∀ n < 128, p (Char.ofNat n)) {c : Char} (hc : c.toNat < 128) : p c := by
  have hn := h c.toNat hc
  rwa [Char.ofNat_toNat] at hn

variable {c : Char} (hc : c.toNat < 128)

include hc

theorem isUpper_of_ascii : isUpper c = c.isUpper := if_pos hc

theorem isLower_of_ascii : isLower c = c.isLower := if_pos hc

theorem toLower_of_ascii : toLower c = [c.toLower] := if_pos hc

theorem toLower_lt_of_ascii : c.toLower.toNat < 128 := of_ascii (p := fun c => c.toLower.toNat < 128) (by decide) hc

end LetterCase

namespace Name

/-- `Parted previous cs ds`: behind the character `previous`, `ds` is `cs` in small letters, with underscores that stand
only between a letter or a digit and a capital, and so neither in front of everything nor beside an underscore. -/
inductive Parted : Option Char → List Char → List Char → Prop
  | nil {previous} : Parted previous [] []
  | keep {previous c cs ds} (h : Parted (some c) cs ds) : Parted previous (c :: cs) (c.toLower :: ds)
  | part {p c cs ds} (hp : p.isAlphanum = true) (hc : c.isUpper = true) (h : Parted (some c) cs ds) :
    Parted (some p) (c :: cs) ('_' :: c.toLower :: ds)

/-- **The words of ASCII names start** behind letters and digits. -/
theorem exists_of_startsWord {previous next : Option Char} (hprevious : ∀ p ∈ previous, p.toNat < 128)
    (h : startsWord previous next = true) : ∃ p, previous = some p ∧ p.isAlphanum = true := by
  unfold startsWord at h
  split at h
  · cases h
  · rename_i p
    have hp := hprevious p rfl
    rw [LetterCase.isLower_of_ascii hp, LetterCase.isUpper_of_ascii hp, Bool.or_eq_true, Bool.or_eq_true,
      Bool.and_eq_true] at h
    refine ⟨p, rfl, ?_⟩
    unfold Char.isAlphanum Char.isAlpha
    rcases h with (h | h) | ⟨h, -⟩
    · rw [h, Bool.or_true, Bool.true_or]
    · rw [h, Bool.or_true]
    · rw [h, Bool.true_or, Bool.true_or]

/-- **One character**: an underscore if it is a capital at which a word starts, and the character in small letters. -/
theorem snakeChars_cons {c : Char} (hc : c.toNat < 128) (previous : Option Char) (cs : List Char) :
    snakeChars previous (c :: cs) =
      (if c.isUpper ∧ startsWord previous cs.head? then ['_'] else []) ++ c.toLower :: snakeChars (some c) cs := by
  rw [snakeChars, LetterCase.isUpper_of_ascii hc, LetterCase.toLower_of_ascii hc]
  by_cases hcapital : c.isUpper = true
  · simp only [hcapital, if_true, true_and, List.append_assoc, List.singleton_append]
  · rw [if_neg hcapital, if_neg (fun h => hcapital h.1), Char.toLower_eq_of_not_isUpper hcapital]
    rfl

theorem parted_snakeChars {cs : List Char} (hcs : ∀ c ∈ cs, c.toNat < 128) {previous : Option Char}
    (hprevious : ∀ p ∈ previous, p.toNat < 128) : Parted previous cs (snakeChars previous cs) := by
  induction cs generalizing previous with
  | nil => exact .nil
  | cons c cs ih =>
    obtain ⟨hc, hrest⟩ := List.forall_mem_cons.1 hcs
    have hbehind : Parted (some c) cs (snakeChars (some c) cs) := ih hrest (by simpa using hc)
    rw [snakeChars_cons hc]
    split
    · rename_i hstart
      obtain ⟨p, rfl, hp⟩ := exists_of_startsWord hprevious hstart.2
      exact .part hp hstart.1 hbehind
    · exact .keep hbehind

namespace Parted

variable {previous : Option Char} {cs ds : List Char}

/-- **Only underscores are new.** -/
theorem mem {d : Char} (h : Parted previous cs ds) (hd : d ∈ ds) : d = '_' ∨ ∃ c ∈ cs, d = c.toLower := by
  induction h with
  | nil => cases hd
  | @keep _ c cs _ _ ih =>
    rcases List.mem_cons.1 hd with rfl | hd
    · exact .inr ⟨c, List.mem_cons_self, rfl⟩
    · exact (ih hd).imp_right fun ⟨c, hc, heq⟩ => ⟨c, List.mem_cons_of_mem _ hc, heq⟩
  | @part _ c cs _ _ _ _ ih =>
    rcases List.mem_cons.1 hd with rfl | hd
    · exact .inl rfl
    · rcases List.mem_cons.1 hd with rfl | hd
      · exact .inr ⟨c, List.mem_cons_self, rfl⟩
      · exact (ih hd).imp_right fun ⟨c, hc, heq⟩ => ⟨c, List.mem_cons_of_mem _ hc, heq⟩

/-- **Only underscores are lost** if all of them are taken out. -/
theorem filter_eq (h : Parted previous cs ds) :
    ds.filter (· ≠ '_') = (cs.map Char.toLower).filter (· ≠ '_') := by
  induction h with
  | nil => rfl
  | keep _ ih => rw [List.map_cons, List.filter_cons, List.filter_cons, ih]
  | part _ _ _ ih => rw [List.filter_cons_of_neg (by decide), List.map_cons, List.filter_cons, List.filter_cons, ih]

end Parted

/-- **Without capitals nothing changes.** -/
theorem snakeChars_eq_self : ∀ {cs : List Char} {previous : Option Char}, (∀ c ∈ cs, LetterCase.isUpper c = false) →
    snakeChars previous cs = cs
  | [], _, _ => rfl
  | c :: cs, previous, h => by
    obtain ⟨hc, hcs⟩ := List.forall_mem_cons.1 h
    rw [snakeChars, hc, if_neg Bool.false_ne_true, snakeChars_eq_self hcs]
    rfl

section Ascii

variable {name : String} (h : ∀ c ∈ name.toList, c.toNat < 128)

include h

theorem parted_snake : Parted none name.toList (snake name).toList := by
  unfold snake
  rw [String.toList_ofList]
  exact parted_snakeChars h (fun _ hp => nomatch hp)

theorem isUpper_of_mem_snake {d : Char} (hd : d ∈ (snake name).toList) : d.isUpper = false := by
  rcases (parted_snake h).mem hd with rfl | ⟨c, -, rfl⟩
  · rfl
  · exact Char.isUpper_toLower_eq_false c

theorem lt_of_mem_snake {d : Char} (hd : d ∈ (snake name).toList) : d.toNat < 128 := by
  rcases (parted_snake h).mem hd with rfl | ⟨c, hc, rfl⟩
  · decide
  · exact LetterCase.toLower_lt_of_ascii (h c hc)

theorem filter_snake : (snake name).toList.filter (· ≠ '_') = name.toLower.toList.filter (· ≠ '_') := by
  rw [(parted_snake h).filter_eq, String.toLower, String.toList_map]

theorem snake_snake : snake (snake name) = snake name := by
  have hsmall : ∀ d ∈ (snake name).toList, LetterCase.isUpper d = false := fun d hd =>
    (LetterCase.isUpper_of_ascii (lt_of_mem_snake h hd)).trans (isUpper_of_mem_snake h hd)
  exact (congrArg String.ofList (snakeChars_eq_self hsmall)).trans String.ofList_toList

/-- **An ASCII name in small letters** has no capital and is its own form in small letters.  It is the name with its
capitals made small and underscores put in, none of them first or beside an underscore; without any underscores, it is
the name in small letters without any.  So a name of the same form differs at most in letter case and underscores. -/
theorem snake_parts_words :
    (∀ c ∈ (snake name).toList, c.isUpper = false) ∧
    snake (snake name) = snake name ∧
    (snake name).toList.filter (· ≠ '_') = name.toLower.toList.filter (· ≠ '_') ∧
    Parted none name.toList (snake name).toList ∧
    ∀ other : String, (∀ c ∈ other.toList, c.toNat < 128) → snake other = snake name →
      other.toLower.toList.filter (· ≠ '_') = name.toLower.toList.filter (· ≠ '_') := by
  refine ⟨fun _ => isUpper_of_mem_snake h, snake_snake h, filter_snake h, parted_snake h, fun other hother heq => ?_⟩
  rw [← filter_snake h, ← filter_snake hother, heq]

end Ascii

/-- `mainCourse2Id` and `MAIN_course2_id` have one form. -/
theorem snake_parts_words_mainCourse : snake "mainCourse2Id" = "main_course2_id" ∧
    "MAIN_course2_id".toLower.toList.filter (· ≠ '_') = "mainCourse2Id".toLower.toList.filter (· ≠ '_') := by
  have hform : snake "mainCourse2Id" = "main_course2_id" := by decide +kernel
  have hother : snake "MAIN_course2_id" = "main_course2_id" := by decide +kernel
  have hascii : ∀ c ∈ "mainCourse2Id".toList, c.toNat < 128 := by simp
  obtain ⟨-, -, -, -, hsame⟩ := snake_parts_words hascii
  exact ⟨hform, hsame "MAIN_course2_id" (by simp) (hother.trans hform.symm)⟩

end Name
end Accessors
