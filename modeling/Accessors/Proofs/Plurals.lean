import Accessors.Backend
import Mathlib.Data.List.Basic
/-!
# Plurals

What is made of a name that is taken for a plural has the same first letter and is taken for none
(`Name.singularChars_singularChars`).  This undoes the plural that a many-valued role gets where no name is written, unless
the name of the target ends in `s`, or in `ie` behind another letter (`Name.PluralMisread`): courses are added by
`addCourse`, movies by `addMovy` (`Name.singular_undoes_plural`).
-/
namespace Accessors
namespace LetterCase

theorem mapped_ne_nil {long : List (Nat × List Nat)} {shifts : List CodeShift} (h : ∀ entry ∈ long, entry.2 ≠ [])
    (c : Char) : mapped long shifts c ≠ [] := by
  unfold mapped
  split
  · rename_i codes heq
    obtain ⟨before, behind, hlong, -⟩ := List.lookup_eq_some_iff.1 heq
    have hentry : (c.toNat, codes) ∈ long := hlong ▸ List.mem_append_right _ List.mem_cons_self
    exact mt List.map_eq_nil_iff.1 (h _ hentry)
  · split <;> exact List.cons_ne_nil _ _

/-- **Every character has a small form.** -/
theorem toLower_ne_nil (c : Char) : toLower c ≠ [] := by
  unfold toLower
  split
  · exact List.cons_ne_nil _ _
  · exact mapped_ne_nil (by decide) c

end LetterCase

namespace Name

/-! ## One of several -/

/-- **What is taken for a plural**: `ies` behind another letter, or an `s` behind a letter that is no `s`. -/
theorem singularChars_cases (cs : List Char) : singularChars cs = cs ∨
    (∃ stem, stem ≠ [] ∧ cs = stem ++ ['i', 'e', 's'] ∧ singularChars cs = stem ++ ['y']) ∨
    ∃ stem, cs = stem ++ ['s'] ∧ stem.getLast?.any (· ≠ 's') = true ∧ singularChars cs = stem := by
  unfold singularChars
  split
  · rename_i c stem heq
    refine .inr (.inl ⟨(c :: stem).reverse, by simp, ?_, rfl⟩)
    rw [← List.reverse_inj, heq]
    simp
  · rename_i c stem _ heq
    split
    · exact .inl rfl
    · rename_i hc
      refine .inr (.inr ⟨(c :: stem).reverse, ?_, ?_, rfl⟩)
      · rw [← List.reverse_inj, heq]
        simp
      · simpa using hc
  · exact .inl rfl

/-- With nothing ahead of it, `ies` is an `s` behind `ie`. -/
example : singular "ies" = "ie" := by decide

theorem singularChars_eq_self {cs : List Char} (h : cs.getLast? ≠ some 's') : singularChars cs = cs := by
  rcases singularChars_cases cs with hcase | ⟨stem, -, rfl, -⟩ | ⟨stem, rfl, -, -⟩
  · exact hcase
  · exact absurd (List.getLast?_append_of_ne_nil _ (List.cons_ne_nil _ _)) h
  · exact absurd List.getLast?_concat h

/-- **What is left of a plural is none**: it ends in `y`, or in what stood ahead of a single `s`. -/
theorem singularChars_singularChars (cs : List Char) : singularChars (singularChars cs) = singularChars cs := by
  rcases singularChars_cases cs with hcase | ⟨stem, -, -, hcase⟩ | ⟨stem, -, hlast, hcase⟩ <;> rw [hcase]
  · exact hcase
  · apply singularChars_eq_self
    rw [List.getLast?_concat]
    decide
  · apply singularChars_eq_self
    intro hs
    rw [hs] at hlast
    cases hlast

theorem head?_singularChars (cs : List Char) : (singularChars cs).head? = cs.head? := by
  rcases singularChars_cases cs with hcase | ⟨stem, hstem, hcs, hcase⟩ | ⟨stem, hcs, hlast, hcase⟩ <;> rw [hcase]
  · rw [hcs, List.head?_append_of_ne_nil _ hstem, List.head?_append_of_ne_nil _ hstem]
  · have hstem : stem ≠ [] := by
      rintro rfl
      cases hlast
    rw [hcs, List.head?_append_of_ne_nil _ hstem]

variable {name : String}

theorem toList_singular (name : String) : (singular name).toList = singularChars name.toList := String.toList_ofList

theorem head?_singular (name : String) : (singular name).toList.head? = name.toList.head? := by
  rw [toList_singular, head?_singularChars]

theorem singular_ne_empty (h : name ≠ "") : singular name ≠ "" := fun hempty => h <| by
  have hhead := head?_singular name
  rw [hempty] at hhead
  exact String.toList_eq_nil_iff.1 (List.head?_eq_none_iff.1 hhead.symm)

theorem singular_singular (name : String) : singular (singular name) = singular name :=
  String.toList_inj.1 (by rw [toList_singular, toList_singular, singularChars_singularChars])

/-! ## One of a plural -/

/-- Names whose plural is not taken for it: with an `s` more, a name in `s` does not look like a plural, and one in `ie`
looks like the plural of a name in `y`. -/
def PluralMisread (name : String) : Prop :=
  ['s'] <:+ name.toList ∨ ['i', 'e'] <:+ name.toList ∧ 2 < name.toList.length

instance : DecidablePred PluralMisread := fun _ => inferInstanceAs (Decidable (_ ∨ _ ∧ _))

theorem singularChars_ss (stem : List Char) : singularChars (stem ++ ['s', 's']) = stem ++ ['s', 's'] := by
  unfold singularChars
  rw [List.reverse_append]
  rfl

theorem singularChars_ies {stem : List Char} (h : stem ≠ []) :
    singularChars (stem ++ ['i', 'e', 's']) = stem ++ ['y'] := by
  obtain ⟨front, c, rfl⟩ := (List.eq_nil_or_concat stem).resolve_left h
  unfold singularChars
  simp

/-- An `s` is dropped where neither it nor the two letters ahead of it make another ending. -/
theorem singularChars_concat {cs : List Char} (hne : cs ≠ []) (hs : ¬ ['s'] <:+ cs)
    (hie : ['i', 'e'] <:+ cs → ¬ 2 < cs.length) : singularChars (cs ++ ['s']) = cs := by
  unfold singularChars
  rw [List.reverse_concat]
  split
  · rename_i c stem heq
    have hcs : cs = (c :: stem).reverse ++ ['i', 'e'] := by
      rw [← List.reverse_inj, (List.cons.inj heq).2]
      simp
    rw [hcs] at hie
    exact absurd (by simp) (hie (List.suffix_append _ _))
  · rename_i c stem _ heq
    have hcs : cs = stem.reverse ++ [c] := List.reverse_eq_cons_iff.1 (List.cons.inj heq).2
    rw [hcs] at hs ⊢
    split
    · rename_i hc
      exact absurd (hc ▸ List.suffix_append _ _) hs
    · exact List.reverse_cons
  · rename_i hother
    cases hcs : cs.reverse with
    | nil => exact absurd (List.reverse_eq_nil_iff.1 hcs) hne
    | cons c stem => exact (hother c stem (congrArg _ hcs)).elim

/-- **The plural of a name that is misread**: it is kept, or gets a `y`. -/
theorem PluralMisread.cases (h : PluralMisread name) : ∃ stem,
    (name.toList = stem ++ ['s'] ∧ (singular (name ++ "s")).toList = stem ++ ['s', 's']) ∨
    (name.toList = stem ++ ['i', 'e'] ∧ (singular (name ++ "s")).toList = stem ++ ['y']) := by
  rw [toList_singular, String.toList_append]
  rcases h with ⟨stem, hname⟩ | ⟨⟨stem, hname⟩, hlength⟩
  · refine ⟨stem, .inl ⟨hname.symm, ?_⟩⟩
    rw [← hname, List.append_assoc]
    exact singularChars_ss stem
  · have hstem : stem ≠ [] := by
      rintro rfl
      rw [← hname] at hlength
      exact absurd hlength (by decide)
    refine ⟨stem, .inr ⟨hname.symm, ?_⟩⟩
    rw [← hname, List.append_assoc]
    exact singularChars_ies hstem

/-- **Any other plural** is taken for what it is. -/
theorem singular_plural (hne : name ≠ "") (h : ¬ PluralMisread name) : singular (name ++ "s") = name := by
  unfold PluralMisread at h
  rw [not_or, not_and] at h
  rw [← String.toList_inj, toList_singular, String.toList_append]
  exact singularChars_concat (mt String.toList_eq_nil_iff.1 hne) h.1 h.2

/-! ## In the styles of the backends -/

theorem eq_of_capitalized_eq {other : String} (hhead : name.toList.head? = other.toList.head?)
    (h : capitalized name = capitalized other) : name = other := by
  unfold capitalized at h
  rw [← String.toList_inj]
  cases hname : name.toList with
  | nil =>
    rw [hname] at hhead
    exact (List.head?_eq_none_iff.1 hhead.symm).symm
  | cons c rest =>
    rw [hname] at hhead h
    obtain ⟨rest', hother⟩ := List.head?_eq_some_iff.1 hhead.symm
    rw [hother] at h ⊢
    rw [List.append_cancel_left (String.ofList_injective h)]

/-- **What a text in small letters is up to a small letter** does not depend on that letter. -/
theorem exists_snakeChars_append (previous : Option Char) (cs : List Char) : ∃ front, ∀ c rest,
    LetterCase.isLower c = true → LetterCase.isUpper c = false →
      snakeChars previous (cs ++ c :: rest) = front ++ c :: snakeChars (some c) rest := by
  induction cs generalizing previous with
  | nil => exact ⟨[], fun c rest _ hc => by rw [List.nil_append, snakeChars, hc]; rfl⟩
  | cons d cs ih =>
    obtain ⟨front, hfront⟩ := ih (some d)
    refine ⟨(if LetterCase.isUpper d then
      (if startsWord previous (cs ++ ['s']).head? then ['_'] else []) ++ LetterCase.toLower d else [d]) ++ front, ?_⟩
    intro c rest hsmall hc
    -- a capital at the end of `cs` looks at the small letter
    have hstart : startsWord previous (cs ++ c :: rest).head? = startsWord previous (cs ++ ['s']).head? := by
      cases cs with
      | nil =>
        have hs : LetterCase.isLower 's' = true := rfl
        simp only [List.nil_append, List.head?_cons, startsWord, Option.any_some, hsmall, hs]
      | cons _ _ => rfl
    rw [List.cons_append, snakeChars, hstart, hfront c rest hsmall hc, List.append_assoc]

theorem snake_singular_plural_ne (h : PluralMisread name) : snake (singular (name ++ "s")) ≠ snake name := by
  intro heq
  have hchars := String.ofList_injective heq
  obtain ⟨stem, hcase⟩ := h.cases
  obtain ⟨front, hfront⟩ := exists_snakeChars_append none stem
  rcases hcase with ⟨hname, hplural⟩ | ⟨hname, hplural⟩
  · rw [hname, hplural, hfront 's' ['s'] rfl rfl, hfront 's' [] rfl rfl] at hchars
    exact absurd (List.append_cancel_left hchars) (by decide)
  · rw [hname, hplural, hfront 'y' [] rfl rfl, hfront 'i' ['e'] rfl rfl] at hchars
    exact absurd (List.append_cancel_left hchars) (by decide)

theorem singular_plural_ne (h : PluralMisread name) : singular (name ++ "s") ≠ name :=
  fun heq => snake_singular_plural_ne h (congrArg snake heq)

theorem singular_plural_eq_iff (hne : name ≠ "") : singular (name ++ "s") = name ↔ ¬ PluralMisread name :=
  ⟨fun heq h => singular_plural_ne h heq, singular_plural hne⟩

end Name

namespace Backend

/-- The name of a method of this kind that deals with `subject`. -/
def accessorName : Backend → Method.Kind → String → String
  | python, k, subject => k.text ++ "_" ++ Name.snake subject
  | java, k, subject => k.text ++ Name.capitalized subject

theorem methodName_eq (b : Backend) (m : Method) :
    b.methodName m = b.accessorName m.kind (if m.kind.isPerPartner then Name.singular m.role else m.role) := by
  cases b <;> rfl

/-- **No style hides** that a plural is misread. -/
theorem accessorName_singular_plural_eq_iff (b : Backend) (k : Method.Kind) {name : String} (hne : name ≠ "") :
    b.accessorName k (Name.singular (name ++ "s")) = b.accessorName k name ↔ ¬ Name.PluralMisread name := by
  constructor
  · intro heq hmisread
    cases b with
    | python => exact Name.snake_singular_plural_ne hmisread ((String.append_right_inj _).1 heq)
    | java =>
      have hhead : (Name.singular (name ++ "s")).toList.head? = name.toList.head? := by
        rw [Name.head?_singular, String.toList_append,
          List.head?_append_of_ne_nil _ (mt String.toList_eq_nil_iff.1 hne)]
      exact Name.singular_plural_ne hmisread (Name.eq_of_capitalized_eq hhead ((String.append_right_inj _).1 heq))
  · intro h
    rw [Name.singular_plural hne h]

end Backend

namespace Name

theorem uncapitalized_ne_empty {name : String} (h : name ≠ "") : uncapitalized name ≠ "" := by
  unfold uncapitalized
  split
  · rename_i hname
    exact absurd (String.toList_eq_nil_iff.1 hname) h
  · rename_i c rest _
    rw [Ne, ← String.toList_eq_nil_iff, String.toList_ofList]
    exact List.append_ne_nil_of_left_ne_nil (LetterCase.toLower_ne_nil c) rest

/-- **One of several** has a name if they have one, with the same first letter, and no plural to be taken for another.
Where a many-valued role is named for its target, one of its partners is named as a single-valued role would be just if the
plural of that name is not misread; and just then the methods that add and remove partners are named for it. -/
theorem singular_undoes_plural (name : String) {target : String} (htarget : target ≠ "") :
    (name ≠ "" → singular name ≠ "") ∧
    (singular name).toList.head? = name.toList.head? ∧
    singular (singular name) = singular name ∧
    (singular (ofRole target .many) = ofRole target .one ↔ ¬ PluralMisread (ofRole target .one)) ∧
    ∀ (b : Backend) (m : Method), m.kind.isPerPartner = true → m.role = ofRole target .many →
      (b.methodName m = b.accessorName m.kind (ofRole target .one) ↔ ¬ PluralMisread (ofRole target .one)) := by
  have hone : ofRole target .one ≠ "" := uncapitalized_ne_empty htarget
  refine ⟨singular_ne_empty, head?_singular name, singular_singular name, singular_plural_eq_iff hone, ?_⟩
  intro b m hkind hrole
  rw [b.methodName_eq, if_pos hkind, hrole]
  exact b.accessorName_singular_plural_eq_iff m.kind hone

/-- Movies are added by `addMovy`. -/
theorem singular_undoes_plural_movie : ∃ m : Method, m.kind = .add ∧ m.role = ofRole "Movie" .many ∧
    Backend.java.methodName m = "addMovy" ∧ singular (singular "movies") = "movy" ∧ PluralMisread "movie" ∧
    singular "movies" ≠ "movie" ∧ ∀ b : Backend, b.methodName m ≠ b.accessorName .add "movie" := by
  have hmovie : "Movie" ≠ "" := by decide
  have hone : ofRole "Movie" .one = "movie" := by decide
  have hmisread : PluralMisread "movie" := by decide
  obtain ⟨-, -, hsingular, hplural, hmethod⟩ := singular_undoes_plural "movies" hmovie
  rw [hone] at hplural hmethod
  refine ⟨⟨⟨0⟩, .add, "movies", ⟨1⟩, .many, .of .add .many ⟨1⟩, .empty, .zero⟩, rfl, by decide, by decide, ?_, hmisread,
    ?_, ?_⟩
  · rw [hsingular]
    decide
  · exact fun heq => hplural.1 heq hmisread
  · exact fun b heq => (hmethod b _ rfl (by decide)).1 heq hmisread

end Name
end Accessors
