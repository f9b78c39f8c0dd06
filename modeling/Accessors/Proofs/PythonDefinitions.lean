import Accessors.Proofs.Emission
import Accessors.Proofs.Names
/-!
# What a Python file defines

The lines of a file define its methods and `__init__`, and no line has the look of a definition that it is not
(`Python.defines_lines`).  So the text of the file defines these names, in order, and the heading of each stands in it as
often as it is defined (`Python.definesOnce`).
-/
namespace Accessors
namespace Python

/-! ## Reading definitions -/

/-- What a line defines: the name between `def` and the bracket, if the line starts so behind its blanks. -/
def definedIn? (line : String) : Option String :=
  match line.toList.dropWhile (· = ' ') with
  | 'd' :: 'e' :: 'f' :: ' ' :: rest => some (String.ofList (rest.takeWhile (· ≠ '(')))
  | _ => none

/-- The names that the lines of a text define, in order. -/
def definitions (text : String) : List String := (pieces '\n' text).filterMap definedIn?

/-- How the definition of a name begins. -/
def heading (name : String) : String := "def " ++ name ++ "("

/-- What ends a line, and what ends the name in a heading. -/
def stops : List Char := ['\n', '(']

theorem lacks_of_isWord {text : String} (h : IsWord text) : Lacks stops text := h.lacks (by decide)

/-- A line that defines this or nothing, and in which no other heading stands. -/
structure Reads (line : String) (defined : Option String) : Prop where
  noBreak : '\n' ∉ line.toList
  definedIn?_eq : definedIn? line = defined
  occurrences_eq : ∀ name, IsWord name → occurrences (heading name) line = if defined = some name then 1 else 0

/-- These lines define these names, in order. -/
inductive Defines : (lines names : List String) → Prop
  | nil : Defines [] []
  | plain {line : String} {lines names : List String} (h : Reads line none) (more : Defines lines names) :
      Defines (line :: lines) names
  | definition {line name : String} {lines names : List String} (h : Reads line (some name))
      (more : Defines lines names) : Defines (line :: lines) (name :: names)

theorem toList_heading (name : String) : (heading name).toList = ['d', 'e', 'f'] ++ ' ' :: name.toList ++ ['('] := by
  unfold heading
  rw [String.toList_append, String.toList_append]
  rfl

theorem bracket_notMem {name : String} (h : IsWord name) : '(' ∉ ['d', 'e', 'f'] ++ ' ' :: name.toList := by
  have hname := lacks_of_isWord h '(' (by decide)
  simp [hname]

namespace Reads

variable {line : String}

/-- Without a bracket no heading stands in a line. -/
theorem plain (h : Lacks stops line) (hnone : definedIn? line = none) : Reads line none := by
  refine ⟨h '\n' (by decide), hnone, fun name _ => occurrencesChars_eq_zero ?_ (h '(' (by decide))⟩
  rw [toList_heading]
  exact List.mem_append_right _ List.mem_cons_self

/-- With one bracket, a heading stands in a line if it ends in that bracket. -/
theorem occurrences_eq_ite {before word rest : String} (hbefore : Lacks stops before)
    (hword : Lacks (' ' :: stops) word) (hrest : Lacks stops rest) (hline : line = before ++ " " ++ word ++ "(" ++ rest)
    {name : String} (hname : IsWord name) :
    occurrences (heading name) line = if ['d', 'e', 'f'] <:+ before.toList ∧ name = word then 1 else 0 := by
  have hlist : line.toList = before.toList ++ ' ' :: word.toList ++ '(' :: rest.toList := by
    rw [hline]
    simp [String.toList_append]
  have hbracket : '(' ∉ before.toList ++ ' ' :: word.toList := by
    simp [hbefore '(' (by decide), hword '(' (by decide)]
  have hblank : Lacks [' '] name := hname.lacks (by decide)
  unfold occurrences
  rw [hlist, toList_heading, occurrencesChars_bracket (hblank ' ' List.mem_cons_self)
    (hword ' ' List.mem_cons_self) (bracket_notMem hname) hbracket (hrest '(' (by decide))]
  exact if_congr (and_congr_right fun _ => String.toList_inj) rfl rfl

theorem noBreak_of_eq {before word rest : String} (hbefore : Lacks stops before) (hword : Lacks (' ' :: stops) word)
    (hrest : Lacks stops rest) (hline : line = before ++ " " ++ word ++ "(" ++ rest) : '\n' ∉ line.toList := by
  have hstops : Lacks stops word := fun c hc => hword c (List.mem_cons_of_mem _ hc)
  rw [hline]
  simp [String.toList_append, hbefore '\n' (by decide), hstops '\n' (by decide), hrest '\n' (by decide)]

/-- A line in which something else than a definition opens the bracket. -/
theorem bracket (before word rest : String) (hbefore : Lacks stops before) (hword : Lacks (' ' :: stops) word)
    (hrest : Lacks stops rest) (hline : line = before ++ " " ++ word ++ "(" ++ rest)
    (hdef : ¬ ['d', 'e', 'f'] <:+ before.toList) (hnone : definedIn? line = none) : Reads line none where
  noBreak := noBreak_of_eq hbefore hword hrest hline
  definedIn?_eq := hnone
  occurrences_eq name hname := by
    rw [occurrences_eq_ite hbefore hword hrest hline hname, if_neg (fun h => hdef h.1), if_neg (fun h => by cases h)]

/-- A line that defines a name. -/
theorem definition {name rest : String} (hname : IsWord name) (hrest : Lacks stops rest) :
    Reads ("    def " ++ name ++ "(" ++ rest) (some name) := by
  have hbefore : Lacks stops "    def" := by decide
  have hword : Lacks (' ' :: stops) name := hname.lacks (by decide)
  have hline : "    def " ++ name ++ "(" ++ rest = "    def" ++ " " ++ name ++ "(" ++ rest := rfl
  refine ⟨noBreak_of_eq hbefore hword hrest hline, ?_, fun other hother => ?_⟩
  · have hend : (name.toList ++ '(' :: rest.toList).takeWhile (· ≠ '(') = name.toList :=
      takeWhile_ne_append_cons (lacks_of_isWord hname '(' (by decide)) _
    simp only [ne_eq, decide_not] at hend
    simp [definedIn?, hend]
  · rw [occurrences_eq_ite hbefore hword hrest hline hother]
    refine if_congr ?_ rfl rfl
    rw [and_iff_right (by decide), Option.some.injEq, eq_comm]

end Reads

theorem reads_empty : Reads "" none := .plain (by decide) rfl

namespace Defines

variable {lines lines' names names' : List String}

theorem of_plain (h : ∀ line ∈ lines, Reads line none) : Defines lines [] := by
  induction lines with
  | nil => exact .nil
  | cons line lines ih =>
    obtain ⟨hline, hlines⟩ := List.forall_mem_cons.1 h
    exact .plain hline (ih hlines)

theorem append (h : Defines lines names) (h' : Defines lines' names') : Defines (lines ++ lines') (names ++ names') := by
  induction h with
  | nil => exact h'
  | plain h _ ih => exact .plain h ih
  | definition h _ ih => exact .definition h ih

/-- **Blocks define what each of them does**, one after the other. -/
theorem spaced : ∀ {blocks namess : List (List String)}, List.Forall₂ Defines blocks namess →
    Defines (spaced blocks) namess.flatten
  | [], _, .nil => .nil
  | [block], _, .cons h .nil => by
    rw [spaced_singleton, List.flatten_cons, List.flatten_nil, List.append_nil]
    exact h
  | block :: next :: blocks, _, .cons h more => by
    rw [spaced_cons block (List.cons_ne_nil _ _), List.flatten_cons]
    exact h.append (.plain reads_empty (spaced more))

theorem noBreak (h : Defines lines names) : ∀ line ∈ lines, '\n' ∉ line.toList := by
  induction h with
  | nil => exact fun _ hl => absurd hl List.not_mem_nil
  | plain h _ ih => exact List.forall_mem_cons.2 ⟨h.noBreak, ih⟩
  | definition h _ ih => exact List.forall_mem_cons.2 ⟨h.noBreak, ih⟩

theorem filterMap_eq (h : Defines lines names) : lines.filterMap definedIn? = names := by
  induction h with
  | nil => rfl
  | plain h _ ih => rw [List.filterMap_cons_none h.definedIn?_eq, ih]
  | definition h _ ih => rw [List.filterMap_cons_some h.definedIn?_eq, ih]

/-- A line that defines a name does not stand more often than the name is defined. -/
theorem count_le (h : Defines lines names) {line name : String} (hline : definedIn? line = some name) :
    lines.count line ≤ names.count name := by
  rw [← h.filterMap_eq, List.count_filterMap]
  refine List.countP_mono_left fun l _ heq => ?_
  rw [eq_of_beq heq, hline]
  exact beq_self_eq_true _

/-- **The definitions in a text** are those of its lines. -/
theorem definitions_unlines (h : Defines lines names) : definitions (unlines lines) = names := by
  unfold definitions
  rw [pieces_unlines h.noBreak, List.filterMap_append, h.filterMap_eq]
  exact List.append_nil names

example : definitions "class A:\n    def get_b(self):\n        return self._b\n" = ["get_b"] := by decide +kernel

/-- **A heading stands in a text** as often as its name is defined there. -/
theorem occurrences_unlines (h : Defines lines names) {name : String} (hname : IsWord name) :
    occurrences (heading name) (unlines lines) = names.count name := by
  have hne : heading name ≠ "" := fun h => by
    have hlist := congrArg String.toList h
    rw [toList_heading] at hlist
    cases hlist
  have hbreak : '\n' ∉ (heading name).toList := by
    rw [toList_heading]
    simp [lacks_of_isWord hname '\n' (by decide)]
  induction h with
  | nil => exact occurrences_unlines_nil hne
  | plain h _ ih =>
    rw [occurrences_unlines_cons hne hbreak, h.occurrences_eq name hname, if_neg (fun h => by cases h), ih, Nat.zero_add]
  | definition h _ ih =>
    rw [occurrences_unlines_cons hne hbreak, h.occurrences_eq name hname, ih, List.count_cons, Nat.add_comm]
    simp only [Option.some.injEq, beq_iff_eq]

end Defines

/-! ## The lines of a file -/

section Method

variable {m : Method} (hm : IsWord m.role)

include hm

theorem isWord_subject : IsWord (subject m) := Name.isWord_snake (Name.isWord_partner hm)

theorem isWord_methodName : IsWord (methodName m) :=
  isWord_append.2 ⟨isWord_append.2 ⟨m.kind.isWord_text, by decide⟩, isWord_subject hm⟩

theorem isWord_paramName : IsWord (paramName m) := by
  unfold paramName
  split
  · exact isWord_append.2 ⟨isWord_subject hm, by decide⟩
  · exact isWord_subject hm

theorem lacks_field {cs : List Char} (hcs : cs.any Token.isNameChar = false) (hself : Lacks cs "self._") :
    Lacks cs (field m) := hself.append ((Name.isWord_snake hm).lacks hcs)

theorem reads_signature : Reads (signature m) (some (methodName m)) := by
  unfold signature
  split
  · have hself : Lacks stops "self):" := by decide
    have hreads := Reads.definition (isWord_methodName hm) hself
    rwa [String.append_assoc] at hreads
  · have hparam : Lacks stops ("self, " ++ paramName m ++ "):") :=
      (Lacks.append (by decide) (lacks_of_isWord (isWord_paramName hm))).append (by decide)
    have hreads := Reads.definition (isWord_methodName hm) hparam
    have hbracket : "(self, " = "(" ++ "self, " := rfl
    rw [hbracket]
    simpa only [String.append_assoc] using hreads

theorem reads_body : ∀ line ∈ body m, Reads ("        " ++ line) none := by
  have hfield : Lacks stops (field m) := lacks_field hm (by decide) (by decide)
  have hfieldWord : Lacks (' ' :: stops) (field m) := lacks_field hm (by decide) (by decide)
  have hparam : Lacks stops (paramName m) := lacks_of_isWord (isWord_paramName hm)
  have htrue : Reads ("        " ++ "return True") none := .plain (by decide) (by simp [definedIn?])
  have hfalse : Reads ("        " ++ "    return False") none := .plain (by decide) (by simp [definedIn?])
  -- what is called on the field is behind the last blank of its line
  have hcall : ∀ call, Lacks (' ' :: stops) call →
      Reads ("        " ++ (field m ++ (call ++ "(") ++ paramName m ++ ")")) none := fun call hcalled =>
    .bracket "       " (field m ++ call) (paramName m ++ ")") (by decide) (hfieldWord.append hcalled)
      (hparam.append (by decide)) (by simp only [String.append_assoc]; rfl) (by decide) (by simp [definedIn?, field])
  have htest : ∀ test, Lacks stops test →
      Reads ("        " ++ ("if " ++ paramName m ++ test ++ field m ++ ":")) none := fun test htested =>
    .plain (.append (by decide) (.append (.append (.append (.append (by decide) hparam) htested) hfield) (by decide)))
      (by simp [definedIn?])
  unfold body
  split
  · split
    · refine List.forall_mem_singleton.2 (.plain ?_ (by simp [definedIn?]))
      exact .append (by decide) (.append (by decide) hfield)
    · refine List.forall_mem_singleton.2 ?_
      exact .bracket "        return" "tuple" (field m ++ ")") (by decide) (by decide) (hfield.append (by decide))
        (by simp only [String.append_assoc]; rfl) (by decide) (by simp [definedIn?])
  · refine List.forall_mem_cons.2 ⟨.plain ?_ (by simp [definedIn?, field]), List.forall_mem_singleton.2 htrue⟩
    exact .append (by decide) (.append (.append hfield (by decide)) hparam)
  · exact List.forall_mem_cons.2 ⟨htest " in " (by decide), List.forall_mem_cons.2 ⟨hfalse,
      List.forall_mem_cons.2 ⟨hcall ".append" (by decide), List.forall_mem_singleton.2 htrue⟩⟩⟩
  · exact List.forall_mem_cons.2 ⟨htest " not in " (by decide), List.forall_mem_cons.2 ⟨hfalse,
      List.forall_mem_cons.2 ⟨hcall ".remove" (by decide), List.forall_mem_singleton.2 htrue⟩⟩⟩

theorem defines_concreteMethod : Defines (concreteMethod m) [methodName m] :=
  .definition (reads_signature hm) (.of_plain (List.forall_mem_map.2 (reads_body hm)))

theorem defines_abstractMethod : Defines (abstractMethod m) [methodName m] := by
  have hpass : Reads "        pass" none := .plain (by decide) (by simp [definedIn?])
  exact .plain (.plain (by decide) (by simp [definedIn?])) (.definition (reads_signature hm) (.plain hpass .nil))

theorem reads_initialValue : Reads ("        " ++ field m ++ " = " ++ initialValue m.multiplicity) none := by
  have hfield : Lacks stops (field m) := lacks_field hm (by decide) (by decide)
  have hvalue : Lacks stops (initialValue m.multiplicity) := by cases m.multiplicity <;> decide
  exact .plain (.append (.append (.append (by decide) hfield) (by decide)) hvalue) (by simp [definedIn?, field])

end Method

section File

variable {ms : List Method} (hms : ∀ m ∈ ms, IsWord m.role)

include hms

/-- There is one `__init__` at most. -/
theorem defines_initBlock : ∃ init ∈ [[], ["__init__"]], ∃ namess, List.Forall₂ Defines (initBlock ms) namess ∧
    namess.flatten = init := by
  unfold initBlock
  split
  · exact ⟨[], by simp, [], .nil, rfl⟩
  · have hinit : Reads "    def __init__(self):" (some "__init__") := by
      have hself : Lacks stops "self):" := by decide
      have hname : IsWord "__init__" := by decide
      exact Reads.definition hname hself
    refine ⟨["__init__"], by simp, [["__init__"]], .cons (.definition hinit (.of_plain ?_)) .nil, rfl⟩
    refine List.forall_mem_map.2 (fun m hm => reads_initialValue (hms m ?_))
    exact (List.mem_filter.1 hm).1

theorem defines_blocks (n : TypeNode) : ∃ init ∈ [[], ["__init__"]], ∃ namess,
    List.Forall₂ Defines (blocks n ms) namess ∧ namess.flatten = init ++ ms.map methodName := by
  have hnames := flatten_map_singleton methodName ms
  unfold blocks
  split
  · exact ⟨[], by simp, _, forall₂_map_map fun m hm => defines_abstractMethod (hms m hm), by rw [hnames]; rfl⟩
  · obtain ⟨init, hinit, namess, hforall, rfl⟩ := defines_initBlock hms
    refine ⟨_, hinit, _, List.rel_append hforall (forall₂_map_map fun m hm => defines_concreteMethod (hms m hm)), ?_⟩
    rw [List.flatten_append, hnames]

end File

section File

variable {g : Graph} (hg : g.Worded)

include hg

theorem reads_import (n : TypeNode) : ∀ line ∈ imports g n, Reads line none := fun line hline => by
  unfold imports at hline
  rcases List.mem_append.1 hline with hline | hline
  · split at hline
    · cases List.mem_singleton.1 hline
      exact .plain (by decide) (by simp [definedIn?])
    · cases hline
  · obtain ⟨p, -, rfl⟩ := List.mem_map.1 hline
    have hname : IsWord (g.name p) := hg.isWord_name p
    have hmodule : Lacks stops (moduleName (g.name p)) := lacks_of_isWord (Name.isWord_snake hname)
    exact .plain (.append (.append (.append (by decide) hmodule) (by decide)) (lacks_of_isWord hname))
      (by simp [definedIn?])

theorem reads_classLine {n : TypeNode} (hn : n ∈ g.types) : Reads ("class " ++ n.name ++ bases g n ++ ":") none := by
  have hname : IsWord n.name := hg.types n hn
  have hbracket : ∀ between, Lacks stops between →
      Reads ("class " ++ n.name ++ ("(" ++ between ++ ")") ++ ":") none := fun between hbetween =>
    .bracket "class" n.name (between ++ "):") (by decide) (hname.lacks (by decide)) (hbetween.append (by decide))
      (by simp only [String.append_assoc]; rfl) (by decide) (by simp [definedIn?])
  unfold bases
  split
  · split
    · exact hbracket "ABC" (by decide)
    · exact .plain (.append (.append (.append (by decide) (lacks_of_isWord hname)) (by decide)) (by decide))
        (by simp [definedIn?])
  · refine hbracket _ (.intercalate (by decide) (List.forall_mem_map.2 fun p _ => ?_))
    exact lacks_of_isWord (hg.isWord_name p)

/-- **The lines of a file define** the methods that it is for, and `__init__` before them if anything else. -/
theorem defines_lines {n : TypeNode} (hn : n ∈ g.types) {ms : List Method} (hms : ∀ m ∈ ms, IsWord m.role) :
    ∃ init ∈ [[], ["__init__"]], Defines (lines g n ms) (init ++ ms.map methodName) := by
  have hhead : Defines ["# Generated by modelc. Do not edit."] [] :=
    .plain (.plain (by decide) (by simp [definedIn?])) .nil
  have hclass : Defines ["", "", "class " ++ n.name ++ bases g n ++ ":"] [] :=
    .plain reads_empty (.plain reads_empty (.plain (reads_classLine hg hn) .nil))
  obtain ⟨init, hinit, namess, hforall, hnames⟩ := defines_blocks hms n
  have hreads : Defines (lines g n ms) ([] ++ [] ++ [] ++ (init ++ ms.map methodName)) := by
    refine ((hhead.append ?_).append hclass).append ?_
    · split
      · exact .nil
      · exact .plain reads_empty (.of_plain (reads_import hg n))
    · rw [← hnames]
      split
      · rename_i hblocks
        rw [hblocks] at hforall
        cases hforall
        exact .plain (.plain (by decide) (by simp [definedIn?])) .nil
      · exact .spaced hforall
  exact ⟨init, hinit, hreads⟩

end File

/-! ## Methods and definitions -/

/-- **Each method is defined once** in the text of a file: its heading stands in one place, and all that the text defines
is these methods and at most `__init__`. -/
structure DefinesOnce (ms : List Method) (text : String) : Prop where
  once : ∀ m ∈ ms, occurrences ("def " ++ methodName m ++ "(") text = 1
  only : ∃ init ∈ [[], ["__init__"]], definitions text = init ++ ms.map methodName

theorem methodName_ne_init (m : Method) : methodName m ≠ "__init__" := fun h => by
  have hinitial : (methodName m).toList.head? = some m.kind.initial := Backend.head?_methodName .python m
  rw [h] at hinitial
  revert hinitial
  cases m.kind <;> decide

theorem definesOnce {g : Graph} (hg : g.Worded) {n : TypeNode} (hn : n ∈ g.types) {ms : List Method}
    (hms : ∀ m ∈ ms, IsWord m.role) (hnodup : (ms.map methodName).Nodup) :
    DefinesOnce ms (unlines (lines g n ms)) := by
  obtain ⟨init, hinit, hdefines⟩ := defines_lines hg hn hms
  refine ⟨fun m hm => ?_, init, hinit, hdefines.definitions_unlines⟩
  have hnone : init.count (methodName m) = 0 := count_eq_zero_of_ne (methodName_ne_init m) hinit
  have hone := hdefines.occurrences_unlines (isWord_methodName (hms m hm))
  rwa [List.count_append, hnone, Nat.zero_add, List.count_eq_one_of_mem hnodup (List.mem_map_of_mem hm)] at hone

end Python
end Accessors
