import Accessors.Backend.Java
import Accessors.Proofs.Names
/-!
# What a Java file defines

The lines of a file open and close their braces in such a way that those directly in the braces of the type which have a
parameter list are the heads of its methods and of a constructor (`Java.reads_lines`).  No other line starts as these
heads do, and methods of different names have different heads; so each head is one line of the text
(`Java.definesOnce`).
-/
namespace Accessors
namespace Java

/-! ## Reading definitions -/

/-- How deep in braces the text is behind a line. -/
def depthAfter (depth : Nat) (line : String) : Nat := depth + line.toList.count '{' - line.toList.count '}'

/-- The lines directly in the braces of a type that have a parameter list. -/
def heads : (depth : Nat) → (lines : List String) → List String
  | _, [] => []
  | depth, line :: lines =>
    (if depth = 1 ∧ '(' ∈ line.toList then [line] else []) ++ heads (depthAfter depth line) lines

/-- The heads of the methods and constructors in a text, in order. -/
def definitions (text : String) : List String := heads 0 (pieces '\n' text)

/-- What ends a line, and what goes deeper or less deep. -/
def stops : List Char := ['\n', '{', '}']

/-- The lines, which lead from one depth to another, have these heads, and no other line starts as they do. -/
inductive Reads (start : String) : (depth : Nat) → (lines found : List String) → (depth' : Nat) → Prop
  | nil {depth : Nat} : Reads start depth [] [] depth
  | other {depth between depth' : Nat} {line : String} {lines found : List String} (hbreak : '\n' ∉ line.toList)
      (hstart : ¬ start.toList <+: line.toList) (hbracket : depth = 1 → '(' ∉ line.toList)
      (hdepth : depthAfter depth line = between) (more : Reads start between lines found depth') :
      Reads start depth (line :: lines) found depth'
  | head {depth' : Nat} {line : String} {lines found : List String} (hbreak : '\n' ∉ line.toList)
      (hstart : start.toList <+: line.toList) (hbracket : '(' ∈ line.toList) (hdepth : depthAfter 1 line = 1)
      (more : Reads start 1 lines found depth') : Reads start 1 (line :: lines) (line :: found) depth'

theorem depthAfter_of_lacks {line : String} (h : Lacks stops line) (depth : Nat) : depthAfter depth line = depth := by
  unfold depthAfter
  rw [List.count_eq_zero.2 (h '{' (by decide)), List.count_eq_zero.2 (h '}' (by decide))]
  rfl

namespace Reads

variable {start : String} {depth depth' between : Nat} {lines lines' found found' : List String}

/-- A line within which no brace stands. -/
theorem plain {line : String} (h : Lacks stops line) (hstart : ¬ start.toList <+: line.toList)
    (hbracket : depth = 1 → '(' ∉ line.toList) (more : Reads start depth lines found depth') :
    Reads start depth (line :: lines) found depth' :=
  .other (h '\n' (by decide)) hstart hbracket (depthAfter_of_lacks h depth) more

theorem plains (h : ∀ line ∈ lines, Lacks stops line ∧ ¬ start.toList <+: line.toList ∧
    (depth = 1 → '(' ∉ line.toList)) : Reads start depth lines [] depth := by
  induction lines with
  | nil => exact .nil
  | cons line lines ih =>
    obtain ⟨⟨hlacks, hstart, hbracket⟩, hlines⟩ := List.forall_mem_cons.1 h
    exact .plain hlacks hstart hbracket (ih hlines)

/-- A line of a body, which is farther from the margin than members are. -/
theorem inside {line : String} (h : Lacks stops line) (more : Reads "  public " (depth + 2) lines found depth') :
    Reads "  public " (depth + 2) (("    " ++ line) :: lines) found depth' :=
  .plain (.append (by decide) h) (by simp) (fun h => by omega) more

theorem append (h : Reads start depth lines found between) (h' : Reads start between lines' found' depth') :
    Reads start depth (lines ++ lines') (found ++ found') depth' := by
  induction h with
  | nil => exact h'
  | other hbreak hstart hbracket hdepth _ ih => exact .other hbreak hstart hbracket hdepth (ih h')
  | head hbreak hstart hbracket hdepth _ ih => exact .head hbreak hstart hbracket hdepth (ih h')

/-- **Members have the heads that each of them has**, one after the other. -/
theorem spaced (hstart : start ≠ "") : ∀ {blocks founds : List (List String)},
    List.Forall₂ (fun block found => Reads start 1 block found 1) blocks founds →
    Reads start 1 (spaced blocks) founds.flatten 1
  | [], _, .nil => .nil
  | [block], _, .cons h .nil => by
    rw [spaced_singleton, List.flatten_cons, List.flatten_nil, List.append_nil]
    exact h
  | block :: next :: blocks, _, .cons h more => by
    have hempty : ¬ start.toList <+: "".toList := fun hp => hstart (String.toList_eq_nil_iff.1 (List.prefix_nil.1 hp))
    rw [spaced_cons block (List.cons_ne_nil _ _), List.flatten_cons]
    exact h.append (.plain (by decide) hempty (fun _ => by decide) (spaced hstart more))

theorem noBreak (h : Reads start depth lines found depth') : ∀ line ∈ lines, '\n' ∉ line.toList := by
  induction h with
  | nil => exact fun _ hl => absurd hl List.not_mem_nil
  | other hbreak _ _ _ _ ih => exact List.forall_mem_cons.2 ⟨hbreak, ih⟩
  | head hbreak _ _ _ _ ih => exact List.forall_mem_cons.2 ⟨hbreak, ih⟩

theorem heads_eq (h : Reads start depth lines found depth') : heads depth lines = found := by
  induction h with
  | nil => rfl
  | other _ _ hbracket hdepth _ ih =>
    rw [heads, if_neg (fun h => hbracket h.1 h.2), hdepth, ih]
    rfl
  | head _ _ hbracket hdepth _ ih =>
    rw [heads, if_pos ⟨rfl, hbracket⟩, hdepth, ih]
    rfl

theorem count_eq (h : Reads start depth lines found depth') {line : String} (hline : start.toList <+: line.toList) :
    lines.count line = found.count line := by
  induction h with
  | nil => rfl
  | @other _ _ _ other _ _ _ hstart _ _ _ ih =>
    have hne : other ≠ line := fun h => hstart (h ▸ hline)
    rw [List.count_cons_of_ne hne, ih]
  | head _ _ _ _ _ ih => rw [List.count_cons, List.count_cons, ih]

/-- **The lines of a text** and an empty one behind them. -/
theorem pieces_unlines (hstart : start ≠ "") (h : Reads start depth lines found depth') :
    Reads start depth (pieces '\n' (unlines lines)) found depth' := by
  have hempty : ¬ start.toList <+: "".toList := fun hp => hstart (String.toList_eq_nil_iff.1 (List.prefix_nil.1 hp))
  rw [Accessors.pieces_unlines h.noBreak, ← List.append_nil found]
  exact h.append (.plain (by decide) hempty (fun _ => by decide) .nil)

example : definitions "class A\n\x7b\n  A()\n  \x7b\n    b();\n  \x7d\n\x7d\n" = ["  A()"] := by decide +kernel

end Reads

/-! ## The lines of a file -/

section Method

variable {m : Method} (hm : IsWord m.role)

include hm

theorem isWord_subject : IsWord (subject m) := Name.isWord_capitalized (Name.isWord_partner hm)

theorem isWord_methodName : IsWord (methodName m) := isWord_append.2 ⟨m.kind.isWord_text, isWord_subject hm⟩

theorem isWord_paramName : IsWord (paramName m) := isWord_append.2 ⟨by decide, isWord_subject hm⟩

theorem isWord_field : IsWord (field m) := by
  unfold field
  split
  · exact isWord_append.2 ⟨hm, by decide⟩
  · exact hm

/-- In the body of a method the braces are closed again. -/
theorem reads_body : Reads "  public " 2 ((body m).map ("    " ++ ·)) [] 2 := by
  have hfield : Lacks stops (field m) := (isWord_field hm).lacks (by decide)
  have hparam : Lacks stops (paramName m) := (isWord_paramName hm).lacks (by decide)
  unfold body
  split
  · split
    · exact .inside (.append (.append (by decide) hfield) (by decide)) .nil
    · exact .inside (.append (.append (by decide) hfield) (by decide)) .nil
  · refine .inside (.append (.append (.append hfield (by decide)) hparam) (by decide)) (.inside (by decide) .nil)
  · refine .inside ?_ (.other (by decide) (by decide) (by decide) rfl (.inside (by decide)
      (.other (by decide) (by decide) (by decide) rfl (.inside ?_ (.inside (by decide) .nil)))))
    · exact .append (.append (.append (.append (by decide) hfield) (by decide)) hparam) (by decide)
    · exact .append (.append (.append hfield (by decide)) hparam) (by decide)
  · exact .inside (.append (.append (.append (.append (by decide) hfield) (by decide)) hparam) (by decide)) .nil

end Method

/-- A member of a class has its head and no other. -/
theorem reads_member {top : String} {lines : List String} (htop : Lacks stops top) (hbracket : '(' ∈ top.toList)
    (h : Reads "  public " 2 (lines.map ("    " ++ ·)) [] 2) :
    Reads "  public " 1 (member top lines) ["  public " ++ top] 1 := by
  have hline : Lacks stops ("  public " ++ top) := .append (by decide) htop
  have hmem : '(' ∈ ("  public " ++ top).toList := by
    rw [String.toList_append]
    exact List.mem_append_right _ hbracket
  have hclose : Reads "  public " 2 ["  \x7d"] [] 1 := .other (by decide) (by decide) (by decide) rfl .nil
  refine .head (hline '\n' (by decide)) (by simp [String.toList_append]) hmem (depthAfter_of_lacks hline 1) ?_
  exact .other (by decide) (by decide) (by decide) rfl (h.append hclose)

section Signature

variable {g : Graph} (hg : g.Worded) {m : Method} (hm : IsWord m.role)

include hg

theorem lacks_valueType (m : Method) : Lacks (' ' :: '(' :: stops) (valueType g m) := by
  have htarget : Lacks (' ' :: '(' :: stops) (g.name m.target) := (hg.isWord_name m.target).lacks (by decide)
  unfold valueType
  split
  · exact htarget
  · exact .append (.append (by decide) htarget) (by decide)

include hm

/-- A signature is what is returned, the name, and the parameters in brackets. -/
theorem exists_signature : ∃ type params, Lacks (' ' :: '(' :: stops) type ∧ Lacks stops params ∧
    signature g m = type ++ " " ++ methodName m ++ "(" ++ params := by
  unfold signature
  split
  · refine ⟨valueType g m, ")", lacks_valueType hg m, by decide, ?_⟩
    simp only [String.append_assoc]
    rfl
  · have htarget : Lacks stops (g.name m.target) := (hg.isWord_name m.target).lacks (by decide)
    have hparam : Lacks stops (paramName m) := (isWord_paramName hm).lacks (by decide)
    refine ⟨"boolean", g.name m.target ++ " " ++ paramName m ++ ")", by decide,
      .append (.append (.append htarget (by decide)) hparam) (by decide), ?_⟩
    simp only [String.append_assoc]
    rfl

theorem lacks_signature : Lacks stops (signature g m) := by
  obtain ⟨type, params, htype, hparams, heq⟩ := exists_signature hg hm
  have hstops : Lacks stops type := fun c hc => htype c (List.mem_cons_of_mem _ (List.mem_cons_of_mem _ hc))
  rw [heq]
  exact .append (.append (.append (.append hstops (by decide)) ((isWord_methodName hm).lacks (by decide))) (by decide))
    hparams

theorem toList_signature : ∃ type params, ' ' ∉ type ∧ '(' ∉ type ++ ' ' :: (methodName m).toList ∧
    (signature g m).toList = type ++ ' ' :: (methodName m).toList ++ '(' :: params := by
  obtain ⟨type, params, htype, -, heq⟩ := exists_signature hg hm
  refine ⟨type.toList, params.toList, htype ' ' (by decide), ?_, ?_⟩
  · have hname : Lacks ['('] (methodName m) := (isWord_methodName hm).lacks (by decide)
    simp [htype '(' (by decide), hname '(' (by decide)]
  · rw [heq]
    simp [String.toList_append]

/-- **Methods of different names have different signatures.** -/
theorem methodName_eq_of_signature_eq {m' : Method} (hm' : IsWord m'.role) (h : signature g m = signature g m') :
    methodName m = methodName m' := by
  obtain ⟨type, params, htype, hbracket, heq⟩ := toList_signature hg hm
  obtain ⟨type', params', htype', hbracket', heq'⟩ := toList_signature hg hm'
  have hsame := congrArg String.toList h
  rw [heq, heq'] at hsame
  obtain ⟨hbefore, -⟩ := eq_of_append_cons_eq hbracket hbracket' hsame
  exact String.toList_inj.1 (eq_of_append_cons_eq htype htype' hbefore).2

/-- A constructor returns nothing, not even in its signature. -/
theorem signature_ne_constructor {name : String} (hname : IsWord name) : signature g m ≠ name ++ "()" := fun h => by
  obtain ⟨type, params, -, hbracket, heq⟩ := toList_signature hg hm
  have hlacks : Lacks [' ', '('] name := hname.lacks (by decide)
  have hsame := congrArg String.toList h
  rw [heq, String.toList_append] at hsame
  obtain ⟨hbefore, -⟩ := eq_of_append_cons_eq hbracket (hlacks '(' (by decide)) hsame
  refine hlacks ' ' (by decide) ?_
  rw [← hbefore]
  exact List.mem_append_right _ List.mem_cons_self

end Signature

/-! ## The lines of a file -/

/-- How the lines start that are heads in the file of a type. -/
def start (n : TypeNode) : String := if n.heritage.isInterface then "  " else "  public "

/-- The line that a method is declared in. -/
def head (g : Graph) (n : TypeNode) (m : Method) : String :=
  if n.heritage.isInterface then "  " ++ signature g m ++ ";" else "  public " ++ signature g m

/-- The line that the constructor is declared in, if there is one. -/
def constructorHead (n : TypeNode) : String := "  public " ++ (n.name ++ "()")

/-- The line of the constructor if the file has one. -/
def constructorHeads (g : Graph) (n : TypeNode) (ms : List Method) : List String :=
  if n.heritage.isInterface then [] else (constructorBlock g n ms).map fun _ => constructorHead n

theorem constructorHeads_mem (g : Graph) (n : TypeNode) (ms : List Method) :
    constructorHeads g n ms ∈ [[], [constructorHead n]] := by
  unfold constructorHeads constructorBlock
  split
  · exact List.mem_cons_self
  · split <;> simp

theorem start_prefix_head (g : Graph) (n : TypeNode) (m : Method) : (start n).toList <+: (head g n m).toList := by
  unfold start head
  split <;> simp [String.toList_append]

theorem blanks_prefix_start (n : TypeNode) : "  ".toList <+: (start n).toList := by
  unfold start
  split <;> decide

theorem start_ne_empty (n : TypeNode) : start n ≠ "" := fun h => by
  have hblanks := blanks_prefix_start n
  rw [h] at hblanks
  cases List.prefix_nil.1 hblanks

section File

variable {g : Graph} (hg : g.Worded) {ms : List Method} (hms : ∀ m ∈ ms, IsWord m.role)

include hg hms

/-- The fields of a class have no parameter lists. -/
theorem reads_fieldBlock : ∃ founds, List.Forall₂ (fun block found => Reads "  public " 1 block found 1)
    (fieldBlock g ms) founds ∧ founds.flatten = [] := by
  unfold fieldBlock
  split
  · exact ⟨[], .nil, rfl⟩
  · refine ⟨[[]], .cons (.plains (List.forall_mem_map.2 fun m hm => ?_)) .nil, rfl⟩
    have htype := lacks_valueType hg m
    have hfield : Lacks ('(' :: stops) (field m) := (isWord_field (hms m (List.mem_filter.1 hm).1)).lacks (by decide)
    have hline : Lacks ('(' :: stops) ("  private " ++ valueType g m ++ " " ++ field m ++ ";") :=
      .append (.append (.append (.append (by decide) fun c hc => htype c (List.mem_cons_of_mem _ hc)) (by decide)) hfield)
        (by decide)
    exact ⟨fun c hc => hline c (List.mem_cons_of_mem _ hc), by simp [String.toList_append],
      fun _ => hline '(' List.mem_cons_self⟩

/-- There is one constructor at most. -/
theorem reads_constructorBlock {n : TypeNode} (hn : n ∈ g.types) : ∃ founds,
    List.Forall₂ (fun block found => Reads "  public " 1 block found 1) (constructorBlock g n ms) founds ∧
      founds.flatten = (constructorBlock g n ms).map fun _ => constructorHead n := by
  unfold constructorBlock
  split
  · exact ⟨[], .nil, rfl⟩
  · refine ⟨[[constructorHead n]], .cons (reads_member ?_ ?_ ?_) .nil, rfl⟩
    · exact .append ((hg.types n hn).lacks (by decide)) (by decide)
    · simp [String.toList_append]
    · rw [List.map_map]
      refine .plains (List.forall_mem_map.2 fun m hm => ⟨.append (by decide) ?_, by simp, fun h => by cases h⟩)
      have hm := hms m (List.mem_filter.1 (List.mem_filter.1 hm).1).1
      have htarget : Lacks stops (g.name m.target) := (hg.isWord_name m.target).lacks (by decide)
      exact .append (.append (.append ((isWord_field hm).lacks (by decide)) (by decide)) htarget) (by decide)

theorem reads_blocks {n : TypeNode} (hn : n ∈ g.types) : ∃ founds,
    List.Forall₂ (fun block found => Reads (start n) 1 block found 1) (blocks g n ms) founds ∧
      founds.flatten = constructorHeads g n ms ++ ms.map (head g n) := by
  have hbracket : ∀ m ∈ ms, '(' ∈ (signature g m).toList := fun m hm => by
    obtain ⟨type, params, -, -, heq⟩ := toList_signature hg (hms m hm)
    rw [heq]
    exact List.mem_append_right _ List.mem_cons_self
  have hheads := flatten_map_singleton (head g n) ms
  by_cases hinterface : n.heritage.isInterface = true
  · have hstart : start n = "  " := if_pos hinterface
    have hinit : constructorHeads g n ms = [] := if_pos hinterface
    have hhead : ∀ m, head g n m = "  " ++ signature g m ++ ";" := fun m => if_pos hinterface
    have hblocks : blocks g n ms = ms.map fun m => ["  " ++ signature g m ++ ";"] := if_pos hinterface
    rw [hstart, hinit, hblocks]
    refine ⟨_, forall₂_map_map fun m hm => ?_, hheads⟩
    have hline : Lacks stops ("  " ++ signature g m ++ ";") :=
      .append (.append (by decide) (lacks_signature hg (hms m hm))) (by decide)
    rw [hhead]
    exact .head (hline '\n' (by decide)) (by simp [String.toList_append]) (by simp [hbracket m hm])
      (depthAfter_of_lacks hline 1) .nil
  · have hstart : start n = "  public " := if_neg hinterface
    have hinit : constructorHeads g n ms = (constructorBlock g n ms).map fun _ => constructorHead n := if_neg hinterface
    have hhead : ∀ m, head g n m = "  public " ++ signature g m := fun m => if_neg hinterface
    have hblocks : blocks g n ms =
        fieldBlock g ms ++ constructorBlock g n ms ++ ms.map fun m => member (signature g m) (body m) := if_neg hinterface
    rw [hstart, hinit, hblocks]
    obtain ⟨fields, hfields, hnone⟩ := reads_fieldBlock hg hms
    obtain ⟨constructors, hconstructors, hone⟩ := reads_constructorBlock hg hms hn
    have hmethods : List.Forall₂ (fun block found => Reads "  public " 1 block found 1)
        (ms.map fun m => member (signature g m) (body m)) (ms.map fun m => [head g n m]) :=
      forall₂_map_map fun m hm => by
        rw [hhead]
        exact reads_member (lacks_signature hg (hms m hm)) (hbracket m hm) (reads_body (hms m hm))
    refine ⟨_, List.rel_append (List.rel_append hfields hconstructors) hmethods, ?_⟩
    rw [List.flatten_append, List.flatten_append, hnone, hone, hheads]
    rfl

end File

/-- The lines above the members of a type. -/
def preamble (g : Graph) (n : TypeNode) (ms : List Method) : List String :=
  ["// Generated by modelc. Do not edit."] ++
    (g.namespaceName.toList.map fun name => "package " ++ name ++ ";") ++
    (match imports n ms with
      | [] => []
      | imports => "" :: imports.map fun i => "import " ++ i ++ ";") ++
    ["", declaration g n, "\x7b"]

theorem lines_eq (g : Graph) (n : TypeNode) (ms : List Method) :
    lines g n ms = preamble g n ms ++ spaced (blocks g n ms) ++ ["\x7d"] := rfl

section File

variable {g : Graph} (hg : g.Worded)

include hg

theorem lacks_clause (word : String) (hword : Lacks stops word) (types : List TypeId) :
    Lacks stops (clause g word types) := by
  unfold clause
  split
  · decide
  · refine .append (.append (.append (by decide) hword) (by decide)) (.intercalate (by decide) ?_)
    exact List.forall_mem_map.2 fun t _ => (hg.isWord_name t).lacks (by decide)

/-- The line that opens the type stands at the margin. -/
theorem declaration_at_margin {n : TypeNode} (hn : n ∈ g.types) : Lacks stops (declaration g n) ∧
    ¬ "  ".toList <+: (declaration g n).toList := by
  have hname : Lacks stops n.name := (hg.types n hn).lacks (by decide)
  unfold declaration
  split
  · refine ⟨.append (.append (.append (by decide) hname) ?_) ?_, by simp [String.toList_append]⟩
    · exact lacks_clause hg _ (by decide) _
    · exact lacks_clause hg _ (by decide) _
  · exact ⟨.append (.append (by decide) hname) (lacks_clause hg _ (by decide) _), by simp [String.toList_append]⟩

section Margin

variable {start : String} (hstart : "  ".toList <+: start.toList)

include hstart

omit hg in
/-- Ahead of the type, nothing at the margin is a head. -/
theorem reads_margin {lines : List String} (h : ∀ line ∈ lines, Lacks stops line ∧ ¬ "  ".toList <+: line.toList) :
    Reads start 0 lines [] 0 :=
  .plains fun line hline => ⟨(h line hline).1, fun hp => (h line hline).2 (hstart.trans hp), fun hd => by cases hd⟩

theorem reads_package : Reads start 0 (g.namespaceName.toList.map fun name => "package " ++ name ++ ";") [] 0 := by
  refine reads_margin hstart (List.forall_mem_map.2 fun name hname => ⟨?_, by simp [String.toList_append]⟩)
  obtain ⟨names, hnames, rfl⟩ := hg.namespaceName name (Option.mem_toList.1 hname)
  refine .append (.append (by decide) (.intercalate (by decide) fun segment hs => ?_)) (by decide)
  exact (hnames segment hs).lacks (by decide)

omit hg in
theorem reads_imports (n : TypeNode) (ms : List Method) :
    Reads start 0 ("" :: (imports n ms).map fun i => "import " ++ i ++ ";") [] 0 := by
  have himports : ∀ i ∈ imports n ms, Lacks stops i := by
    unfold imports
    split
    · split <;> decide
    · exact fun _ hi => absurd hi List.not_mem_nil
  refine reads_margin hstart (List.forall_mem_cons.2 ⟨⟨by decide, by decide⟩, List.forall_mem_map.2 fun i hi => ?_⟩)
  exact ⟨.append (.append (by decide) (himports i hi)) (by decide), by simp [String.toList_append]⟩

theorem reads_declaration {n : TypeNode} (hn : n ∈ g.types) :
    Reads start 0 ["", declaration g n, "\x7b"] [] 1 := by
  have hbrace : Reads start 0 ["\x7b"] [] 1 :=
    .other (by decide) (fun h => absurd (hstart.trans h) (by decide)) (fun h => by cases h) rfl .nil
  have hmargin : Reads start 0 ["", declaration g n] [] 0 := reads_margin hstart
    (List.forall_mem_cons.2 ⟨⟨by decide, by decide⟩, List.forall_mem_singleton.2 (declaration_at_margin hg hn)⟩)
  exact hmargin.append hbrace

/-- Above the members of a type there are no heads. -/
theorem reads_preamble {n : TypeNode} (hn : n ∈ g.types) (ms : List Method) :
    Reads start 0 (preamble g n ms) [] 1 := by
  have hcomment : Reads start 0 ["// Generated by modelc. Do not edit."] [] 0 :=
    reads_margin hstart (List.forall_mem_singleton.2 ⟨by decide, by decide⟩)
  have himports : Reads start 0 (match imports n ms with
      | [] => []
      | imports => "" :: imports.map fun i => "import " ++ i ++ ";") [] 0 := by
    split
    · exact .nil
    · exact reads_imports hstart n ms
  exact ((hcomment.append (reads_package hg hstart)).append himports).append (reads_declaration hg hstart hn)

end Margin

/-- **The heads in a file** are those of the methods that it is for, and that of a constructor before them if any. -/
theorem reads_lines {n : TypeNode} (hn : n ∈ g.types) {ms : List Method} (hms : ∀ m ∈ ms, IsWord m.role) :
    Reads (start n) 0 (lines g n ms) (constructorHeads g n ms ++ ms.map (head g n)) 0 := by
  have hstart := blanks_prefix_start n
  have hclose : Reads (start n) 1 ["\x7d"] [] 0 :=
    .other (by decide) (fun h => absurd (hstart.trans h) (by decide)) (fun _ => by decide) rfl .nil
  obtain ⟨founds, hforall, hfounds⟩ := reads_blocks hg hms hn
  have hreads := ((reads_preamble hg hstart hn ms).append (.spaced (start_ne_empty n) hforall)).append hclose
  rw [hfounds, List.nil_append, List.append_nil] at hreads
  exact hreads

end File

/-! ## Methods and heads -/

/-- **Each method is declared once** in the text of a file: its head is one of the lines, and the heads that the text has
are those of these methods and at most one of a constructor. -/
structure DefinesOnce (g : Graph) (n : TypeNode) (ms : List Method) (text : String) : Prop where
  once : ∀ m ∈ ms, (pieces '\n' text).count (head g n m) = 1
  only : ∃ init ∈ [[], [constructorHead n]], definitions text = init ++ ms.map (head g n)

theorem head_eq_iff (g : Graph) (n : TypeNode) {m m' : Method} :
    head g n m = head g n m' ↔ signature g m = signature g m' := by
  unfold head
  split
  · rw [String.append_left_inj, String.append_right_inj]
  · rw [String.append_right_inj]

theorem head_ne_constructorHead {g : Graph} (hg : g.Worded) {n : TypeNode} (hn : n ∈ g.types) {m : Method}
    (hm : IsWord m.role) : head g n m ≠ constructorHead n := fun h => by
  unfold head constructorHead at h
  split at h
  · have hlacks : Lacks [';'] ("  public " ++ (n.name ++ "()")) :=
      .append (by decide) (.append ((hg.types n hn).lacks (by decide)) (by decide))
    rw [← h] at hlacks
    exact hlacks ';' List.mem_cons_self (by simp [String.toList_append])
  · exact signature_ne_constructor hg hm (hg.types n hn) ((String.append_right_inj _).1 h)

theorem definesOnce {g : Graph} (hg : g.Worded) {n : TypeNode} (hn : n ∈ g.types) {ms : List Method}
    (hms : ∀ m ∈ ms, IsWord m.role) (hnodup : (ms.map methodName).Nodup) :
    DefinesOnce g n ms (unlines (lines g n ms)) := by
  have hinit := constructorHeads_mem g n ms
  have htext := (reads_lines hg hn hms).pieces_unlines (start_ne_empty n)
  refine ⟨fun m hm => ?_, _, hinit, htext.heads_eq⟩
  have hnone : (constructorHeads g n ms).count (head g n m) = 0 :=
    count_eq_zero_of_ne (head_ne_constructorHead hg hn (hms m hm)) hinit
  have hheads : (ms.map (head g n)).Nodup := by
    rw [List.nodup_map_iff_inj_on hnodup.of_map]
    intro m hm m' hm' heq
    have hname := methodName_eq_of_signature_eq hg (hms m hm) (hms m' hm') ((head_eq_iff g n).1 heq)
    exact List.inj_on_of_nodup_map hnodup hm hm' hname
  rw [htext.count_eq (start_prefix_head g n m), List.count_append, hnone, Nat.zero_add,
    List.count_eq_one_of_mem hheads (List.mem_map_of_mem hm)]

end Java
end Accessors
