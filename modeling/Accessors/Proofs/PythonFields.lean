import Accessors.Proofs.JavaFields
/-!
# The fields of a Python class

Fields are set up for getters only, and the name of a field is the role's in small letters, in which two roles may agree
(`userId` and `user_id`).  Yet each role keeps its getter (`Graph.exists_getter`), and getters of such roles have one name,
so a type with two of them has no file.  In a file that is written, the roles have fields of their own, and what
`__init__` sets up is just what the text uses (`Python.emit_fields_set_up_once`).
-/
namespace Accessors
namespace Python

open Java (isBreak getLast?_any_append)

/-! ## Reading fields -/

/-- The field of `self` that names with dots between them begin with. -/
def fieldOf? (run : List Char) : Option (List Char) :=
  if "self.".toList <+: run then some ("self.".toList ++ (run.drop 5).takeWhile Token.isNameChar) else none

def fieldsInChars (text : List Char) : List (List Char) := (text.splitOnP isBreak).filterMap fieldOf?

/-- The fields of `self` that a text uses, in order. -/
def fieldsIn (text : String) : List String := (fieldsInChars text.toList).map String.ofList

/-- The lines behind a line that are farther from the margin than a method. -/
def bodyOf (top : String) (lines : List String) : List String :=
  ((lines.dropWhile (· ≠ top)).drop 1).takeWhile ("        ".toList <+: ·.toList)

def assignedIn? (line : String) : Option (String × String) :=
  match (line.toList.drop 8).dropWhile (· ≠ ' ') with
  | ' ' :: '=' :: ' ' :: value => some (String.ofList ((line.toList.drop 8).takeWhile (· ≠ ' ')), String.ofList value)
  | _ => none

def initHead : String := "    def __init__(self):"

/-- What `__init__` sets, and to what. -/
def initialized (text : String) : List (String × String) := (bodyOf initHead (pieces '\n' text)).filterMap assignedIn?

/-! ## Fields that lines use -/

/-- **What breaks a text** stands in no field. -/
theorem readByRuns_fieldsInChars : ReadByRuns isBreak fieldsInChars where
  nil := by
    unfold fieldsInChars
    rw [List.splitOnP_nil]
    rfl
  cons hc l r := by
    unfold fieldsInChars
    rw [List.splitOnP_append_cons l r hc, List.filterMap_append]

theorem fieldsIn_append {a b : String} (h : a.toList.getLast?.any isBreak = true) :
    fieldsIn (a ++ b) = fieldsIn a ++ fieldsIn b := by
  unfold fieldsIn
  rw [String.toList_append, readByRuns_fieldsInChars.append h, List.map_append]

theorem fieldsIn_append_of_head {a b : String} (h : b.toList.head?.any isBreak = true) :
    fieldsIn (a ++ b) = fieldsIn a ++ fieldsIn b := by
  unfold fieldsIn
  rw [String.toList_append, readByRuns_fieldsInChars.append_of_head h, List.map_append]

theorem fieldsIn_unlines : ∀ lines : List String, fieldsIn (unlines lines) = lines.flatMap fieldsIn
  | [] => rfl
  | line :: lines => by
    have hbreak : isBreak '\n' = true := rfl
    rw [List.flatMap_cons, ← fieldsIn_unlines lines]
    unfold fieldsIn
    rw [toList_unlines_cons, readByRuns_fieldsInChars.cons hbreak, List.map_append]

theorem mem_of_mem_splitOnP {p : Char → Bool} {run : List Char} {c : Char} (hc : c ∈ run) : ∀ {text : List Char},
    run ∈ text.splitOnP p → c ∈ text
  | [], h => by
    rw [List.splitOnP_nil, List.mem_singleton] at h
    exact h ▸ hc
  | d :: text, h => by
    rw [List.splitOnP_cons_eq_if_modifyHead] at h
    split at h
    · rcases List.mem_cons.1 h with rfl | h
      · cases hc
      · exact List.mem_cons_of_mem d (mem_of_mem_splitOnP hc h)
    · obtain ⟨first, rest, heq⟩ := List.exists_cons_of_ne_nil (List.splitOnP_ne_nil p text)
      rw [heq, List.modifyHead_cons] at h
      rcases List.mem_cons.1 h with rfl | h
      · refine (List.mem_cons.1 hc).elim (fun h => h ▸ List.mem_cons_self) fun hc => ?_
        exact List.mem_cons_of_mem d (mem_of_mem_splitOnP hc (heq ▸ List.mem_cons_self))
      · exact List.mem_cons_of_mem d (mem_of_mem_splitOnP hc (heq ▸ List.mem_cons_of_mem first h))

/-- **A field has a dot** between `self` and its name. -/
theorem fieldsIn_eq_nil {text : String} (h : Lacks ['.'] text) : fieldsIn text = [] := by
  have hnone : fieldsInChars text.toList = [] := by
    refine List.filterMap_eq_nil_iff.2 fun run hrun => if_neg fun hself => ?_
    have hdot : '.' ∈ run := hself.subset (by decide)
    exact h '.' List.mem_cons_self (mem_of_mem_splitOnP hdot hrun)
  unfold fieldsIn
  rw [hnone]
  rfl

/-- A field is one run, with or without something behind another dot. -/
theorem fieldsIn_dotted {name rest : String} (hname : IsWord name) (hrest : rest.toList.any isBreak = false)
    (hdot : rest.toList.head?.all (· = '.') = true) : fieldsIn ("self." ++ name ++ rest) = ["self." ++ name] := by
  have hchars : ("self." ++ name ++ rest).toList = "self.".toList ++ (name.toList ++ rest.toList) := by
    rw [String.toList_append, String.toList_append, List.append_assoc]
  have hself : "self.".toList.any isBreak = false := by decide
  have hrun : ∀ c ∈ ("self." ++ name ++ rest).toList, isBreak c = false := by
    intro c hc
    rw [hchars] at hc
    rcases List.mem_append.1 hc with hc | hc
    · exact Bool.eq_false_iff.2 (List.any_eq_false.1 hself c hc)
    · rcases List.mem_append.1 hc with hc | hc
      · unfold isBreak
        rw [hname c hc]
        rfl
      · exact Bool.eq_false_iff.2 (List.any_eq_false.1 hrest c hc)
  have hend : (name.toList ++ rest.toList).takeWhile Token.isNameChar = name.toList := by
    refine Token.takeWhile_append_eq_left hname fun c hc => ?_
    rw [hc] at hdot
    rw [of_decide_eq_true hdot]
    rfl
  have hfield : fieldOf? ("self." ++ name ++ rest).toList = some ("self.".toList ++ name.toList) := by
    have hself : "self.".toList <+: ("self." ++ name ++ rest).toList := hchars ▸ List.prefix_append _ _
    have hdrop : ("self." ++ name ++ rest).toList.drop 5 = name.toList ++ rest.toList := by
      rw [hchars]
      rfl
    unfold fieldOf?
    rw [if_pos hself, hdrop, hend]
  unfold fieldsIn fieldsInChars
  rw [List.splitOnP_eq_singleton hrun, List.filterMap_cons_some hfield, List.filterMap_nil, List.map_singleton,
    ← String.toList_append, String.ofList_toList]

section Method

variable {m : Method} (hm : IsWord m.role)

include hm

theorem fieldsIn_field {call : String} (hcall : call.toList.any isBreak = false)
    (hdot : call.toList.head?.all (· = '.') = true) : fieldsIn (field m ++ call) = [field m] := by
  have hname : IsWord ("_" ++ Name.snake m.role) := isWord_append.2 ⟨by decide, Name.isWord_snake hm⟩
  have hfield : field m = "self." ++ ("_" ++ Name.snake m.role) := by
    rw [← String.append_assoc]
    rfl
  rw [hfield]
  exact fieldsIn_dotted hname hcall hdot

theorem fieldsIn_use {line : String} (before call after : String) (hbefore : Lacks ['.'] before)
    (hlast : before.toList.getLast?.any isBreak = true) (hcall : call.toList.any isBreak = false)
    (hdot : call.toList.head?.all (· = '.') = true) (hafter : Lacks ['.'] after)
    (hhead : after.toList.head?.any isBreak = true) (hline : line = before ++ (field m ++ call) ++ after) :
    fieldsIn line = [field m] := by
  rw [hline, fieldsIn_append_of_head hhead, fieldsIn_append hlast, fieldsIn_eq_nil hbefore, fieldsIn_eq_nil hafter,
    fieldsIn_field hm hcall hdot]
  rfl

/-- **The body of a method** uses the field of its role, and no other. -/
theorem fieldsIn_body : (body m).flatMap (fun line => fieldsIn ("        " ++ line)) =
    if m.kind.isPerPartner then [field m, field m] else [field m] := by
  have hparam : Lacks ['.'] (paramName m) := (isWord_paramName hm).lacks (by decide)
  have htrue : fieldsIn "        return True" = [] := fieldsIn_eq_nil (by decide)
  have hfalse : fieldsIn "            return False" = [] := fieldsIn_eq_nil (by decide)
  have hone : fieldsIn ("        " ++ ("return " ++ field m)) = [field m] := by
    have hbefore : Lacks ['.'] ("        " ++ "return ") := by decide
    have hfield : fieldsIn (field m ++ "") = [field m] := fieldsIn_field hm rfl rfl
    rw [String.append_empty] at hfield
    rw [← String.append_assoc, fieldsIn_append (by decide), fieldsIn_eq_nil hbefore, hfield]
    rfl
  have hmany : fieldsIn ("        " ++ ("return tuple(" ++ field m ++ ")")) = [field m] :=
    fieldsIn_use hm "        return tuple(" "" ")" (by decide) (by decide) rfl rfl (by decide) (by decide)
      (by simp only [String.append_assoc]; rfl)
  have hset : fieldsIn ("        " ++ (field m ++ " = " ++ paramName m)) = [field m] :=
    fieldsIn_use hm "        " "" (" = " ++ paramName m) (by decide) (by decide) rfl rfl (.append (by decide) hparam)
      (by simp [String.toList_append]; decide) (by simp only [String.append_assoc]; rfl)
  have htest : ∀ test ∈ [" in ", " not in "],
      fieldsIn ("        " ++ ("if " ++ paramName m ++ test ++ field m ++ ":")) = [field m] := by
    intro test htest
    have htested : Lacks ['.'] test ∧ test.toList.getLast?.any isBreak = true := by
      revert test
      decide
    refine fieldsIn_use hm ("        if " ++ paramName m ++ test) "" ":" ?_ (getLast?_any_append htested.2) rfl rfl
      (by decide) (by decide) (by simp only [String.append_assoc]; rfl)
    exact .append (.append (by decide) hparam) htested.1
  have hcalled : ∀ call ∈ [".append", ".remove"],
      fieldsIn ("        " ++ (field m ++ (call ++ "(") ++ paramName m ++ ")")) = [field m] := by
    intro call hcall
    have hdotted : call.toList.any isBreak = false ∧ call.toList.head?.all (· = '.') = true := by
      revert call
      decide
    exact fieldsIn_use hm "        " call ("(" ++ (paramName m ++ ")")) (by decide) (by decide) hdotted.1 hdotted.2
      (.append (by decide) (.append hparam (by decide))) (by simp [String.toList_append]; decide)
      (by simp only [String.append_assoc])
  have happended : fieldsIn ("        " ++ (field m ++ ".append(" ++ paramName m ++ ")")) = [field m] :=
    hcalled ".append" (by simp)
  have hremoved : fieldsIn ("        " ++ (field m ++ ".remove(" ++ paramName m ++ ")")) = [field m] :=
    hcalled ".remove" (by simp)
  cases hkind : m.kind with
  | get => cases hmul : m.multiplicity <;> simp [body, hkind, hmul, hone, hmany, Method.Kind.isPerPartner]
  | set => simp [body, hkind, hset, htrue, Method.Kind.isPerPartner]
  | add => simp [body, hkind, htest, happended, hfalse, htrue, Method.Kind.isPerPartner]
  | remove => simp [body, hkind, htest, hremoved, hfalse, htrue, Method.Kind.isPerPartner]

theorem fieldsIn_signature : fieldsIn (signature m) = [] := by
  have hname : Lacks ['.'] (methodName m) := (isWord_methodName hm).lacks (by decide)
  have hparam : Lacks ['.'] (paramName m) := (isWord_paramName hm).lacks (by decide)
  apply fieldsIn_eq_nil
  unfold signature
  split
  · exact .append (.append (by decide) hname) (by decide)
  · exact .append (.append (.append (.append (by decide) hname) (by decide)) hparam) (by decide)

theorem fieldsIn_initialValue : fieldsIn ("        " ++ field m ++ " = " ++ initialValue m.multiplicity) = [field m] := by
  have hvalue : Lacks ['.'] (initialValue m.multiplicity) := by cases m.multiplicity <;> decide
  exact fieldsIn_use hm "        " "" (" = " ++ initialValue m.multiplicity) (by decide) (by decide) rfl rfl
    (.append (by decide) hvalue) (by simp [String.toList_append]; decide) (by simp only [String.append_assoc]; rfl)

end Method

/-! ## Bodies -/

/-- **What is farther from the margin behind a line** that stands once. -/
theorem bodyOf_of_infix {top : String} {inner lines : List String} (hlines : top :: inner ++ [""] <:+: lines)
    (hcount : lines.count top = 1) (hinner : ∀ line ∈ inner, "        ".toList <+: line.toList) :
    bodyOf top lines = inner := by
  obtain ⟨before, behind, rfl⟩ := hlines
  rw [List.append_assoc, List.cons_append, List.cons_append] at hcount ⊢
  unfold bodyOf
  rw [dropWhile_of_count_eq_one hcount, List.drop_one, List.tail_cons, List.append_assoc,
    List.takeWhile_append_of_pos (fun line hline => decide_eq_true (hinner line hline))]
  simp

theorem assignedIn?_initialValue {name value : String} (hname : ' ' ∉ name.toList) :
    assignedIn? ("        " ++ (name ++ " = " ++ value)) = some (name, value) := by
  have hchars : ("        " ++ (name ++ " = " ++ value)).toList.drop 8 =
      name.toList ++ ' ' :: '=' :: ' ' :: value.toList := by
    simp [String.toList_append]
  have hfront : (name.toList ++ ' ' :: '=' :: ' ' :: value.toList).takeWhile (· ≠ ' ') = name.toList :=
    takeWhile_ne_append_cons hname _
  have hrest : (name.toList ++ ' ' :: '=' :: ' ' :: value.toList).dropWhile (· ≠ ' ') =
      ' ' :: '=' :: ' ' :: value.toList := dropWhile_ne_append_cons hname _
  unfold assignedIn?
  rw [hchars, hrest, hfront, String.ofList_toList]
  exact congrArg (fun value => some (name, value)) String.ofList_toList

/-! ## The lines of a file -/

def preamble (g : Graph) (n : TypeNode) : List String :=
  ["# Generated by modelc. Do not edit."] ++
    (match imports g n with
      | [] => []
      | imports => "" :: imports) ++
    ["", "", "class " ++ n.name ++ bases g n ++ ":"]

theorem lines_eq (g : Graph) (n : TypeNode) (ms : List Method) : lines g n ms = preamble g n ++
    match blocks n ms with
    | [] => ["    pass"]
    | blocks => spaced blocks := rfl

theorem blocks_of_isClass {n : TypeNode} {ms : List Method} (hclass : n.heritage.isInterface = false) :
    blocks n ms = initBlock ms ++ ms.map concreteMethod := if_neg (by simp [hclass])

theorem init_mem_blocks {n : TypeNode} {ms : List Method} (hclass : n.heritage.isInterface = false)
    (hsome : getters ms ≠ []) :
    initHead :: ((getters ms).map fun m => field m ++ " = " ++ initialValue m.multiplicity).map ("        " ++ ·) ∈
      blocks n ms := by
  have hinit : initBlock ms = [initHead :: ((getters ms).map fun m =>
      field m ++ " = " ++ initialValue m.multiplicity).map ("        " ++ ·)] := by
    unfold initBlock
    split
    · contradiction
    · rw [List.map_map]
      simp only [Function.comp_def, String.append_assoc]
      rfl
  rw [blocks_of_isClass hclass, hinit]
  exact List.mem_append_left _ (List.mem_singleton.2 rfl)

theorem infix_lines_of_mem_blocks {g : Graph} {n : TypeNode} {ms : List Method} {block : List String}
    (h : block ∈ blocks n ms) : block ++ [""] <:+: lines g n ms ++ [""] := by
  rw [lines_eq]
  split
  · rename_i hnone
    rw [hnone] at h
    cases h
  · rw [List.append_assoc]
    exact (infix_spaced_concat h).trans (List.suffix_append _ _).isInfix

section File

variable {g : Graph} (hg : g.Worded) {n : TypeNode} (hn : n ∈ g.types)

include hg hn

theorem fieldsIn_preamble : (preamble g n).flatMap fieldsIn = [] := by
  have hword : ∀ t, Lacks ['.'] (g.name t) := fun t => (hg.isWord_name t).lacks (by decide)
  have hname : Lacks ['.'] n.name := (hg.types n hn).lacks (by decide)
  have himports : ∀ line ∈ imports g n, fieldsIn line = [] := by
    intro line hline
    apply fieldsIn_eq_nil
    unfold imports at hline
    rcases List.mem_append.1 hline with hline | hline
    · split at hline
      · cases List.mem_singleton.1 hline
        decide
      · cases hline
    · obtain ⟨p, -, rfl⟩ := List.mem_map.1 hline
      have hmodule : Lacks ['.'] (moduleName (g.name p)) := (Name.isWord_snake (hg.isWord_name p)).lacks (by decide)
      exact .append (.append (.append (by decide) hmodule) (by decide)) (hword p)
  have hbases : Lacks ['.'] (bases g n) := by
    unfold bases
    split
    · split <;> decide
    · refine .append (.append (by decide) ?_) (by decide)
      exact .intercalate (by decide) (List.forall_mem_map.2 fun p _ => hword p)
  have hclass : fieldsIn ("class " ++ n.name ++ bases g n ++ ":") = [] :=
    fieldsIn_eq_nil (.append (.append (.append (by decide) hname) hbases) (by decide))
  apply List.flatMap_eq_nil_iff.2
  unfold preamble
  simp only [List.mem_append, List.mem_cons, List.not_mem_nil, or_false]
  rintro line ((rfl | hline) | rfl | rfl | rfl)
  · decide
  · split at hline
    · cases hline
    · rcases List.mem_cons.1 hline with rfl | hline
      · rfl
      · exact himports line hline
  · rfl
  · rfl
  · exact hclass

variable (hclass : n.heritage.isInterface = false) {ms : List Method} (hms : ∀ m ∈ ms, IsWord m.role)

include hclass hms

theorem fieldsIn_lines : fieldsIn (unlines (lines g n ms)) = (getters ms).map field ++
    ms.flatMap fun m => if m.kind.isPerPartner then [field m, field m] else [field m] := by
  have hinit : (initBlock ms).flatMap (·.flatMap fieldsIn) = (getters ms).map field := by
    have hassigned : ∀ gs ⊆ getters ms, (gs.map fun m => "        " ++ field m ++ " = " ++
        initialValue m.multiplicity).flatMap fieldsIn = gs.map field := by
      intro gs hgs
      rw [List.flatMap_map, List.map_eq_flatMap]
      exact List.flatMap_congr fun m hm => fieldsIn_initialValue (hms m (List.mem_filter.1 (hgs hm)).1)
    unfold initBlock
    split
    · rename_i hnone
      rw [hnone]
      rfl
    · have hhead : fieldsIn "    def __init__(self):" = [] := fieldsIn_eq_nil (by decide)
      rw [List.flatMap_singleton, List.flatMap_cons, hhead, List.nil_append]
      exact hassigned _ (List.Subset.refl _)
  have hmethods : (ms.map concreteMethod).flatMap (·.flatMap fieldsIn) =
      ms.flatMap fun m => if m.kind.isPerPartner then [field m, field m] else [field m] := by
    rw [List.flatMap_map]
    refine List.flatMap_congr fun m hm => ?_
    unfold concreteMethod
    rw [List.flatMap_cons, fieldsIn_signature (hms m hm), List.nil_append, List.flatMap_map]
    exact fieldsIn_body (hms m hm)
  have hblocks : (blocks n ms).flatMap (·.flatMap fieldsIn) = (getters ms).map field ++
      ms.flatMap fun m => if m.kind.isPerPartner then [field m, field m] else [field m] := by
    rw [blocks_of_isClass hclass, List.flatMap_append, hinit, hmethods]
  rw [fieldsIn_unlines, lines_eq, List.flatMap_append, fieldsIn_preamble hg hn, List.nil_append, ← hblocks]
  split
  · rename_i hnone
    have hpass : fieldsIn "    pass" = [] := fieldsIn_eq_nil (by decide)
    rw [hnone, List.flatMap_singleton, hpass]
    rfl
  · exact flatMap_spaced rfl _

end File

/-! ## Bodies in the text -/

section Text

variable {g : Graph} (hg : g.Worded) {n : TypeNode} (hn : n ∈ g.types) {ms : List Method}
variable (hms : ∀ m ∈ ms, IsWord m.role)

include hg hn hms

/-- The lines of the text define the methods, and `__init__` before them if anything else. -/
theorem defines_pieces : ∃ init ∈ [[], ["__init__"]],
    Defines (pieces '\n' (unlines (lines g n ms))) (init ++ ms.map methodName) := by
  obtain ⟨init, hinit, hdefines⟩ := defines_lines hg hn hms
  rw [pieces_unlines hdefines.noBreak]
  have hend := hdefines.append (.plain reads_empty .nil)
  rw [List.append_nil] at hend
  exact ⟨init, hinit, hend⟩

theorem infix_pieces_of_mem_blocks {block : List String} (h : block ∈ blocks n ms) :
    block ++ [""] <:+: pieces '\n' (unlines (lines g n ms)) := by
  obtain ⟨init, -, hdefines⟩ := defines_lines hg hn hms
  rw [pieces_unlines hdefines.noBreak]
  exact infix_lines_of_mem_blocks h

/-- **What stands behind the heading of a block** that defines a name, if no other one does. -/
theorem bodyOf_of_mem_blocks {top name : String} {inner : List String}
    (hblock : top :: inner.map ("        " ++ ·) ∈ blocks n ms) (htop : definedIn? top = some name)
    (hname : ∀ init ∈ [[], ["__init__"]], (init ++ ms.map methodName).count name ≤ 1) :
    bodyOf top (pieces '\n' (unlines (lines g n ms))) = inner.map ("        " ++ ·) := by
  obtain ⟨init, hinit, hdefines⟩ := defines_pieces hg hn hms
  have hstands := infix_pieces_of_mem_blocks hg hn hms hblock
  have hcount : (pieces '\n' (unlines (lines g n ms))).count top = 1 := by
    have hatMost := (hdefines.count_le htop).trans (hname init hinit)
    have hatLeast := List.count_pos_iff.2 (hstands.subset (List.mem_cons_self (a := top)))
    omega
  refine bodyOf_of_infix hstands hcount (List.forall_mem_map.2 fun line _ => ?_)
  rw [String.toList_append]
  exact List.prefix_append _ _

variable (hclass : n.heritage.isInterface = false)

include hclass

theorem bodyOf_method (hnodup : (ms.map methodName).Nodup) {m : Method} (hm : m ∈ ms) :
    bodyOf (signature m) (pieces '\n' (unlines (lines g n ms))) = (body m).map ("        " ++ ·) := by
  have hblock : concreteMethod m ∈ blocks n ms := by
    rw [blocks_of_isClass hclass]
    exact List.mem_append_right _ (List.mem_map_of_mem hm)
  refine bodyOf_of_mem_blocks hg hn hms hblock (reads_signature (hms m hm)).definedIn?_eq fun init hinit => ?_
  rw [List.count_append, count_eq_zero_of_ne (methodName_ne_init m) hinit, Nat.zero_add]
  exact List.nodup_iff_count_le_one.1 hnodup (methodName m)

/-- **What `__init__` sets up**: the fields of the getters. -/
theorem initialized_lines (hsome : getters ms ≠ []) : initialized (unlines (lines g n ms)) =
    (getters ms).map fun m => (field m, initialValue m.multiplicity) := by
  have hinit : definedIn? initHead = some "__init__" := by decide
  have hname : "__init__" ∉ ms.map methodName := by
    intro hmem
    obtain ⟨m, -, heq⟩ := List.mem_map.1 hmem
    exact methodName_ne_init m heq
  have hbody := bodyOf_of_mem_blocks hg hn hms (init_mem_blocks hclass hsome) hinit fun init hinit => by
    rw [List.count_append, List.count_eq_zero.2 hname, Nat.add_zero]
    revert init
    decide
  unfold initialized
  rw [hbody, List.map_map, List.filterMap_map, ← List.filterMap_eq_map]
  refine List.filterMap_congr fun m hm => ?_
  have hfield : Lacks [' '] (field m) := lacks_field (hms m (List.mem_filter.1 hm).1) (by decide) (by decide)
  rw [Function.comp_apply, Function.comp_apply, assignedIn?_initialValue (hfield ' ' List.mem_cons_self)]
  rfl

end Text

/-! ## Fields and roles -/

/-- What is set up gives each role a field, which holds no partner at first. -/
structure SetsUp (ms : List Method) (inits : List (String × String)) : Prop where
  once : ∀ m ∈ ms, (inits.map Prod.fst).count (field m) = 1
  value : ∀ m ∈ ms, (field m, if m.multiplicity = .many then "[]" else "None") ∈ inits

/-- The text keeps the partners of each role in a field: methods use the field of their role, each field that is used is
set up once, and without `__init__` none is used. -/
structure KeepsFields (ms : List Method) (text : String) : Prop where
  used : ∀ m ∈ ms, ∀ name, name ∈ (bodyOf (signature m) (pieces '\n' text)).flatMap fieldsIn ↔ name = field m
  once : ∀ name ∈ fieldsIn text, ((initialized text).map Prod.fst).count name = 1
  setsUp : SetsUp ms (initialized text)
  without : "__init__" ∉ definitions text → fieldsIn text = []

section Getters

variable {g : Graph} {o : TypeId} {ms : List Method} (h : (g.reportOn o).methods? = some ms)

include h

/-- **Roles that share a field** would share the name of their getters. -/
theorem role_eq_of_field_eq (hcollisions : Backend.python.collisions ms = []) {m m' : Method} (hm : m ∈ ms)
    (hm' : m' ∈ ms) (hfield : field m = field m') : m.role = m'.role := by
  obtain ⟨a, ha, hkind, hrole, -⟩ := Graph.exists_getter h hm
  obtain ⟨a', ha', hkind', hrole', -⟩ := Graph.exists_getter h hm'
  have hsnake : Name.snake m.role = Name.snake m'.role := String.append_right_inj _ |>.1 hfield
  have hname : methodName a = methodName a' := by
    unfold methodName subject
    rw [hkind, hkind', hrole, hrole']
    exact congrArg _ hsnake
  rw [← hrole, ← hrole']
  exact Backend.collisions_eq_nil_iff.1 hcollisions a ha a' ha' hname

theorem setsUp_getters (hcollisions : Backend.python.collisions ms = []) :
    SetsUp ms ((getters ms).map fun m => (field m, initialValue m.multiplicity)) := by
  have hnodup : (getters ms).Nodup := (List.Nodup.of_map _ (Graph.nodup_keys_of_methods? h)).filter _
  constructor
  · intro m hm
    obtain ⟨a, ha, hkind, hrole, -⟩ := Graph.exists_getter h hm
    have hget : a ∈ getters ms := List.mem_filter.2 ⟨ha, decide_eq_true hkind⟩
    have hfield : field m = field a := by unfold field; rw [hrole]
    rw [List.map_map, hfield]
    refine Java.count_map_eq_one hnodup hget fun b hb heq => ?_
    obtain ⟨hb, hkind'⟩ := List.mem_filter.1 hb
    exact Graph.eq_of_getters h hb ha (of_decide_eq_true hkind') hkind (role_eq_of_field_eq h hcollisions hb ha heq)
  · intro m hm
    obtain ⟨a, ha, hkind, hrole, hmul⟩ := Graph.exists_getter h hm
    refine List.mem_map.2 ⟨a, List.mem_filter.2 ⟨ha, decide_eq_true hkind⟩, ?_⟩
    unfold field
    rw [hrole, hmul]
    cases m.multiplicity <;> rfl

end Getters

theorem keepsFields {g : Graph} (hg : g.Worded) {n : TypeNode} (hn : n ∈ g.types) {ms : List Method}
    (hms : ∀ m ∈ ms, IsWord m.role) (hclass : n.heritage.isInterface = false) (hnodup : (ms.map methodName).Nodup)
    (hgetter : ∀ m ∈ ms, ∃ a ∈ getters ms, field a = field m)
    (hsetsUp : SetsUp ms ((getters ms).map fun m => (field m, initialValue m.multiplicity))) :
    KeepsFields ms (unlines (lines g n ms)) := by
  have hused : ∀ name ∈ fieldsIn (unlines (lines g n ms)), ∃ m ∈ ms, name = field m := by
    intro name hname
    rw [fieldsIn_lines hg hn hclass hms] at hname
    rcases List.mem_append.1 hname with hname | hname
    · obtain ⟨m, hm, rfl⟩ := List.mem_map.1 hname
      exact ⟨m, (List.mem_filter.1 hm).1, rfl⟩
    · obtain ⟨m, hm, hname⟩ := List.mem_flatMap.1 hname
      refine ⟨m, hm, ?_⟩
      split at hname <;> simpa using hname
  have hinit : ms ≠ [] → initialized (unlines (lines g n ms)) =
      (getters ms).map fun m => (field m, initialValue m.multiplicity) := by
    intro hne
    obtain ⟨m, rest, heq⟩ := List.exists_cons_of_ne_nil hne
    obtain ⟨a, ha, -⟩ := hgetter m (heq ▸ List.mem_cons_self)
    exact initialized_lines hg hn hms hclass (List.ne_nil_of_mem ha)
  have hne : ∀ {m : Method}, m ∈ ms → ms ≠ [] := fun hm => List.ne_nil_of_mem hm
  refine ⟨?_, ?_, ⟨?_, ?_⟩, ?_⟩
  · intro m hm name
    rw [bodyOf_method hg hn hms hclass hnodup hm, List.flatMap_map, fieldsIn_body (hms m hm)]
    split <;> simp
  · intro name hname
    obtain ⟨m, hm, rfl⟩ := hused name hname
    rw [hinit (hne hm)]
    exact hsetsUp.once m hm
  · intro m hm
    rw [hinit (hne hm)]
    exact hsetsUp.once m hm
  · intro m hm
    rw [hinit (hne hm)]
    exact hsetsUp.value m hm
  · intro hwithout
    apply List.eq_nil_iff_forall_not_mem.2
    intro name hname
    obtain ⟨m, hm, rfl⟩ := hused name hname
    obtain ⟨a, ha, -⟩ := hgetter m hm
    have hblock := infix_pieces_of_mem_blocks hg hn hms (init_mem_blocks hclass (List.ne_nil_of_mem ha))
    exact hwithout (List.mem_filterMap.2 ⟨initHead, hblock.subset List.mem_cons_self, by decide⟩)

/-- **The fields of a class.**  In every file that is written for a class, roles have fields of their own, and
`__init__` sets up the field of each once, with `None` for a single partner and `[]` for many.  If the names in the graph
are words, that can be read from the text: methods use the fields of their roles, and no others are used. -/
theorem emit_fields_set_up_once {g : Graph} {f : GeneratedFile} (hf : f ∈ (Backend.python.emit g g.report).files) :
    ∃ t n ms, g.node? t = some n ∧ (g.reportOn t).methods? = some ms ∧ f = Backend.python.fileOf g n ms ∧
      (n.heritage.isClass = true →
        (∀ m ∈ ms, ∀ m' ∈ ms, field m = field m' → m.role = m'.role) ∧
        (∃ inits, SetsUp ms inits ∧ initBlock ms = match inits with
          | [] => []
          | inits => [initHead :: inits.map fun i => "        " ++ i.1 ++ " = " ++ i.2]) ∧
        (g.Worded → KeepsFields ms f.contents)) := by
  rw [Backend.files_emit] at hf
  obtain ⟨t, -, hf⟩ := List.mem_flatMap.1 hf
  obtain ⟨n, ms, hn, hms, hcollisions, rfl⟩ := Backend.mem_filesFor.1 hf
  refine ⟨t, n, ms, hn, hms, rfl, fun hc => ?_⟩
  have hclass : n.heritage.isInterface = false := by
    unfold Heritage.isInterface
    rw [hc]
    rfl
  have hsetsUp := setsUp_getters hms hcollisions
  refine ⟨fun m hm m' hm' => role_eq_of_field_eq hms hcollisions hm hm', ⟨_, hsetsUp, ?_⟩, fun hg => ?_⟩
  · unfold initBlock
    cases getters ms with
    | nil => rfl
    | cons m gs => simp [initHead]
  · have hnodup := (Graph.collisions_eq_nil_iff_nodup hms .python).1 hcollisions
    refine keepsFields hg (List.mem_of_getElem? hn) (fun m hm => hg.isWord_role hms hm) hclass hnodup ?_ hsetsUp
    intro m hm
    obtain ⟨a, ha, hkind, hrole, -⟩ := Graph.exists_getter hms hm
    refine ⟨a, List.mem_filter.2 ⟨ha, decide_eq_true hkind⟩, ?_⟩
    unfold field
    rw [hrole]

/-- A player keeps teams of its own, and the team of a member. -/
theorem emit_fields_set_up_once_league : ∃ f ∈ (Backend.python.emit .league Graph.league.report).files,
    f.path = "py/player.py" ∧ ∃ ms, (Graph.league.reportOn ⟨1⟩).methods? = some ms ∧
      ((getters ms).map fun m => (field m, m.multiplicity)) = [("self._teams", .many), ("self._team", .one)] ∧
      KeepsFields ms f.contents := by
  have hfile : "py/player.py" ∈ (Backend.python.emit .league Graph.league.report).files.map GeneratedFile.path := by
    decide +kernel
  obtain ⟨f, hf, hpath⟩ := List.mem_map.1 hfile
  obtain ⟨t, n, ms, hn, hms, hfileOf, hfields⟩ := emit_fields_set_up_once hf
  have hplayer : ∀ n ∈ Graph.league.types, Path.join "py" (fileName n) = "py/player.py" →
      n.heritage.isClass = true ∧ n.id = ⟨1⟩ := by
    decide +kernel
  obtain ⟨ts, s, -, -, hs⟩ := Graph.parse_eq_ok.1 Graph.parse_leagueText
  have hn' : n ∈ Graph.league.types := List.mem_of_getElem? hn
  have hpath' : Path.join "py" (fileName n) = "py/player.py" := by
    rw [← hpath, hfileOf]
    rfl
  obtain ⟨hc, hid⟩ := hplayer n hn' hpath'
  have ht : t = ⟨1⟩ := ((Graph.wellFormed_of_ofSource hs).id_eq t.index n hn).symm.trans hid
  have hgetters : (Graph.league.reportOn ⟨1⟩).methods?.map
      (fun ms => (getters ms).map fun m => (field m, m.multiplicity)) =
        some [("self._teams", .many), ("self._team", .one)] := by
    decide +kernel
  rw [ht] at hms
  rw [hms, Option.map_some, Option.some.injEq] at hgetters
  exact ⟨f, hf, hpath, ms, hms, hgetters, (hfields hc).2.2 (Graph.worded_of_parse Graph.parse_leagueText)⟩

end Python
end Accessors
