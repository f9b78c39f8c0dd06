import Accessors.Proofs.Definitions
/-!
# The fields of a Java class

The text of a class declares a private field for each of its roles, the constructor makes a list for each that is
many-valued, and the body of a method mentions no field but that of its role (`Java.fields_lines`).  The fields are
distinct unless a role is named by a keyword and another one by that keyword with an underscore: the underscore that a
keyword gets is not looked for among the other roles (`Java.field_eq_iff`, `Java.emit_fields`).
-/
namespace Accessors
namespace Java

/-! ## Reading fields -/

/-- The field that a line declares. -/
def declaredIn? (line : String) : Option String :=
  if "  private ".toList <+: line.toList then
    some (String.ofList ((line.toList.reverse.drop 1).takeWhile (· ≠ ' ')).reverse)
  else none

/-- The private fields that a text declares, in order. -/
def declaredFields (text : String) : List String := (pieces '\n' text).filterMap declaredIn?

/-- The lines in the braces behind a line. -/
def bodyOf (top : String) (lines : List String) : List String :=
  ((lines.dropWhile (· ≠ top)).drop 2).takeWhile (· ≠ "  \x7d")

/-- The field to which a line of a body gives a new list. -/
def listMadeIn? (line : String) : Option String :=
  if " = new ArrayList<".toList <+: (line.toList.drop 4).dropWhile (· ≠ ' ') then
    some (String.ofList ((line.toList.drop 4).takeWhile (· ≠ ' ')))
  else none

/-- The fields that the constructor of a type gives new lists to. -/
def listsMade (n : TypeNode) (text : String) : List String :=
  (bodyOf (constructorHead n) (pieces '\n' text)).filterMap listMadeIn?

/-- What stands between names, and between what is behind the dot of a name and the next name. -/
def isBreak (c : Char) : Bool := !(Token.isNameChar c || c = '.')

/-- The names in a text, each without what is behind its dot. -/
def mentionsChars (text : List Char) : List (List Char) :=
  ((text.splitOnP isBreak).map (·.takeWhile (· ≠ '.'))).filter (· ≠ [])

/-- The names that a line mentions. -/
def mentions (line : String) : List String := (mentionsChars line.toList).map String.ofList

/-! ## Names that lines mention -/

/-- **What breaks a text** stands in no name. -/
theorem readByRuns_mentionsChars : ReadByRuns isBreak mentionsChars where
  nil := by
    unfold mentionsChars
    rw [List.splitOnP_nil]
    rfl
  cons hc l r := by
    unfold mentionsChars
    rw [List.splitOnP_append_cons l r hc, List.map_append, List.filter_append]

theorem mentions_append {a b : String} (h : a.toList.getLast?.any isBreak = true) :
    mentions (a ++ b) = mentions a ++ mentions b := by
  unfold mentions
  rw [String.toList_append, readByRuns_mentionsChars.append h, List.map_append]

theorem mentions_append_of_head {a b : String} (h : b.toList.head?.any isBreak = true) :
    mentions (a ++ b) = mentions a ++ mentions b := by
  unfold mentions
  rw [String.toList_append, readByRuns_mentionsChars.append_of_head h, List.map_append]

/-- A word is one name, with or without something behind a dot. -/
theorem mentions_dotted {word rest : String} (hword : IsWord word) (hrest : rest.toList.any isBreak = false)
    (hdot : rest.toList.head?.all (· = '.') = true) : mentions (word ++ rest) = if word = "" then [] else [word] := by
  have hrun : ∀ c ∈ (word ++ rest).toList, isBreak c = false := by
    intro c hc
    rw [String.toList_append] at hc
    rcases List.mem_append.1 hc with hc | hc
    · unfold isBreak
      rw [hword c hc]
      rfl
    · exact Bool.eq_false_iff.2 (List.any_eq_false.1 hrest c hc)
  have hname : (word.toList ++ rest.toList).takeWhile (· ≠ '.') = word.toList := by
    refine Token.takeWhile_append_eq_left (fun c hc => decide_eq_true ?_) (fun c hc => ?_)
    · rintro rfl
      exact absurd (hword _ hc) (by decide)
    · rw [hc] at hdot
      simpa using hdot
  unfold mentions mentionsChars
  rw [List.splitOnP_eq_singleton hrun, List.map_singleton, String.toList_append, hname]
  by_cases hempty : word = ""
  · simp [hempty]
  · simp [hempty]

/-- The line mentions no names but these. -/
def MentionsOnly (allowed : List String) (line : String) : Prop := ∀ name ∈ mentions line, name ∈ allowed

instance (allowed : List String) (line : String) : Decidable (MentionsOnly allowed line) :=
  List.decidableBAll _ (mentions line)

namespace MentionsOnly

variable {allowed allowed' : List String} {a b : String}

theorem mono (h : MentionsOnly allowed a) (hsub : allowed ⊆ allowed') : MentionsOnly allowed' a :=
  fun name hname => hsub (h name hname)

theorem of_eq_nil (h : mentions a = []) : MentionsOnly allowed a := by
  intro name hname
  rw [h] at hname
  cases hname

theorem of_mentions_append (hmentions : mentions (a ++ b) = mentions a ++ mentions b) (ha : MentionsOnly allowed a)
    (hb : MentionsOnly allowed b) : MentionsOnly allowed (a ++ b) := by
  intro name hname
  rw [hmentions] at hname
  rcases List.mem_append.1 hname with hname | hname
  · exact ha name hname
  · exact hb name hname

/-- Behind a break another name begins. -/
theorem append (ha : MentionsOnly allowed a) (hlast : a.toList.getLast?.any isBreak = true)
    (hb : MentionsOnly allowed b) : MentionsOnly allowed (a ++ b) := of_mentions_append (mentions_append hlast) ha hb

/-- Ahead of a break a name has ended. -/
theorem before (ha : MentionsOnly allowed a) (hhead : b.toList.head?.any isBreak = true)
    (hb : MentionsOnly allowed b) : MentionsOnly allowed (a ++ b) :=
  of_mentions_append (mentions_append_of_head hhead) ha hb

theorem dotted {word rest : String} (hword : IsWord word) (hrest : rest.toList.any isBreak = false)
    (hdot : rest.toList.head?.all (· = '.') = true) (hm : word ∈ allowed) : MentionsOnly allowed (word ++ rest) := by
  intro name hname
  rw [mentions_dotted hword hrest hdot] at hname
  split at hname
  · cases hname
  · rwa [List.mem_singleton.1 hname]

theorem word (hword : IsWord a) (hm : a ∈ allowed) : MentionsOnly allowed a := by
  rw [← String.append_empty (s := a)]
  exact dotted hword rfl rfl hm

/-- A word is asked to do what stands behind a dot. -/
theorem called {call : String} (hword : IsWord a) (hcall : call.toList.any isBreak = false)
    (hdot : call.toList.head?.all (· = '.') = true) (hm : a ∈ allowed) : MentionsOnly allowed (a ++ (call ++ "(")) := by
  rw [← String.append_assoc]
  exact .before (.dotted hword hcall hdot hm) (by decide) (.of_eq_nil (by decide))

end MentionsOnly

theorem getLast?_any_append {a b : String} (h : b.toList.getLast?.any isBreak = true) :
    (a ++ b).toList.getLast?.any isBreak = true := by
  obtain ⟨c, hc, hbreak⟩ := (Option.any_eq_true _ _).1 h
  rw [String.toList_append, List.getLast?_append, hc]
  exact hbreak

/-- What the body of a method may mention besides fields and its parameter. -/
def library : List String := "Collections" :: keywords

/-- A line mentions a field and the library, and hands on the parameter at most once. -/
inductive Handles (m : Method) (line : String) : Prop
  | alone (h : MentionsOnly (field m :: library) line)
  | passing (before after : String) (hlast : before.toList.getLast?.any isBreak = true)
      (hhead : after.toList.head?.any isBreak = true) (hbefore : MentionsOnly (field m :: library) before)
      (hafter : MentionsOnly library after) (hline : line = before ++ paramName m ++ after)

section Method

variable {m : Method} (hm : IsWord m.role)

include hm

/-- **The lines of a body** mention the field of its role, its parameter, and names that are no fields. -/
theorem handles_body : ∀ line ∈ body m, Handles m line := by
  have hlit : ∀ {line : String}, MentionsOnly library line → MentionsOnly (field m :: library) line :=
    fun h => h.mono (List.subset_cons_self _ _)
  have hfield : MentionsOnly (field m :: library) (field m) := .word (isWord_field hm) List.mem_cons_self
  have hcalled : ∀ call ∈ [".contains", ".add", ".remove"], MentionsOnly (field m :: library) (field m ++ (call ++ "(")) := by
    intro call hcall
    have hdotted : call.toList.any isBreak = false ∧ call.toList.head?.all (· = '.') = true := by
      revert call
      decide
    exact .called (isWord_field hm) hdotted.1 hdotted.2 List.mem_cons_self
  have hopen : ∀ call, (field m ++ (call ++ "(")).toList.getLast?.any isBreak = true := by
    intro call
    exact getLast?_any_append (getLast?_any_append (by decide))
  have hassoc : ∀ a b c : String, a ++ b ++ c = a ++ (b ++ c) := fun _ _ _ => String.append_assoc
  intro line hline
  unfold body at hline
  split at hline
  · split at hline
    · rw [List.mem_singleton.1 hline]
      exact .alone (.before (.append (hlit (by decide)) (by decide) hfield) (by decide) (hlit (by decide)))
    · rw [List.mem_singleton.1 hline]
      exact .alone (.before (.append (hlit (by decide)) (by decide) hfield) (by decide) (hlit (by decide)))
  · rcases List.mem_cons.1 hline with rfl | hline
    · refine .passing (field m ++ " = ") ";" (getLast?_any_append (by decide)) (by decide) ?_ (by decide) rfl
      exact .before hfield (by decide) (hlit (by decide))
    · rw [List.mem_singleton.1 hline]
      exact .alone (hlit (by decide))
  · simp only [List.mem_cons, List.not_mem_nil, or_false] at hline
    rcases hline with rfl | rfl | rfl | rfl | rfl | rfl
    · rw [hassoc "if ("]
      refine .passing ("if (" ++ (field m ++ ".contains(")) "))" ?_ (by decide) ?_ (by decide) rfl
      · exact getLast?_any_append (hopen ".contains")
      · exact .append (hlit (by decide)) (by decide) (hcalled ".contains" (by simp))
    · exact .alone (hlit (by decide))
    · exact .alone (hlit (by decide))
    · exact .alone (hlit (by decide))
    · exact .passing (field m ++ ".add(") ");" (hopen ".add") (by decide) (hcalled ".add" (by simp)) (by decide) rfl
    · exact .alone (hlit (by decide))
  · rw [List.mem_singleton.1 hline, hassoc "return "]
    refine .passing ("return " ++ (field m ++ ".remove(")) ");" ?_ (by decide) ?_ (by decide) rfl
    · exact getLast?_any_append (hopen ".remove")
    · exact .append (hlit (by decide)) (by decide) (hcalled ".remove" (by simp))

/-- What the body of a method mentions, at its place in the text. -/
theorem mentionsOnly_body : ∀ line ∈ body m, MentionsOnly (field m :: paramName m :: library) ("    " ++ line) := by
  have hwithout : field m :: library ⊆ field m :: paramName m :: library :=
    List.cons_subset_cons _ (List.subset_cons_self _ _)
  have hlibrary : library ⊆ field m :: paramName m :: library :=
    List.Subset.trans (List.subset_cons_self _ _) (List.subset_cons_self _ _)
  have hparam : MentionsOnly (field m :: paramName m :: library) (paramName m) := .word (isWord_paramName hm) (by simp)
  have hblank : MentionsOnly library "    " := by decide
  intro line hline
  refine .append (hblank.mono hlibrary) (by decide) ?_
  cases handles_body hm line hline with
  | alone h => exact h.mono hwithout
  | passing before after hlast hhead hbefore hafter hline =>
    rw [hline]
    exact .before (.append (hbefore.mono hwithout) hlast hparam) hhead (hafter.mono hlibrary)

end Method

/-! ## Bodies -/

/-- **What is in braces behind a line** that stands once. -/
theorem bodyOf_of_infix {top : String} {inner lines : List String}
    (hlines : top :: "  \x7b" :: inner ++ ["  \x7d"] <:+: lines) (hcount : lines.count top = 1)
    (hinner : ∀ line ∈ inner, line ≠ "  \x7d") : bodyOf top lines = inner := by
  obtain ⟨before, behind, rfl⟩ := hlines
  rw [List.append_assoc, List.cons_append, List.cons_append, List.cons_append] at hcount ⊢
  unfold bodyOf
  rw [dropWhile_of_count_eq_one hcount]
  show ((inner ++ ["  \x7d"] ++ behind).takeWhile (· ≠ "  \x7d")) = inner
  rw [List.append_assoc]
  exact takeWhile_ne_append_cons (fun hmem => hinner _ hmem rfl) behind

theorem bodyOf_of_notMem {top : String} {lines : List String} (h : top ∉ lines) : bodyOf top lines = [] := by
  have hall : lines.dropWhile (· ≠ top) = [] := by
    apply List.dropWhile_eq_nil_iff.2
    intro line hline
    apply decide_eq_true
    rintro rfl
    exact h hline
  unfold bodyOf
  rw [hall]
  rfl

/-- A line of a body is farther from the margin than the brace behind it. -/
theorem ne_close_of_mem_body {lines : List String} : ∀ line ∈ lines.map ("    " ++ ·), line ≠ "  \x7d" := by
  intro line hline heq
  obtain ⟨inner, -, rfl⟩ := List.mem_map.1 hline
  have hchars := congrArg String.toList heq
  simp [String.toList_append] at hchars

/-! ## Declarations -/

theorem declaredIn?_field {type name : String} (hname : ' ' ∉ name.toList) :
    declaredIn? ("  private " ++ type ++ " " ++ name ++ ";") = some name := by
  have hchars : ("  private " ++ type ++ " " ++ name ++ ";").toList =
      ("  private " ++ type).toList ++ ' ' :: name.toList ++ [';'] := by
    simp [String.toList_append]
  have hprefix : "  private ".toList <+: ("  private " ++ type ++ " " ++ name ++ ";").toList := by
    simp [String.toList_append]
  have hend : (name.toList.reverse ++ ' ' :: ("  private " ++ type).toList.reverse).takeWhile (· ≠ ' ') =
      name.toList.reverse := takeWhile_ne_append_cons (mt List.mem_reverse.1 hname) _
  have hback : (("  private " ++ type).toList ++ ' ' :: name.toList ++ [';']).reverse.drop 1 =
      name.toList.reverse ++ ' ' :: ("  private " ++ type).toList.reverse := by
    simp
  unfold declaredIn?
  rw [if_pos hprefix, hchars, hback, hend, List.reverse_reverse, String.ofList_toList]

theorem declaredIn?_eq_none {line : String} (h : ¬ "  private ".toList <+: line.toList) : declaredIn? line = none := if_neg h

theorem listMadeIn?_list {name type : String} (hname : ' ' ∉ name.toList) :
    listMadeIn? ("    " ++ (name ++ " = new ArrayList<" ++ type ++ ">();")) = some name := by
  have hchars : ("    " ++ (name ++ " = new ArrayList<" ++ type ++ ">();")).toList.drop 4 =
      name.toList ++ (" = new ArrayList<".toList ++ (type ++ ">();").toList) := by
    simp [String.toList_append]
  have hfront : (name.toList ++ (" = new ArrayList<".toList ++ (type ++ ">();").toList)).takeWhile (· ≠ ' ') =
      name.toList := takeWhile_ne_append_cons hname _
  have hrest : (name.toList ++ (" = new ArrayList<".toList ++ (type ++ ">();").toList)).dropWhile (· ≠ ' ') =
      " = new ArrayList<".toList ++ (type ++ ">();").toList := dropWhile_ne_append_cons hname _
  unfold listMadeIn?
  rw [hchars, hrest, hfront, if_pos (List.prefix_append _ _), String.ofList_toList]

section Members

variable {g : Graph} {n : TypeNode} {ms : List Method}

theorem filterMap_fieldBlock (hms : ∀ m ∈ ms, IsWord m.role) :
    (fieldBlock g ms).flatMap (·.filterMap declaredIn?) = (getters ms).map field := by
  have hfields : ∀ gs ⊆ getters ms, (gs.map fun m => "  private " ++ valueType g m ++ " " ++ field m ++ ";").filterMap
      declaredIn? = gs.map field := by
    intro gs hgs
    rw [List.filterMap_map, ← List.filterMap_eq_map]
    refine List.filterMap_congr fun m hm => ?_
    have hlacks : Lacks [' '] (field m) := (isWord_field (hms m (List.mem_filter.1 (hgs hm)).1)).lacks (by decide)
    rw [Function.comp_apply, declaredIn?_field (hlacks ' ' List.mem_cons_self)]
    rfl
  unfold fieldBlock
  split
  · rename_i hnone
    rw [hnone]
    rfl
  · rw [List.flatMap_singleton]
    exact hfields _ (List.Subset.refl _)

/-- No member but the fields is private. -/
theorem filterMap_member (top : String) (inner : List String) : (member top inner).filterMap declaredIn? = [] := by
  apply List.filterMap_eq_nil_iff.2
  intro line hline
  apply declaredIn?_eq_none
  unfold member at hline
  simp only [List.cons_append, List.nil_append, List.mem_cons, List.mem_append, List.mem_map, List.not_mem_nil,
    or_false] at hline
  rcases hline with rfl | rfl | ⟨line, -, rfl⟩ | rfl
  · simp [String.toList_append]
  · decide
  · simp [String.toList_append]
  · decide

theorem blocks_of_isClass (hclass : n.heritage.isInterface = false) : blocks g n ms =
    fieldBlock g ms ++ constructorBlock g n ms ++ ms.map fun m => member (signature g m) (body m) :=
  if_neg (by simp [hclass])

theorem filterMap_blocks (hclass : n.heritage.isInterface = false) (hms : ∀ m ∈ ms, IsWord m.role) :
    (blocks g n ms).flatMap (·.filterMap declaredIn?) = (getters ms).map field := by
  have hconstructor : (constructorBlock g n ms).flatMap (·.filterMap declaredIn?) = [] := by
    unfold constructorBlock
    split
    · rfl
    · rw [List.flatMap_singleton, filterMap_member]
  have hmethods : (ms.map fun m => member (signature g m) (body m)).flatMap (·.filterMap declaredIn?) = [] := by
    rw [List.flatMap_map]
    exact List.flatMap_eq_nil_iff.2 fun m _ => filterMap_member _ _
  rw [blocks_of_isClass hclass, List.flatMap_append, List.flatMap_append, filterMap_fieldBlock hms, hconstructor,
    hmethods, List.append_nil, List.append_nil]

theorem infix_lines_of_mem_blocks {block : List String} (h : block ∈ blocks g n ms) :
    block <:+: lines g n ms ++ [""] := by
  rw [lines_eq, List.append_assoc, List.append_assoc]
  exact (infix_spaced h).trans ((List.prefix_append _ _).isInfix.trans (List.suffix_append _ _).isInfix)

end Members

theorem Reads.not_prefix_of_nil {start : String} {depth depth' : Nat} {lines : List String}
    (h : Reads start depth lines [] depth') : ∀ line ∈ lines, ¬ start.toList <+: line.toList := by
  generalize hfound : ([] : List String) = found at h
  induction h with
  | nil => exact fun _ hline => absurd hline List.not_mem_nil
  | other _ hstart _ _ _ ih => exact List.forall_mem_cons.2 ⟨hstart, ih hfound⟩
  | head => cases hfound

section File

variable {g : Graph} (hg : g.Worded) {n : TypeNode} (hn : n ∈ g.types) (hclass : n.heritage.isInterface = false)
  {ms : List Method} (hms : ∀ m ∈ ms, IsWord m.role)

include hg hn hms

theorem pieces_lines : pieces '\n' (unlines (lines g n ms)) = lines g n ms ++ [""] :=
  pieces_unlines (reads_lines hg hn hms).noBreak

include hclass

/-- **A class declares a field for each getter.** -/
theorem declaredFields_lines : declaredFields (unlines (lines g n ms)) = (getters ms).map field := by
  have hpreamble : (preamble g n ms).filterMap declaredIn? = [] := by
    apply List.filterMap_eq_nil_iff.2
    intro line hline
    apply declaredIn?_eq_none
    have hreads : Reads "  private " 0 (preamble g n ms) [] 1 := reads_preamble hg (by decide) hn ms
    exact hreads.not_prefix_of_nil line hline
  have hend : ["\x7d", ""].filterMap declaredIn? = [] := by decide
  unfold declaredFields
  rw [pieces_lines hg hn hms, lines_eq, List.append_assoc, List.filterMap_append, List.filterMap_append, hpreamble,
    filterMap_spaced (by decide), filterMap_blocks hclass hms, List.nil_append]
  exact (congrArg _ hend).trans (List.append_nil _)

/-- **The body of a method** in the text. -/
theorem bodyOf_method (hnodup : (ms.map methodName).Nodup) {m : Method} (hm : m ∈ ms) :
    bodyOf (head g n m) (pieces '\n' (unlines (lines g n ms))) = (body m).map ("    " ++ ·) := by
  have hhead : head g n m = "  public " ++ signature g m := if_neg (by simp [hclass])
  have hcount := (definesOnce hg hn hms hnodup).once m hm
  rw [pieces_lines hg hn hms] at hcount ⊢
  have hmember : member (signature g m) (body m) ∈ blocks g n ms := by
    rw [blocks_of_isClass hclass]
    exact List.mem_append_right _ (List.mem_map_of_mem hm)
  rw [hhead] at hcount ⊢
  exact bodyOf_of_infix (infix_lines_of_mem_blocks hmember) hcount ne_close_of_mem_body

/-- The constructor stands in the text as often as it is written, and nothing else looks like it. -/
theorem count_constructorHead : (pieces '\n' (unlines (lines g n ms))).count (constructorHead n) =
    (constructorBlock g n ms).length := by
  have htext := (reads_lines hg hn hms).pieces_unlines (start_ne_empty n)
  have hstart : (start n).toList <+: (constructorHead n).toList := by
    have hpublic : start n = "  public " := if_neg (by simp [hclass])
    rw [hpublic]
    unfold constructorHead
    simp [String.toList_append]
  have hheads : (ms.map (head g n)).count (constructorHead n) = 0 := by
    apply List.count_eq_zero.2
    intro hmem
    obtain ⟨m, hm, heq⟩ := List.mem_map.1 hmem
    exact head_ne_constructorHead hg hn (hms m hm) heq
  have hinit : constructorHeads g n ms = (constructorBlock g n ms).map fun _ => constructorHead n :=
    if_neg (by simp [hclass])
  rw [htext.count_eq hstart, List.count_append, hheads, Nat.add_zero, hinit, List.map_const', List.count_replicate_self]

/-- **The constructor makes the lists** of the many-valued roles. -/
theorem listsMade_lines : listsMade n (unlines (lines g n ms)) =
    ((getters ms).filter fun m => m.multiplicity = .many).map field := by
  have hcount := count_constructorHead hg hn hclass hms
  cases hmany : (getters ms).filter fun m => m.multiplicity = .many with
  | nil =>
    have hblock : constructorBlock g n ms = [] := by
      unfold constructorBlock
      rw [hmany]
    rw [hblock] at hcount
    unfold listsMade
    rw [bodyOf_of_notMem (List.count_eq_zero.1 hcount)]
    rfl
  | cons first rest =>
    have hblock : constructorBlock g n ms = [member (n.name ++ "()") ((first :: rest).map fun m =>
        field m ++ " = new ArrayList<" ++ g.name m.target ++ ">();")] := by
      unfold constructorBlock
      rw [hmany]
    have hbody : bodyOf (constructorHead n) (lines g n ms ++ [""]) = ((first :: rest).map fun m =>
        field m ++ " = new ArrayList<" ++ g.name m.target ++ ">();").map ("    " ++ ·) := by
      rw [hblock, pieces_lines hg hn hms] at hcount
      refine bodyOf_of_infix (infix_lines_of_mem_blocks ?_) hcount ne_close_of_mem_body
      rw [blocks_of_isClass hclass, hblock]
      exact List.mem_append_left _ (List.mem_append_right _ (List.mem_singleton.2 rfl))
    unfold listsMade
    rw [pieces_lines hg hn hms, hbody, List.map_map, List.filterMap_map, ← List.filterMap_eq_map]
    refine List.filterMap_congr fun m hm => ?_
    have hmem : m ∈ ms := (List.mem_filter.1 (List.mem_filter.1 (hmany ▸ hm)).1).1
    have hlacks : Lacks [' '] (field m) := (isWord_field (hms m hmem)).lacks (by decide)
    rw [Function.comp_apply, Function.comp_apply, Function.comp_apply,
      listMadeIn?_list (hlacks ' ' List.mem_cons_self)]

end File

/-! ## Fields and roles -/

/-- The first method's role is named by a keyword, and the second one's as the keyword is named to be a field. -/
def Clash (m m' : Method) : Prop := m.role ∈ keywords ∧ m'.role = m.role ++ "_"

theorem append_notMem_keywords : ∀ word ∈ keywords, word ++ "_" ∉ keywords := by decide

/-- **Two fields are one** only if their roles are, or if these clash. -/
theorem field_eq_iff {m m' : Method} : field m = field m' ↔ m.role = m'.role ∨ Clash m m' ∨ Clash m' m := by
  unfold field Clash
  by_cases hm : m.role ∈ keywords <;> by_cases hm' : m'.role ∈ keywords
  · rw [if_pos hm, if_pos hm', String.append_left_inj]
    constructor
    · exact .inl
    · rintro (h | ⟨-, h⟩ | ⟨-, h⟩)
      · exact h
      · exact absurd (h ▸ hm') (append_notMem_keywords _ hm)
      · exact absurd (h ▸ hm) (append_notMem_keywords _ hm')
  · rw [if_pos hm, if_neg hm']
    constructor
    · intro h
      exact .inr (.inl ⟨hm, h.symm⟩)
    · rintro (h | ⟨-, h⟩ | ⟨h, -⟩)
      · exact absurd (h ▸ hm) hm'
      · exact h.symm
      · exact absurd h hm'
  · rw [if_neg hm, if_pos hm']
    constructor
    · intro h
      exact .inr (.inr ⟨hm', h⟩)
    · rintro (h | ⟨h, -⟩ | ⟨-, h⟩)
      · exact absurd (h.symm ▸ hm') hm
      · exact absurd h hm
      · exact h
  · rw [if_neg hm, if_neg hm']
    constructor
    · exact .inl
    · rintro (h | ⟨h, -⟩ | ⟨h, -⟩)
      · exact h
      · exact absurd h hm
      · exact absurd h hm'

theorem count_map_eq_one {α β : Type} [DecidableEq β] {f : α → β} : ∀ {l : List α}, l.Nodup → ∀ {a : α}, a ∈ l →
    (∀ b ∈ l, f b = f a → b = a) → (l.map f).count (f a) = 1
  | b :: l, hl, a, ha, hinj => by
    obtain ⟨hb, hl⟩ := List.nodup_cons.1 hl
    rw [List.map_cons, List.count_cons]
    rcases List.mem_cons.1 ha with rfl | ha
    · have hnone : (l.map f).count (f a) = 0 := by
        apply List.count_eq_zero.2
        intro hm
        obtain ⟨c, hc, he⟩ := List.mem_map.1 hm
        exact hb (hinj c (List.mem_cons_of_mem _ hc) he ▸ hc)
      rw [hnone]
      simp
    · have hne : f b ≠ f a := fun he => hb (hinj b List.mem_cons_self he ▸ ha)
      rw [count_map_eq_one hl ha fun c hc => hinj c (List.mem_cons_of_mem _ hc)]
      simp [hne]

section Getters

variable {g : Graph} {o : TypeId} {ms : List Method} (h : (g.reportOn o).methods? = some ms)

include h

theorem nodup_getters : (getters ms).Nodup := (List.Nodup.of_map _ (Graph.nodup_keys_of_methods? h)).filter _

/-- **Each role has one getter.** -/
theorem getter_eq_of_role_eq {a b : Method} (ha : a ∈ getters ms) (hb : b ∈ getters ms) (hrole : a.role = b.role) :
    a = b := by
  obtain ⟨ha, hka⟩ := List.mem_filter.1 ha
  obtain ⟨hb, hkb⟩ := List.mem_filter.1 hb
  exact Graph.eq_of_getters h ha hb (of_decide_eq_true hka) (of_decide_eq_true hkb) hrole

theorem exists_getter {m : Method} (hm : m ∈ ms) :
    ∃ a ∈ getters ms, a.role = m.role ∧ a.multiplicity = m.multiplicity := by
  obtain ⟨a, ha, hkind, hrole, hmul⟩ := Graph.exists_getter h hm
  exact ⟨a, List.mem_filter.2 ⟨ha, decide_eq_true hkind⟩, hrole, hmul⟩

/-- **The fields are distinct** just if no roles clash. -/
theorem nodup_fields_iff : ((getters ms).map field).Nodup ↔ ¬ ∃ m ∈ ms, ∃ m' ∈ ms, Clash m m' := by
  rw [List.nodup_map_iff_inj_on (nodup_getters h)]
  constructor
  · rintro hinj ⟨m, hm, m', hm', hclash⟩
    obtain ⟨a, ha, hrole, -⟩ := exists_getter h hm
    obtain ⟨a', ha', hrole', -⟩ := exists_getter h hm'
    have hsame : a = a' := by
      apply hinj a ha a' ha'
      apply field_eq_iff.2
      right; left
      unfold Clash
      rw [hrole, hrole']
      exact hclash
    have hlength := congrArg String.length hclash.2
    rw [← hrole, ← hrole', hsame, String.length_append] at hlength
    have hone : "_".length = 1 := rfl
    omega
  · intro hnone a ha a' ha' heq
    rcases field_eq_iff.1 heq with hrole | hclash | hclash
    · exact getter_eq_of_role_eq h ha ha' hrole
    · exact absurd ⟨a, (List.mem_filter.1 ha).1, a', (List.mem_filter.1 ha').1, hclash⟩ hnone
    · exact absurd ⟨a', (List.mem_filter.1 ha').1, a, (List.mem_filter.1 ha).1, hclash⟩ hnone

/-- A role that does not clash has a field of its own, and the list for it is made if it is many-valued. -/
theorem count_field {m : Method} (hm : m ∈ ms) (hnone : ∀ m' ∈ ms, ¬ Clash m m' ∧ ¬ Clash m' m) :
    ((getters ms).map field).count (field m) = 1 ∧
      (((getters ms).filter fun m => m.multiplicity = .many).map field).count (field m) =
        if m.multiplicity = .many then 1 else 0 := by
  obtain ⟨a, ha, hrole, hmul⟩ := exists_getter h hm
  have hfield : field a = field m := field_eq_iff.2 (.inl hrole)
  have honly : ∀ b ∈ getters ms, field b = field a → b = a := by
    intro b hb heq
    rw [hfield] at heq
    rcases field_eq_iff.1 heq with hsame | hclash | hclash
    · exact getter_eq_of_role_eq h hb ha (hsame.trans hrole.symm)
    · exact absurd hclash (hnone b (List.mem_filter.1 hb).1).2
    · exact absurd hclash (hnone b (List.mem_filter.1 hb).1).1
  rw [← hfield, ← hmul]
  refine ⟨count_map_eq_one (nodup_getters h) ha honly, ?_⟩
  by_cases hmany : a.multiplicity = .many
  · rw [if_pos hmany]
    refine count_map_eq_one ((nodup_getters h).filter _) (List.mem_filter.2 ⟨ha, decide_eq_true hmany⟩) ?_
    exact fun b hb => honly b (List.mem_filter.1 hb).1
  · rw [if_neg hmany]
    apply List.count_eq_zero.2
    intro hmem
    obtain ⟨b, hb, heq⟩ := List.mem_map.1 hmem
    obtain ⟨hb, hmany'⟩ := List.mem_filter.1 hb
    rw [honly b hb heq] at hmany'
    exact hmany (of_decide_eq_true hmany')

end Getters

/-- **The fields of a class.**  They are distinct just if no roles clash.  If the role of a method clashes with no other,
its field is declared once; the body of the method mentions no names but keywords, the library's, its parameter and
fields that are declared once; and the constructor makes a list for the field just if the role is many-valued. -/
theorem emit_fields {text : String} {g : Graph} (h : Graph.parse text = .ok g) {f : GeneratedFile}
    (hf : f ∈ (Backend.java.emit g g.report).files) : ∃ n ∈ g.types, ∃ ms, (g.reportOn n.id).methods? = some ms ∧
      f = Backend.java.fileOf g n ms ∧ (n.heritage.isClass = true →
        ((declaredFields f.contents).Nodup ↔ ¬ ∃ m ∈ ms, ∃ m' ∈ ms, Clash m m') ∧
        ∀ m ∈ ms, (∀ m' ∈ ms, ¬ Clash m m' ∧ ¬ Clash m' m) →
          (declaredFields f.contents).count (field m) = 1 ∧
          (∀ line ∈ bodyOf (head g n m) (pieces '\n' f.contents), ∀ name ∈ mentions line,
            name ∈ library ∨ name = paramName m ∨ (declaredFields f.contents).count name = 1) ∧
          (listsMade n f.contents).count (field m) = if m.multiplicity = .many then 1 else 0) := by
  obtain ⟨ts, s, -, -, hs⟩ := Graph.parse_eq_ok.1 h
  have hg := Graph.worded_of_parse h
  rw [Backend.files_emit] at hf
  obtain ⟨t, -, hf⟩ := List.mem_flatMap.1 hf
  obtain ⟨n, ms, hn, hms, hcollisions, rfl⟩ := Backend.mem_filesFor.1 hf
  have hmem : n ∈ g.types := List.mem_of_getElem? hn
  have hid : n.id = t := (Graph.wellFormed_of_ofSource hs).id_eq t.index n hn
  have hnodup := (Graph.collisions_eq_nil_iff_nodup hms .java).1 hcollisions
  have hwords : ∀ m ∈ ms, IsWord m.role := fun m hm => hg.isWord_role hms hm
  refine ⟨n, hmem, ms, hid ▸ hms, rfl, fun hc => ?_⟩
  have hclass : n.heritage.isInterface = false := by
    unfold Heritage.isInterface
    rw [hc]
    rfl
  have hcontents : (Backend.java.fileOf g n ms).contents = unlines (lines g n ms) := rfl
  rw [hcontents, declaredFields_lines hg hmem hclass hwords, listsMade_lines hg hmem hclass hwords]
  refine ⟨nodup_fields_iff hms, fun m hm hnone => ?_⟩
  obtain ⟨hdeclared, hlists⟩ := count_field hms hm hnone
  refine ⟨hdeclared, fun line hline name hname => ?_, hlists⟩
  rw [bodyOf_method hg hmem hclass hwords hnodup hm] at hline
  obtain ⟨inner, hinner, rfl⟩ := List.mem_map.1 hline
  have hallowed := mentionsOnly_body (hwords m hm) inner hinner name hname
  simp only [List.mem_cons] at hallowed
  rcases hallowed with rfl | rfl | hlibrary
  · exact .inr (.inr hdeclared)
  · exact .inr (.inl rfl)
  · exact .inl hlibrary

/-- A player's two roles have different fields. -/
theorem emit_fields_league : Graph.parse Source.leagueText = .ok .league ∧
    ∃ f ∈ (Backend.java.emit .league Graph.league.report).files, f.path = "java/Player.java" ∧
      (declaredFields f.contents).Nodup := by
  have hfile : "java/Player.java" ∈ (Backend.java.emit .league Graph.league.report).files.map GeneratedFile.path := by
    decide +kernel
  obtain ⟨f, hf, hpath⟩ := List.mem_map.1 hfile
  obtain ⟨n, hn, ms, hms, hfileOf, hfields⟩ := emit_fields Graph.parse_leagueText hf
  have hplayer : ∀ n ∈ Graph.league.types, Path.join "java" (fileName n) = "java/Player.java" →
      n.heritage.isClass = true ∧ n.id = ⟨1⟩ := by
    decide +kernel
  rw [hfileOf] at hpath
  obtain ⟨hc, hid⟩ := hplayer n hn hpath
  have hroles : (Graph.league.reportOn ⟨1⟩).methods?.map (fun ms => ms.all fun m => !keywords.contains m.role) =
      some true := by
    decide +kernel
  rw [← hid, hms, Option.map_some, Option.some.injEq, List.all_eq_true] at hroles
  refine ⟨Graph.parse_leagueText, f, hf, hfileOf ▸ hpath, (hfields hc).1.2 ?_⟩
  rintro ⟨m, hm, m', -, hkeyword, -⟩
  have hnone := hroles m hm
  rw [List.contains_iff_mem.2 hkeyword] at hnone
  cases hnone

end Java

/-- A class with a role that is named by a keyword, and one that is named as the keyword is to be a field. -/
def Source.pairText : String := "class Pair { 1 -> 0..1 Item int; 1 -> 0..1 Item int_; } class Item {}"

def Graph.pair : Graph := (Graph.parse Source.pairText).toOption.getD ⟨none, []⟩

theorem Graph.parse_pairText : Graph.parse Source.pairText = .ok .pair := by with_unfolding_all decide

/-- **One field is declared for both roles.** -/
theorem Java.fields_emit_not_nodup : Graph.parse Source.pairText = .ok .pair ∧
    ∃ f ∈ (Backend.java.emit .pair Graph.pair.report).files, declaredFields f.contents = ["int_", "int_"] ∧
      ¬ (declaredFields f.contents).Nodup := by
  have hmethods : (Graph.pair.reportOn ⟨0⟩).methods?.map
      (fun ms => ((Backend.java.collisions ms).isEmpty, (getters ms).map field)) = some (true, ["int_", "int_"]) := by
    decide +kernel
  obtain ⟨ms, hms, heq⟩ := Option.map_eq_some_iff.1 hmethods
  obtain ⟨hcollisions, hfields⟩ := Prod.mk.inj heq
  have hnode : (Graph.pair.node? ⟨0⟩).map (fun n => n.heritage.isInterface) = some false := by decide +kernel
  obtain ⟨n, hn, hclass⟩ := Option.map_eq_some_iff.1 hnode
  have hg := Graph.worded_of_parse Graph.parse_pairText
  have hmem : n ∈ Graph.pair.types := List.mem_of_getElem? hn
  have hdeclared : declaredFields (Backend.java.fileOf .pair n ms).contents = ["int_", "int_"] :=
    (declaredFields_lines hg hmem hclass fun m hm => hg.isWord_role hms hm).trans hfields
  refine ⟨Graph.parse_pairText, _, ?_, hdeclared, ?_⟩
  · rw [Backend.files_emit]
    refine List.mem_flatMap.2 ⟨⟨0⟩, by decide +kernel, ?_⟩
    exact Backend.mem_filesFor.2 ⟨n, ms, hn, hms, List.isEmpty_iff.1 hcollisions, rfl⟩
  · rw [hdeclared]
    decide

end Accessors
