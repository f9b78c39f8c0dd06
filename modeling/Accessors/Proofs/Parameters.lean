import Accessors.Proofs.JavaFields
/-!
# Parameters

A parameter is named for what its method deals with: the role, or a single partner of it.  In Java an `a` ahead of the
capital keeps it from being the field of the role or a keyword, whatever the role is (`Java.body_captures_nothing`).  In
Python a keyword gets an underscore, but `self`, the first parameter of every method, is not looked for: the setter of a
role `self` takes two parameters of one name (`Python.signature_parameters`).
-/
namespace Accessors
namespace Name

variable {name : String}

theorem toList_capitalized (h : IsWord name) : (capitalized name).toList = name.toList.modifyHead Char.toUpper := by
  unfold capitalized
  unfold IsWord at h
  split
  · rename_i heq
    rw [heq]
    rfl
  · rename_i c rest heq
    rw [heq] at h ⊢
    rw [String.toList_ofList, LetterCase.toUpper, if_pos (LetterCase.lt_of_isNameChar (h c List.mem_cons_self))]
    rfl

/-- **No small letter is a capital one.** -/
theorem isLower_toUpper {c : Char} (hc : Token.isNameChar c = true) : c.toUpper.isLower = false :=
  LetterCase.of_isNameChar (p := fun c => c.toUpper.isLower = false) (by decide) hc

/-- A capital first letter puts no `s` at the end. -/
theorem getLast?_modifyHead {cs : List Char} (hcs : ∀ c ∈ cs, Token.isNameChar c = true)
    (hlast : cs.getLast?.any (· ≠ 's') = true) : (cs.modifyHead Char.toUpper).getLast?.any (· ≠ 's') = true := by
  match cs with
  | [] => cases hlast
  | [c] =>
    apply decide_eq_true
    intro (hs : c.toUpper = 's')
    have hcapital := isLower_toUpper (hcs c List.mem_cons_self)
    rw [hs] at hcapital
    cases hcapital
  | c :: d :: rest =>
    rw [List.getLast?_cons_cons] at hlast
    rwa [List.modifyHead_cons, List.getLast?_cons_cons]

end Name

/-! ## Java -/

namespace Java

section Method

variable {m : Method} (hm : IsWord m.role)

include hm

theorem toList_paramName : (paramName m).toList =
    'a' :: (if m.kind.isPerPartner then Name.singular m.role else m.role).toList.modifyHead Char.toUpper := by
  unfold paramName subject
  rw [String.toList_append, Name.toList_capitalized (Name.isWord_partner hm)]
  rfl

/-- **No parameter is a keyword** or a class of the library: behind the `a` there is no small letter. -/
theorem paramName_notMem_library : paramName m ∉ library := by
  have hlibrary : ∀ word ∈ library, word.toList.head? = some 'a' → word.toList[1]?.any Char.isLower = true := by
    decide
  have hparam := toList_paramName hm
  have hchars := Name.isWord_partner hm
  unfold IsWord at hchars
  intro hmem
  have hsmall := hlibrary _ hmem (by rw [hparam]; rfl)
  rw [hparam] at hsmall
  cases heq : (if m.kind.isPerPartner then Name.singular m.role else m.role).toList with
  | nil =>
    rw [heq] at hsmall
    cases hsmall
  | cons c rest =>
    rw [heq] at hsmall hchars
    have hcapital := Name.isLower_toUpper (hchars c List.mem_cons_self)
    exact Bool.eq_false_iff.1 hcapital hsmall

/-- A word with an `a` and a capital ahead of it is longer, and with its `s` taken away ends in another letter. -/
theorem paramName_ne_role : paramName m ≠ m.role := by
  intro hsame
  have hchars := toList_paramName hm
  rw [hsame] at hchars
  -- a role that is not in the plural
  have hkept : ∀ cs : List Char, cs ≠ 'a' :: cs.modifyHead Char.toUpper := by
    intro cs heq
    have hlength := congrArg List.length heq
    rw [List.length_cons, List.length_modifyHead] at hlength
    omega
  split at hchars
  · rw [Name.toList_singular] at hchars
    rcases Name.singularChars_cases m.role.toList with hcase | ⟨stem, -, hrole, hcase⟩ | ⟨stem, hrole, hlast, hcase⟩
    · rw [hcase] at hchars
      exact hkept _ hchars
    · have hlength := congrArg List.length hchars
      rw [hcase, hrole, List.length_cons, List.length_modifyHead, List.length_append, List.length_append] at hlength
      simp only [List.length_cons, List.length_nil] at hlength
      omega
    · have hstem : ∀ c ∈ stem, Token.isNameChar c = true := fun c hc => hm c (hrole ▸ List.mem_append_left _ hc)
      have hcapital := Name.getLast?_modifyHead hstem hlast
      have hend := congrArg List.getLast? hchars
      rw [hcase, hrole, List.getLast?_concat, List.getLast?_cons] at hend
      obtain ⟨c, hc, hne⟩ := (Option.any_eq_true _ _).1 hcapital
      rw [hc, Option.getD_some, Option.some.injEq] at hend
      rw [← hend] at hne
      cases hne
  · exact hkept _ hchars

/-- **No parameter is the field** of its role. -/
theorem paramName_ne_field : paramName m ≠ field m := by
  have hkeywords : ∀ word ∈ keywords, ∀ partner ∈ [word, Name.singular word],
      "a" ++ Name.capitalized partner ≠ word ++ "_" := by
    decide
  unfold field
  split
  · rename_i hkeyword
    refine hkeywords _ hkeyword _ ?_
    split <;> simp
  · exact paramName_ne_role hm

/-- A line of a body mentions the parameter once at most. -/
theorem Handles.count_paramName_le {line : String} (h : Handles m line) : (mentions line).count (paramName m) ≤ 1 := by
  have hlibrary := paramName_notMem_library hm
  have hnone : ∀ {part : String}, MentionsOnly (field m :: library) part → (mentions part).count (paramName m) = 0 := by
    intro part hpart
    apply List.count_eq_zero.2
    intro hmem
    rcases List.mem_cons.1 (hpart _ hmem) with hfield | hname
    · exact paramName_ne_field hm hfield
    · exact hlibrary hname
  cases h with
  | alone h => exact (hnone h).trans_le (Nat.zero_le 1)
  | passing before after hlast hhead hbefore hafter hline =>
    have hparam : mentions (paramName m ++ "") = if paramName m = "" then [] else [paramName m] :=
      mentions_dotted (isWord_paramName hm) rfl rfl
    rw [String.append_empty] at hparam
    rw [hline, mentions_append_of_head hhead, mentions_append hlast, hparam, List.count_append, List.count_append,
      hnone hbefore, hnone (hafter.mono (List.subset_cons_self _ _)), Nat.zero_add, Nat.add_zero]
    split
    · exact Nat.zero_le 1
    · exact List.count_le_length

end Method

/-- **The body of a method captures no name.**  Whatever word names the role, the parameter is not its field, neither is
a keyword, and no line mentions the parameter twice. -/
theorem body_captures_nothing {m : Method} (hm : IsWord m.role) : paramName m ≠ field m ∧ paramName m ∉ keywords ∧
    field m ∉ keywords ∧ ∀ line ∈ body m, (mentions line).count (paramName m) ≤ 1 := by
  refine ⟨paramName_ne_field hm, fun hmem => ?_, ?_, fun line hline => (handles_body hm line hline).count_paramName_le hm⟩
  · exact paramName_notMem_library hm (List.mem_cons_of_mem _ hmem)
  · unfold field
    split
    · rename_i hkeyword
      exact append_notMem_keywords _ hkeyword
    · assumption

/-- A role `as` has partners `a`, whose parameter is as long as the field. -/
theorem body_captures_nothing_as : ∃ m : Method, IsWord m.role ∧ field m = "as" ∧ paramName m = "aA" ∧
    paramName m ≠ field m ∧ paramName m ∉ keywords ∧ field m ∉ keywords ∧
    ∀ line ∈ body m, (mentions line).count (paramName m) ≤ 1 := by
  have hword : IsWord "as" := by decide
  exact ⟨⟨⟨0⟩, .add, "as", ⟨0⟩, .many, .of .add .many ⟨0⟩, .empty, .zero⟩, hword, by decide, by decide,
    body_captures_nothing hword⟩

end Java

/-! ## Python -/

namespace Python

/-- The reserved words of the language: those in small letters, and three others. -/
def reserved : List String := "False" :: "None" :: "True" :: keywords

/-- What is in the brackets of a line, between commas. -/
def parameters (line : String) : List String :=
  ((((line.toList.dropWhile (· ≠ '(')).drop 1).takeWhile (· ≠ ')')).splitOnP (· = ',')).map fun piece =>
    String.ofList (piece.dropWhile (· = ' '))

def parametersIn? (line : String) : Option (List String) := (definedIn? line).map fun _ => parameters line

theorem parametersIn?_eq_none {line : String} (h : definedIn? line = none) : parametersIn? line = none := by
  unfold parametersIn?
  rw [h]
  rfl

theorem append_notMem_keywords : ∀ word ∈ keywords, word ++ "_" ∉ keywords := by decide

theorem parameters_brackets {before inside rest : String} (hbefore : Lacks ['('] before) (hinside : Lacks [')'] inside) :
    parameters (before ++ "(" ++ inside ++ ")" ++ rest) =
      (inside.toList.splitOnP (· = ',')).map fun piece => String.ofList (piece.dropWhile (· = ' ')) := by
  have hchars : (before ++ "(" ++ inside ++ ")" ++ rest).toList =
      before.toList ++ '(' :: (inside.toList ++ ')' :: rest.toList) := by
    simp [String.toList_append]
  unfold parameters
  rw [hchars, dropWhile_ne_append_cons (hbefore '(' List.mem_cons_self), List.drop_one, List.tail_cons,
    takeWhile_ne_append_cons (hinside ')' List.mem_cons_self)]

theorem paramName_eq_self_iff {m : Method} : paramName m = "self" ↔ subject m = "self" := by
  unfold paramName
  split
  · rename_i hkeyword
    have hword : ∀ word ∈ keywords, word ++ "_" ≠ "self" ∧ word ≠ "self" := by decide
    exact iff_of_false (hword _ hkeyword).1 (hword _ hkeyword).2
  · rfl

section Method

variable {m : Method} (hm : IsWord m.role)

include hm

/-- **No parameter is a reserved word**: it is in small letters, and a keyword gets an underscore. -/
theorem paramName_notMem_reserved : paramName m ∉ reserved := by
  have hkeyword : paramName m ∉ keywords := by
    unfold paramName
    split
    · rename_i hmem
      exact append_notMem_keywords _ hmem
    · assumption
  have hsmall : (paramName m).toList.any Char.isUpper = false := by
    have hsubject : ∀ c ∈ (subject m).toList, ¬ c.isUpper = true := by
      intro c hc
      have hascii : ∀ d ∈ (if m.kind.isPerPartner then Name.singular m.role else m.role).toList, d.toNat < 128 :=
        fun d hd => LetterCase.lt_of_isNameChar (Name.isWord_partner hm d hd)
      exact Bool.eq_false_iff.1 (Name.isUpper_of_mem_snake hascii hc)
    have hany : (subject m).toList.any Char.isUpper = false := List.any_eq_false.2 hsubject
    unfold paramName
    split
    · rw [String.toList_append, List.any_append, hany]
      rfl
    · exact hany
  intro hmem
  unfold reserved at hmem
  simp only [List.mem_cons] at hmem
  rcases hmem with heq | heq | heq | hmem
  · rw [heq] at hsmall
    cases hsmall
  · rw [heq] at hsmall
    cases hsmall
  · rw [heq] at hsmall
    cases hsmall
  · exact hkeyword hmem

theorem parameters_signature : parameters (signature m) =
    if m.shape.params.isEmpty then ["self"] else ["self", paramName m] := by
  have hbefore : Lacks ['('] ("    def " ++ methodName m) :=
    .append (by decide) ((isWord_methodName hm).lacks (by decide))
  have hparam := isWord_paramName hm
  unfold signature
  split
  · have hself : "    def " ++ methodName m ++ "(self):" = "    def " ++ methodName m ++ "(" ++ "self" ++ ")" ++ ":" := by
      simp only [String.append_assoc]
      rfl
    have hinside : Lacks [')'] "self" := by decide
    rw [hself, parameters_brackets hbefore hinside]
    decide
  · have hself : "    def " ++ methodName m ++ "(self, " ++ paramName m ++ "):" =
        "    def " ++ methodName m ++ "(" ++ ("self, " ++ paramName m) ++ ")" ++ ":" := by
      simp only [String.append_assoc]
      rfl
    have hinside : Lacks [')'] ("self, " ++ paramName m) := .append (by decide) (hparam.lacks (by decide))
    have hchars : ("self, " ++ paramName m).toList = "self".toList ++ ',' :: (' ' :: (paramName m).toList) := by
      simp [String.toList_append]
    have hcomma : ∀ c ∈ ' ' :: (paramName m).toList, decide (c = ',') = false := by
      intro c hc
      apply decide_eq_false
      rintro rfl
      rcases List.mem_cons.1 hc with hc | hc
      · cases hc
      · cases hparam ',' hc
    have hblank : (paramName m).toList.dropWhile (· = ' ') = (paramName m).toList := by
      refine List.dropWhile_eq_self_iff.2 fun hpos hc => ?_
      have hname := hparam _ (List.getElem_mem hpos)
      rw [of_decide_eq_true hc] at hname
      cases hname
    have hfirst : ∀ c ∈ "self".toList, decide (c = ',') = false := by
      intro c hc
      have hnone : "self".toList.any (· = ',') = false := by decide
      exact Bool.eq_false_iff.2 (List.any_eq_false.1 hnone c hc)
    rw [hself, parameters_brackets hbefore hinside, hchars,
      List.splitOnP_append_cons_of_forall_mem hfirst ',' (by decide), List.splitOnP_eq_singleton hcomma,
      List.map_cons, List.map_singleton, List.dropWhile_cons_of_pos (by decide), hblank, String.ofList_toList]
    rfl

theorem filterMap_parametersIn? : ∀ block ∈ [concreteMethod m, abstractMethod m],
    block.filterMap parametersIn? = [if m.shape.params.isEmpty then ["self"] else ["self", paramName m]] := by
  have hsignature : parametersIn? (signature m) =
      some (if m.shape.params.isEmpty then ["self"] else ["self", paramName m]) := by
    unfold parametersIn?
    rw [(reads_signature hm).definedIn?_eq, Option.map_some, parameters_signature hm]
  have hbody : ((body m).map ("        " ++ ·)).filterMap parametersIn? = [] := by
    apply List.filterMap_eq_nil_iff.2
    exact List.forall_mem_map.2 fun line hline => parametersIn?_eq_none (reads_body hm line hline).definedIn?_eq
  intro block hblock
  simp only [List.mem_cons, List.not_mem_nil, or_false] at hblock
  rcases hblock with rfl | rfl
  · unfold concreteMethod
    rw [List.filterMap_cons_some hsignature, hbody]
  · have hmark : definedIn? "    @abstractmethod" = none := by simp [definedIn?]
    have hpass : definedIn? "        pass" = none := by simp [definedIn?]
    unfold abstractMethod
    rw [List.filterMap_cons_none (parametersIn?_eq_none hmark), List.filterMap_cons_some hsignature,
      List.filterMap_cons_none (parametersIn?_eq_none hpass), List.filterMap_nil]

end Method

/-- **The parameters of a method** are not reserved words, and they are distinct just if it is a getter or what it deals
with is not named `self`. -/
theorem signature_parameters {text : String} {g : Graph} (h : Graph.parse text = .ok g) {r : TypeReport}
    (hr : r ∈ g.report.types) {m : Method} (hm : m ∈ r.methods) : ∀ block ∈ [concreteMethod m, abstractMethod m],
      ∃ params, block.filterMap parametersIn? = [params] ∧ (∀ name ∈ params, name ∉ reserved) ∧
        (params.Nodup ↔ m.kind = .get ∨ subject m ≠ "self") := by
  obtain ⟨o, -, rfl⟩ := List.mem_map.1 hr
  obtain ⟨ms, hms, hm⟩ : ∃ ms, (g.reportOn o).methods? = some ms ∧ m ∈ ms := by
    unfold TypeReport.methods at hm
    cases hms : (g.reportOn o).methods? with
    | none =>
      rw [hms] at hm
      cases hm
    | some ms =>
      rw [hms] at hm
      exact ⟨ms, rfl, hm⟩
  have hword : IsWord m.role := (Graph.worded_of_parse h).isWord_role hms hm
  have hself : "self" ∉ reserved := by decide
  have hparam := paramName_notMem_reserved hword
  intro block hblock
  refine ⟨_, filterMap_parametersIn? hword block hblock, ?_, ?_⟩
  · split
    · exact List.forall_mem_singleton.2 hself
    · exact List.forall_mem_cons.2 ⟨hself, List.forall_mem_singleton.2 hparam⟩
  · have hempty : m.shape.params.isEmpty = decide (m.kind = .get) := by
      rw [Graph.shape_of_mem_methods? hms hm]
      cases m.kind with
      | get => cases m.multiplicity <;> rfl
      | set | add | remove => rfl
    have hne : subject m ≠ "self" ↔ paramName m ≠ "self" := paramName_eq_self_iff.not.symm
    rw [hempty, hne]
    by_cases hget : m.kind = .get
    · simp [hget]
    · simp [hget, eq_comm]

/-- A member's team is set by its name. -/
theorem signature_parameters_league : Graph.parse Source.leagueText = .ok .league ∧
    ∃ r ∈ Graph.league.report.types, ∃ m ∈ r.methods, signature m = "    def set_team(self, team):" ∧
      ∃ params, (concreteMethod m).filterMap parametersIn? = [params] ∧ (∀ name ∈ params, name ∉ reserved) ∧
        params.Nodup := by
  have hmethod : ∃ r ∈ Graph.league.report.types, ∃ m ∈ r.methods,
      signature m = "    def set_team(self, team):" ∧ subject m ≠ "self" := by
    decide +kernel
  obtain ⟨r, hr, m, hm, hsignature, hsubject⟩ := hmethod
  obtain ⟨params, hparams, hreserved, hnodup⟩ :=
    signature_parameters Graph.parse_leagueText hr hm (concreteMethod m) List.mem_cons_self
  exact ⟨Graph.parse_leagueText, r, hr, m, hm, hsignature, params, hparams, hreserved, hnodup.2 (.inr hsubject)⟩

end Python

/-- A class with a role that is named as the first parameter is. -/
def Source.mirrorText : String := "class Mirror { 1 -> 0..1 Mirror self; }"

def Graph.mirror : Graph := (Graph.parse Source.mirrorText).toOption.getD ⟨none, []⟩

theorem Graph.parse_mirrorText : Graph.parse Source.mirrorText = .ok .mirror := by with_unfolding_all decide

/-- **A setter takes two parameters of one name.** -/
theorem Python.parameters_not_nodup : Graph.parse Source.mirrorText = .ok .mirror ∧
    ∃ r ∈ Graph.mirror.report.types, ∃ m ∈ r.methods,
      (concreteMethod m).filterMap parametersIn? = [["self", "self"]] ∧ ¬ ["self", "self"].Nodup := by
  refine ⟨Graph.parse_mirrorText, ?_⟩
  with_unfolding_all decide

end Accessors
