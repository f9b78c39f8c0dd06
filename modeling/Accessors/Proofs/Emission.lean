import Accessors.Proofs.Conformance
/-!
# Which types get a file

The first letter of a method's name tells its kind (`Backend.kind_eq_of_methodName_eq`), and a type has no two methods
of one role and one kind.  So two of its methods share a name only if their roles differ, which the scan for collisions
reports: a type that did not fail gets a file just if its methods have names of their own
(`Backend.emit_accounts_for_types`).
-/
namespace Accessors

/-! ## Names tell kinds apart -/

namespace Method.Kind

/-- The first letter of the names of methods of this kind. -/
def initial : Kind → Char
  | get => 'g'
  | set => 's'
  | add => 'a'
  | remove => 'r'

theorem initial_injective : Function.Injective initial := by
  intro k l h
  cases k <;> cases l <;> first | rfl | exact absurd h (by decide)

theorem head?_text (k : Kind) : k.text.toList.head? = some k.initial := by
  cases k <;> rfl

end Method.Kind

namespace Backend

theorem head?_methodName (b : Backend) (m : Method) : (b.methodName m).toList.head? = some m.kind.initial := by
  cases b with
  | python =>
    unfold methodName Python.methodName
    rw [String.toList_append, String.toList_append, List.append_assoc, List.head?_append, Method.Kind.head?_text]
    rfl
  | java =>
    unfold methodName Java.methodName
    rw [String.toList_append, List.head?_append, Method.Kind.head?_text]
    rfl

/-- **Methods of one name are of one kind.** -/
theorem kind_eq_of_methodName_eq {b : Backend} {m n : Method} (h : b.methodName m = b.methodName n) :
    m.kind = n.kind := by
  have hinitial : some m.kind.initial = some n.kind.initial := by
    rw [← head?_methodName b m, ← head?_methodName b n, h]
  exact Method.Kind.initial_injective (Option.some.inj hinitial)

end Backend

/-! ## The methods of one type -/

namespace Graph

variable {g : Graph} {o : TypeId} {ms : List Method}

theorem nodup_keys_of_methods? (h : (g.reportOn o).methods? = some ms) : (ms.map Method.key).Nodup := by
  rw [methods?_reportOn (not_disputed_of_methods? h), Option.some.injEq] at h
  rw [← h]
  exact nodup_keys_blocks o _ (g.resolve o).nodup_roleOrder

/-- **Two methods of a type that share name and role are one.** -/
theorem eq_of_methodName_eq (h : (g.reportOn o).methods? = some ms) {b : Backend} {m n : Method} (hm : m ∈ ms)
    (hn : n ∈ ms) (hname : b.methodName m = b.methodName n) (hrole : m.role = n.role) : m = n := by
  refine List.inj_on_of_nodup_map (nodup_keys_of_methods? h) hm hn ?_
  unfold Method.key
  rw [owner_of_mem_methods? h hm, owner_of_mem_methods? h hn, hrole, Backend.kind_eq_of_methodName_eq hname]

/-- **Each role has a getter.** -/
theorem exists_getter (h : (g.reportOn o).methods? = some ms) {m : Method} (hm : m ∈ ms) :
    ∃ a ∈ ms, a.kind = .get ∧ a.role = m.role ∧ a.multiplicity = m.multiplicity := by
  obtain ⟨d, hd, hsig⟩ := (mem_signatures_reportOn h).1 (List.mem_map_of_mem hm)
  obtain ⟨kind, -, hsig⟩ := List.mem_map.1 hsig
  have hget : (⟨o, .get, d.role.name, d.role.target, d.role.multiplicity,
      .of .get d.role.multiplicity d.role.target⟩ : Method.Signature) ∈ ms.map Method.signature :=
    (mem_signatures_reportOn h).2 ⟨d, hd, List.mem_map.2 ⟨.get, Method.Kind.get_mem_needed _, rfl⟩⟩
  obtain ⟨a, ha, hsig'⟩ := List.mem_map.1 hget
  refine ⟨a, ha, congrArg Method.Signature.kind hsig', ?_, ?_⟩
  · exact (congrArg Method.Signature.role hsig').trans (congrArg Method.Signature.role hsig)
  · exact (congrArg Method.Signature.multiplicity hsig').trans (congrArg Method.Signature.multiplicity hsig)

/-- **No role has two getters.** -/
theorem eq_of_getters (h : (g.reportOn o).methods? = some ms) {a b : Method} (ha : a ∈ ms) (hb : b ∈ ms)
    (hka : a.kind = .get) (hkb : b.kind = .get) (hrole : a.role = b.role) : a = b := by
  refine List.inj_on_of_nodup_map (nodup_keys_of_methods? h) ha hb ?_
  unfold Method.key
  rw [owner_of_mem_methods? h ha, owner_of_mem_methods? h hb, hrole, hka, hkb]

/-- **No collision is reported** just if all methods of the type have names of their own. -/
theorem collisions_eq_nil_iff_nodup (h : (g.reportOn o).methods? = some ms) (b : Backend) :
    b.collisions ms = [] ↔ (ms.map b.methodName).Nodup := by
  rw [Backend.collisions_eq_nil_iff, List.nodup_map_iff_inj_on (List.Nodup.of_map _ (nodup_keys_of_methods? h))]
  constructor
  · exact fun hrole m hm n hn hname => eq_of_methodName_eq h hm hn hname (hrole m hm n hn hname)
  · exact fun hinj m hm n hn hname => congrArg Method.role (hinj m hm n hn hname)

theorem node?_of_mem_types (hg : g.WellFormed) {n : TypeNode} (hn : n ∈ g.types) : g.node? n.id = some n := by
  obtain ⟨i, hi⟩ := List.mem_iff_getElem?.1 hn
  unfold node?
  rw [hg.id_eq i n hi]
  exact hi

end Graph

/-! ## The emission -/

namespace Backend

variable {g : Graph} {b : Backend} {n : TypeNode}

/-- What a type contributes, given its methods unless it failed. -/
theorem emitReport_reportOn (hg : g.WellFormed) (hn : n ∈ g.types) :
    b.emitReport g (g.reportOn n.id) = (g.reportOn n.id).methods?.elim .empty (b.emitType g n) := by
  have howner : (g.reportOn n.id).owner = n.id := rfl
  unfold emitReport
  rw [howner, Graph.node?_of_mem_types hg hn]
  cases (g.reportOn n.id).methods? <;> rfl

theorem diagnostics_emitType (b : Backend) (g : Graph) (n : TypeNode) (ms : List Method) :
    (b.emitType g n ms).diagnostics = (b.collisions ms).map (Collision.diagnostic b n) := by
  unfold emitType
  split
  · rename_i h
    rw [h]
    rfl
  · rfl

theorem files_emitType (b : Backend) (g : Graph) (n : TypeNode) (ms : List Method) :
    (b.emitType g n ms).files = if b.collisions ms = [] then [b.fileOf g n ms] else [] := by
  unfold emitType
  split
  · rename_i h
    rw [if_pos h]
    rfl
  · rename_i h
    rw [if_neg h]

theorem filesFor_of_mem_types (hg : g.WellFormed) (hn : n ∈ g.types) :
    b.filesFor g n.id = (g.reportOn n.id).methods?.elim [] fun ms =>
      if (ms.map b.methodName).Nodup then [b.fileOf g n ms] else [] := by
  unfold filesFor
  rw [emitReport_reportOn hg hn]
  cases hms : (g.reportOn n.id).methods? with
  | none => rfl
  | some ms =>
    rw [Option.elim_some, Option.elim_some, files_emitType]
    simp only [Graph.collisions_eq_nil_iff_nodup hms]

/-- **Every type is accounted for.**  One that did not fail has one file, if its methods have names of their own; if
not, it has none, and each name that methods of different roles claim is reported once, with the first role that claims
it and the first other one.  A type that failed has neither. -/
theorem emit_accounts_for_types {s : Source} {g : Graph} (h : Graph.ofSource s = .ok g) (b : Backend) :
    (b.emit g g.report).files = (g.types.flatMap fun n => (g.reportOn n.id).methods?.elim [] fun ms =>
      if (ms.map b.methodName).Nodup then [b.fileOf g n ms] else []) ∧
    (b.emit g g.report).diagnostics = (g.types.flatMap fun n => (g.reportOn n.id).methods?.elim [] fun ms =>
      (b.collisions ms).map fun c =>
        ⟨n.name, .nameCollision b.name c.name c.first.role c.second.role, some c.second.span⟩) ∧
    ∀ n ∈ g.types, ∀ ms, (g.reportOn n.id).methods? = some ms →
      (b.collisions ms = [] ↔ (ms.map b.methodName).Nodup) ∧
      ((b.collisions ms).map Collision.name).Nodup ∧
      (∀ name, name ∈ (b.collisions ms).map Collision.name ↔
        ∃ m ∈ ms, ∃ m' ∈ ms, b.methodName m = name ∧ b.methodName m' = name ∧ m.role ≠ m'.role) ∧
      ∀ c ∈ b.collisions ms, ms.find? (fun m => b.methodName m = c.name) = some c.first ∧
        ms.find? (fun m => b.methodName m = c.name ∧ m.role ≠ c.first.role) = some c.second := by
  have hg := Graph.wellFormed_of_ofSource h
  refine ⟨?_, ?_, fun n _ ms hms => ⟨Graph.collisions_eq_nil_iff_nodup hms b, Collision.Scan.nodup_names b ms,
    fun _ => Collision.Scan.mem_names, fun _ => Collision.Scan.find?_of_mem_collisions⟩⟩
  · rw [files_emit, Graph.ids, List.flatMap_map]
    exact List.flatMap_congr (fun n hn => filesFor_of_mem_types hg hn)
  · rw [diagnostics_emit, Graph.ids, List.flatMap_map]
    refine List.flatMap_congr (fun n hn => ?_)
    rw [emitReport_reportOn hg hn]
    cases (g.reportOn n.id).methods? with
    | none => rfl
    | some ms => exact diagnostics_emitType b g n ms

end Backend

/-! ## An example -/

/-- A class of which two roles ask for methods of one name. -/
def Source.school : Source :=
  (Source.empty.withDefinition
      (((Definition.draft .ofClass "School").withRole "course" "Course" .any).withRole "courses" "Course" .any)
    |>.withDefinition (Definition.draft .ofClass "Course"))

def Graph.school : Graph := (Graph.ofSource .school).toOption.getD ⟨none, []⟩

theorem Graph.ofSource_school : Graph.ofSource .school = .ok .school := rfl

/-- The getters of the two roles differ in name, and the methods that add and remove a partner do not. -/
theorem Backend.emit_accounts_for_types_school : Graph.ofSource .school = .ok .school ∧
    (python.emit .school Graph.school.report).files.map GeneratedFile.path = ["py/course.py"] ∧
    (python.emit .school Graph.school.report).diagnostics.map Diagnostic.cause =
      [.nameCollision "python" "add_course" "course" "courses",
        .nameCollision "python" "remove_course" "course" "courses"] ∧
    (java.emit .school Graph.school.report).files.map GeneratedFile.path = ["java/Course.java"] ∧
    (java.emit .school Graph.school.report).diagnostics.map Diagnostic.cause =
      [.nameCollision "java" "addCourse" "course" "courses",
        .nameCollision "java" "removeCourse" "course" "courses"] := by
  obtain ⟨hpython, hpython', -⟩ := emit_accounts_for_types Graph.ofSource_school python
  obtain ⟨hjava, hjava', -⟩ := emit_accounts_for_types Graph.ofSource_school java
  rw [hpython, hpython', hjava, hjava']
  refine ⟨Graph.ofSource_school, ?_⟩
  decide +kernel

end Accessors
