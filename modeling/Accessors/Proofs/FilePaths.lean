import Accessors.Failure
import Accessors.Proofs.Emission
/-!
# Where files go

Each type that gets a file gets one at a path of its own name.  So the paths differ as far as the names of files do
(`Backend.nodup_paths_iff`): Java's are the names of the types, which no two types share, and Python's are these in
small letters with their words parted, which two types may share (`Backend.nodup_paths_emit`).
-/
namespace Accessors

namespace Path

theorem isAbsolute_append {base : String} (hbase : base ≠ "") (path : String) :
    isAbsolute (base ++ path) = isAbsolute base := by
  unfold isAbsolute
  have hne : base.toList ≠ [] := fun h => hbase (String.toList_eq_nil_iff.1 h)
  rw [String.toList_append, List.head?_append_of_ne_nil _ hne]

/-- A path that does not start at the root is put behind the base, with a slash between them if need be. -/
theorem exists_join_eq (base : String) : ∃ lead, (lead = "" ∨ isAbsolute lead = isAbsolute base) ∧
    ∀ path, isAbsolute path = false → join base path = lead ++ path := by
  by_cases hsep : base.isEmpty || base.toList.getLast? = some '/'
  · refine ⟨base, .inr rfl, fun path hpath => ?_⟩
    unfold join
    rw [hpath, if_neg (by decide), if_pos hsep]
  · have hbase : base ≠ "" := fun h => hsep (by rw [h]; rfl)
    refine ⟨base ++ "/", .inr (isAbsolute_append hbase "/"), fun path hpath => ?_⟩
    unfold join
    rw [hpath, if_neg (by decide), if_neg hsep]

/-- **Different ways from a base lead to different places**, unless the base is absolute. -/
theorem join_injective {base : String} (hbase : isAbsolute base = false) : Function.Injective (join base) := by
  obtain ⟨lead, hlead, hjoin⟩ := exists_join_eq base
  have habs : ∀ path, isAbsolute path = true → join base path = path := fun path hpath => if_pos hpath
  have hrel : ∀ path, isAbsolute (join base path) = isAbsolute path := by
    intro path
    cases hpath : isAbsolute path with
    | true => rw [habs path hpath, hpath]
    | false =>
      rw [hjoin path hpath]
      by_cases hnil : lead = ""
      · rw [hnil, String.empty_append, hpath]
      · rw [isAbsolute_append hnil, hlead.resolve_left hnil, hbase]
  intro p q h
  have hpq : isAbsolute p = isAbsolute q := by rw [← hrel p, ← hrel q, h]
  cases hp : isAbsolute p with
  | true => rwa [habs p hp, habs q (hpq ▸ hp)] at h
  | false =>
    rw [hjoin p hp, hjoin q (hpq ▸ hp)] at h
    exact (String.append_right_inj lead).1 h

end Path

namespace Backend

variable {g : Graph} {b : Backend}

theorem isAbsolute_directory (b : Backend) : Path.isAbsolute b.directory = false := by
  cases b <;> decide

/-- The path of the file for a type. -/
def pathOf (b : Backend) (n : TypeNode) : String := Path.join b.directory (b.fileName n)

theorem pathOf_eq_iff {n m : TypeNode} : b.pathOf n = b.pathOf m ↔ b.fileName n = b.fileName m :=
  (Path.join_injective (isAbsolute_directory b)).eq_iff

theorem paths_filesFor (hg : g.WellFormed) {n : TypeNode} (hn : n ∈ g.types) :
    (b.filesFor g n.id).map GeneratedFile.path = if b.filesFor g n.id ≠ [] then [b.pathOf n] else [] := by
  rw [filesFor_of_mem_types hg hn]
  cases (g.reportOn n.id).methods? with
  | none => rfl
  | some ms =>
    rw [Option.elim_some]
    split
    · rw [if_pos (List.cons_ne_nil _ _)]; rfl
    · rfl

/-- **The paths of an emission** are those of the types that get a file. -/
theorem paths_emit (hg : g.WellFormed) (b : Backend) : (b.emit g g.report).files.map GeneratedFile.path =
    (g.types.filter fun n => b.filesFor g n.id ≠ []).map b.pathOf := by
  rw [files_emit, Graph.ids, List.flatMap_map, List.map_flatMap, List.flatMap_congr fun n => paths_filesFor hg]
  induction g.types with
  | nil => rfl
  | cons n ns ih =>
    rw [List.flatMap_cons, ih, List.filter_cons]
    by_cases hn : b.filesFor g n.id ≠ []
    · rw [if_pos hn, if_pos (decide_eq_true hn), List.map_cons, List.singleton_append]
    · rw [if_neg hn, if_neg (fun h => hn (of_decide_eq_true h)), List.nil_append]

/-- **The paths of an emission differ** just if no two types that get a file have files of one name. -/
theorem nodup_paths_iff {s : Source} (h : Graph.ofSource s = .ok g) (b : Backend) :
    ((b.emit g g.report).files.map GeneratedFile.path).Nodup ↔ ∀ n ∈ g.types, ∀ m ∈ g.types,
      b.filesFor g n.id ≠ [] → b.filesFor g m.id ≠ [] → b.fileName n = b.fileName m → n = m := by
  have htypes : g.types.Nodup := List.Nodup.of_map _ (Graph.nodup_names_of_ofSource h)
  rw [paths_emit (Graph.wellFormed_of_ofSource h), List.nodup_map_iff_inj_on (htypes.filter _)]
  simp only [List.mem_filter, decide_eq_true_eq, pathOf_eq_iff]
  constructor
  · exact fun hinj n hn m hm hnf hmf hname => hinj n ⟨hn, hnf⟩ m ⟨hm, hmf⟩ hname
  · exact fun hinj n hn m hm hname => hinj n hn.1 m hm.1 hn.2 hm.2 hname

/-- **Java files never share a path.**  Python files do just if the names of two types that get one are the same in small
letters with their words parted. -/
theorem nodup_paths_emit {s : Source} (h : Graph.ofSource s = .ok g) :
    ((java.emit g g.report).files.map GeneratedFile.path).Nodup ∧
    (((python.emit g g.report).files.map GeneratedFile.path).Nodup ↔ ∀ n ∈ g.types, ∀ m ∈ g.types,
      python.filesFor g n.id ≠ [] → python.filesFor g m.id ≠ [] → Name.snake n.name = Name.snake m.name → n = m) := by
  constructor
  · refine (nodup_paths_iff h java).2 (fun n hn m hm _ _ hname => ?_)
    exact List.inj_on_of_nodup_map (Graph.nodup_names_of_ofSource h) hn hm ((String.append_left_inj _).1 hname)
  · have hname : ∀ n m : TypeNode, python.fileName n = python.fileName m ↔ Name.snake n.name = Name.snake m.name :=
      fun n m => String.append_left_inj _
    rw [nodup_paths_iff h python]
    simp only [hname]

/-- Types whose names differ in more than the case of their letters. -/
theorem nodup_paths_emit_enrolment : Graph.ofSource .enrolment = .ok .enrolment ∧
    ((python.emit .enrolment Graph.enrolment.report).files.map GeneratedFile.path).Nodup :=
  ⟨Graph.ofSource_enrolment, (nodup_paths_emit Graph.ofSource_enrolment).2.2 (by decide +kernel)⟩

/-- Two classes whose names differ in the case of a letter, and whose Python files go to one path. -/
theorem paths_emit_not_nodup : ∃ g, Graph.parse "class AB {} class Ab {}" = .ok g ∧
    ¬ ((python.emit g g.report).files.map GeneratedFile.path).Nodup := by
  have hpaths : (Graph.parse "class AB {} class Ab {}").toOption.map
      (fun g => (python.emit g g.report).files.map GeneratedFile.path) = some ["py/ab.py", "py/ab.py"] := by
    decide +kernel
  obtain ⟨g, hg, hsame⟩ := Option.map_eq_some_iff.1 hpaths
  refine ⟨g, ?_, by rw [hsame]; decide⟩
  cases hparse : Graph.parse "class AB {} class Ab {}" with
  | error f => rw [hparse] at hg; cases hg
  | ok g' => rw [hparse] at hg; cases hg; rfl

end Backend
end Accessors
