import Accessors.Proofs.Emission
import Accessors.Proofs.MergeMaps
/-!
# Methods without their provenance

What is merged into one method, which roles are in conflict and what a file says follow from the signatures of methods:
whatever trails lead to them and wherever they are written, methods of the same signatures come to the same
(`Method.signatures_decide`).
-/
namespace Accessors

namespace Method

/-- A method of this signature to which no trail leads. -/
def Signature.bare (s : Signature) : Method :=
  { owner := s.owner
    kind := s.kind
    role := s.role
    target := s.target
    multiplicity := s.multiplicity
    shape := s.shape
    provenance := .empty
    span := .zero }

/-- The method without its provenance, and as if it were written nowhere. -/
def erased (m : Method) : Method := m.signature.bare

theorem map_erased (ms : List Method) : ms.map erased = (ms.map signature).map Signature.bare := List.map_map.symm

theorem map_signature_erased (ms : List Method) : (ms.map erased).map signature = ms.map signature := List.map_map

theorem steady_erased : Steady erased where
  key_iff _ _ := Iff.rfl
  shape_iff _ _ := Iff.rfl
  role_eq _ := rfl
  kind_eq _ := rfl
  merge_eq _ _ := rfl

end Method

/-- The methods of a conflict, of which one is kept so far and the other disagrees. -/
def Conflict.signatures (c : Conflict) : Method.Signature × Method.Signature := (c.first.signature, c.second.signature)

/-! ## Collisions -/

namespace Collision

def map (f : Method → Method) (c : Collision) : Collision := ⟨c.name, f c.first, f c.second⟩

/-- The name that is claimed, and the roles that claim it. -/
def claim (c : Collision) : String × String × String := (c.name, c.first.role, c.second.role)

namespace Scan

def map (f : Method → Method) (s : Scan) : Scan :=
  ⟨s.claims.map fun c => (c.1, f c.2), s.collisions.map (Collision.map f)⟩

theorem lookup_map_snd (f : Method → Method) (name : String) : ∀ claims : List (String × Method),
    (claims.map fun c => (c.1, f c.2)).lookup name = (claims.lookup name).map f
  | [] => rfl
  | (key, m) :: claims => by
    rw [List.map_cons, List.lookup_cons, List.lookup_cons, lookup_map_snd f name claims]
    cases name == key <;> rfl

section Map

variable {b : Backend} {f : Method → Method} (hname : ∀ m, b.methodName (f m) = b.methodName m)
variable (hrole : ∀ m, (f m).role = m.role)

include hname hrole

/-- Looking at a method that was changed does what looking at the method did, if its name and its role are as before. -/
theorem add_map (s : Scan) (m : Method) : (s.map f).add b (f m) = (s.add b m).map f := by
  have hlookup := lookup_map_snd f (b.methodName m) s.claims
  have hany : (s.collisions.map (Collision.map f)).any (·.name = b.methodName m) =
      s.collisions.any (·.name = b.methodName m) := List.any_map
  unfold add map
  simp only [hname, hlookup, hany]
  cases s.claims.lookup (b.methodName m) with
  | none => simp
  | some first =>
    simp only [Option.map_some, hrole]
    split
    · rfl
    · simp [Collision.map]

theorem ofList_map (ms : List Method) : ofList b (ms.map f) = (ofList b ms).map f := by
  induction ms using List.reverseRecOn with
  | nil => rfl
  | append_singleton ms m ih =>
    rw [List.map_append, List.map_singleton, ofList_concat, ofList_concat, ih, add_map hname hrole]

/-- **The collisions of methods that were changed** are the collisions that were. -/
theorem collisions_map (ms : List Method) : b.collisions (ms.map f) = (b.collisions ms).map (Collision.map f) :=
  congrArg Scan.collisions (ofList_map hname hrole ms)

end Map

end Scan
end Collision

/-! ## Files -/

open Method (erased)

theorem Java.getters_erased (ms : List Method) : Java.getters (ms.map erased) = (Java.getters ms).map erased :=
  filter_map_of_mem (fun _ _ => rfl)

theorem Python.getters_erased (ms : List Method) : Python.getters (ms.map erased) = (Python.getters ms).map erased :=
  filter_map_of_mem (fun _ _ => rfl)

theorem Java.imports_erased (n : TypeNode) (ms : List Method) : Java.imports n (ms.map erased) = Java.imports n ms := by
  unfold imports
  rw [getters_erased, List.any_map]
  rfl

theorem Java.blocks_erased (g : Graph) (n : TypeNode) (ms : List Method) :
    Java.blocks g n (ms.map erased) = Java.blocks g n ms := by
  have hlists : ((getters ms).map erased).filter (fun m => m.multiplicity = .many) =
      ((getters ms).filter fun m => m.multiplicity = .many).map erased := filter_map_of_mem (fun _ _ => rfl)
  have hfields : fieldBlock g (ms.map erased) = fieldBlock g ms := by
    unfold fieldBlock
    rw [getters_erased]
    cases getters ms with
    | nil => rfl
    | cons m gs => exact congrArg (fun block => [_ :: block]) List.map_map
  have hconstructor : constructorBlock g n (ms.map erased) = constructorBlock g n ms := by
    unfold constructorBlock
    rw [getters_erased, hlists]
    cases (getters ms).filter fun m => m.multiplicity = .many with
    | nil => rfl
    | cons m gs => exact congrArg (fun block => [member _ (_ :: block)]) List.map_map
  unfold blocks
  rw [hfields, hconstructor, List.map_map, List.map_map]
  rfl

theorem Python.blocks_erased (n : TypeNode) (ms : List Method) :
    Python.blocks n (ms.map erased) = Python.blocks n ms := by
  have hinit : initBlock (ms.map erased) = initBlock ms := by
    unfold initBlock
    rw [getters_erased]
    cases getters ms with
    | nil => rfl
    | cons m gs => exact congrArg (fun block => [_ :: _ :: block]) List.map_map
  unfold blocks
  rw [hinit, List.map_map, List.map_map]
  rfl

namespace Backend

theorem render_erased (b : Backend) (g : Graph) (n : TypeNode) (ms : List Method) :
    b.render g n (ms.map erased) = b.render g n ms := by
  refine congrArg unlines ?_
  cases b with
  | python =>
    show Python.lines g n (ms.map erased) = Python.lines g n ms
    unfold Python.lines
    rw [Python.blocks_erased]
  | java =>
    show Java.lines g n (ms.map erased) = Java.lines g n ms
    unfold Java.lines
    rw [Java.blocks_erased, Java.imports_erased]

theorem claims_erased (b : Backend) (ms : List Method) :
    (b.collisions (ms.map erased)).map Collision.claim = (b.collisions ms).map Collision.claim := by
  have hname : ∀ m : Method, b.methodName m.erased = b.methodName m := fun m => by cases b <;> rfl
  rw [Collision.Scan.collisions_map hname (fun _ => rfl), List.map_map]
  rfl

/-- What a backend makes of methods: the text of the file, and the names that several roles claim. -/
def output (b : Backend) (g : Graph) (n : TypeNode) (ms : List Method) : String × List (String × String × String) :=
  (b.render g n ms, (b.collisions ms).map Collision.claim)

theorem output_erased (b : Backend) (g : Graph) (n : TypeNode) (ms : List Method) :
    b.output g n (ms.map erased) = b.output g n ms := congrArg₂ Prod.mk (render_erased b g n ms) (claims_erased b ms)

/-- **The output of a backend** follows from the signatures of the methods. -/
theorem output_eq_of_signatures {ms ns : List Method} (h : ms.map Method.signature = ns.map Method.signature)
    (b : Backend) (g : Graph) (n : TypeNode) : b.output g n ms = b.output g n ns := by
  rw [← output_erased, ← output_erased b g n ns, Method.map_erased, Method.map_erased, h]

end Backend

/-! ## Two lists of methods -/

namespace Method

/-- **Merging takes signatures to signatures.** -/
theorem merge_erased_eq {ms ns : List Method} (h : ms.map signature = ns.map signature) (order : List String) :
    (merge order ms).map erased = (merge order ns).map erased := by
  rw [← steady_erased.merge_map, ← steady_erased.merge_map, map_erased, map_erased, h]

theorem map_signatures_erased (acc : Merged) :
    (acc.map erased).conflicts.map Conflict.signatures = acc.conflicts.map Conflict.signatures := List.map_map

theorem roles_conflicts (g : Graph) (owner : TypeId) (cs : List Conflict) :
    (cs.map (Conflict.diagnostic g owner)).map (·.cause.role?) =
      (cs.map Conflict.signatures).map fun s => some s.2.role := by
  rw [List.map_map, List.map_map]
  rfl

/-- **Provenance decides nothing.**  Two lists of methods that agree in all but the provenance and the place in the text
are merged into two such lists, with conflicts between methods that agree again; so the same roles are reported in the
same order, and either backend makes the same text and the same collisions of both, be they merged or not. -/
theorem signatures_decide {ms ns : List Method} (h : ms.map signature = ns.map signature) (order : List String) :
    (merge order ms).kept.map signature = (merge order ns).kept.map signature ∧
    (merge order ms).conflicts.map Conflict.signatures = (merge order ns).conflicts.map Conflict.signatures ∧
    (∀ g owner, ((merge order ms).conflicts.map (Conflict.diagnostic g owner)).map (·.cause.role?) =
      ((merge order ns).conflicts.map (Conflict.diagnostic g owner)).map (·.cause.role?)) ∧
    ∀ b g n, Backend.output b g n ms = Backend.output b g n ns ∧
      Backend.output b g n (merge order ms).kept = Backend.output b g n (merge order ns).kept := by
  have hmerge := merge_erased_eq h order
  have hkept : (merge order ms).kept.map signature = (merge order ns).kept.map signature := by
    rw [← map_signature_erased, ← map_signature_erased (merge order ns).kept]
    exact congrArg (fun acc => acc.kept.map signature) hmerge
  have hconflicts : (merge order ms).conflicts.map Conflict.signatures =
      (merge order ns).conflicts.map Conflict.signatures := by
    rw [← map_signatures_erased, ← map_signatures_erased (merge order ns), hmerge]
  refine ⟨hkept, hconflicts, fun g owner => ?_, fun b g n => ⟨?_, ?_⟩⟩
  · rw [roles_conflicts, roles_conflicts, hconflicts]
  · exact Backend.output_eq_of_signatures h b g n
  · exact Backend.output_eq_of_signatures hkept b g n

/-- The methods of a class that has one role along three trails, and the same methods without a trail: both are merged
into methods of one signature, the ones with three trails and the others with none, and one text is made of them. -/
theorem signatures_decide_enrolment :
    let ms := (Graph.enrolment.resolve ⟨3⟩).methods
    let order := (Graph.enrolment.resolve ⟨3⟩).roleOrder
    (ms.map erased).map signature = ms.map signature ∧
    (merge order (ms.map erased)).kept.map (·.provenance.trails.length) = [0, 0, 0] ∧
    (merge order ms).kept.map (·.provenance.trails.length) = [3, 3, 3] ∧
    ∀ b g n, Backend.output b g n (merge order (ms.map erased)).kept = Backend.output b g n (merge order ms).kept := by
  intro ms order
  have h : (ms.map erased).map signature = ms.map signature := map_signature_erased ms
  obtain ⟨-, -, -, houtput⟩ := signatures_decide h order
  exact ⟨h, rfl, rfl, fun b g n => (houtput b g n).2⟩

end Method
end Accessors
