import Accessors.Proofs.Merge
import Accessors.Proofs.Resolution
/-!
# Grouping and merging over an index

Candidates can be put into their groups, and methods merged, in one pass over a list and an index that tells of each key
where in the list it is.  A place told by the index is looked up as it stands: there is no result if nothing is there.

That never happens, whatever was taken in so far (`Groups.ofCandidates_eq`, `Keeping.ofMethods_eq`): the index tells of
each key the place of the one group, or of the one method, that has it.  What comes out is what `Graph.resolve` groups
and what `Method.merge` keeps.
-/
namespace Accessors

/-! ## An index of keys -/

section Index

variable {κ : Type} [BEq κ] [LawfulBEq κ] {keys : List κ} {k : κ}

/-- **A place that an index tells** is that of the key. -/
theorem getElem?_of_lookup_zipIdx {i : Nat} (h : keys.zipIdx.lookup k = some i) : keys[i]? = some k := by
  obtain ⟨before, after, hsplit, -⟩ := List.lookup_eq_some_iff.1 h
  have hmem : (k, i) ∈ keys.zipIdx := hsplit ▸ List.mem_append_right _ List.mem_cons_self
  exact List.mem_zipIdx_iff_getElem?.1 hmem

theorem lookup_zipIdx_eq_none : keys.zipIdx.lookup k = none ↔ k ∉ keys := by
  rw [List.lookup_eq_none_iff]
  constructor
  · intro h hk
    obtain ⟨i, hi⟩ := List.mem_iff_getElem?.1 hk
    have hne := h (k, i) (List.mem_zipIdx_iff_getElem?.2 hi)
    rw [bne_self_eq_false] at hne
    cases hne
  · intro h p hp
    refine bne_iff_ne.2 (fun he => h ?_)
    rw [he]
    exact List.mem_of_getElem? (List.mem_zipIdx_iff_getElem?.1 hp)

theorem exists_lookup_zipIdx (h : k ∈ keys) : ∃ i, keys.zipIdx.lookup k = some i :=
  Option.ne_none_iff_exists'.1 (fun hnone => lookup_zipIdx_eq_none.1 hnone h)

omit [BEq κ] [LawfulBEq κ] in
theorem zipIdx_concat (keys : List κ) (k : κ) : (keys ++ [k]).zipIdx = keys.zipIdx ++ [(k, keys.length)] := by
  rw [List.zipIdx_append, Nat.zero_add]
  rfl

end Index

theorem foldlM_concat_of_eq_some {α β : Type} {f : β → α → Option β} {l : List α} {b c : β} (h : l.foldlM f b = some c)
    (a : α) : (l ++ [a]).foldlM f b = f c a := by
  rw [List.foldlM_append, h, Option.bind_eq_bind, Option.bind_some, List.foldlM_cons]
  exact bind_pure _

/-- In a list without repeats, a map that differs from another one at one element differs at its place. -/
theorem map_eq_set_of_nodup {α β : Type} {l : List α} (hn : l.Nodup) {i : Nat} {a : α} (hi : l[i]? = some a)
    {f h : α → β} (hsame : ∀ x ∈ l, x ≠ a → h x = f x) : l.map h = (l.map f).set i (h a) := by
  obtain ⟨hlt, -⟩ := List.getElem?_eq_some_iff.1 hi
  refine List.ext_getElem? (fun j => ?_)
  rw [List.getElem?_set, List.length_map, List.getElem?_map, List.getElem?_map]
  by_cases hij : i = j
  · rw [if_pos hij, if_pos hlt, ← hij, hi]
    rfl
  · rw [if_neg hij]
    cases hj : l[j]? with
    | none => rfl
    | some x =>
      have hne : x ≠ a := fun he => hij ((List.getElem?_inj hlt hn).1 (by rw [hi, hj, he]))
      exact congrArg some (hsame x (List.mem_of_getElem? hj) hne)

/-! ## Candidates in groups -/

/-- The name and the target that a candidate is grouped by. -/
def Candidate.key (c : Candidate) : String × TypeId := (c.role.name, c.role.target)

/-- Groups of candidates, and the place of the group for each key. -/
structure Groups where
  index : List ((String × TypeId) × Nat)
  groups : List (List Candidate)

namespace Groups

open Resolution

/-- Puts a candidate into the group that the index tells, or makes one for it. -/
def add (st : Groups) (c : Candidate) : Option Groups :=
  match st.index.lookup c.key with
  | some i => st.groups[i]?.map fun group => { st with groups := st.groups.set i (group ++ [c]) }
  | none => some ⟨st.index ++ [(c.key, st.groups.length)], st.groups ++ [[c]]⟩

def ofCandidates (cs : List Candidate) : Option Groups := cs.foldlM add ⟨[], []⟩

theorem group_concat (cs : List Candidate) (c : Candidate) (k : String × TypeId) :
    group (cs ++ [c]) k.1 k.2 = if k = c.key then group cs k.1 k.2 ++ [c] else group cs k.1 k.2 := by
  have hkey : (c.role.name = k.1 && c.role.target = k.2) = decide (k = c.key) := by
    rw [← Bool.decide_and]
    exact decide_eq_decide.2 ((Prod.ext_iff (x := c.key) (y := k)).symm.trans eq_comm)
  unfold group
  rw [List.filter_append, List.filter_singleton, hkey]
  by_cases h : k = c.key
  · simp [h]
  · simp [h]

theorem keys_concat (cs : List Candidate) (c : Candidate) :
    keys (cs ++ [c]) = if c.key ∈ keys cs then keys cs else keys cs ++ [c.key] := by
  unfold keys
  rw [List.map_append, List.map_singleton, eraseDups_concat]
  simp only [List.mem_eraseDups]
  rfl

/-- **After any candidates**, the index tells each of their keys its place, and there the candidates of the key are. -/
theorem ofCandidates_eq (cs : List Candidate) :
    ofCandidates cs = some ⟨(keys cs).zipIdx, (keys cs).map fun k => group cs k.1 k.2⟩ := by
  induction cs using List.reverseRecOn with
  | nil => rfl
  | append_singleton cs c ih =>
    refine (foldlM_concat_of_eq_some ih c).trans ?_
    unfold add
    rw [keys_concat]
    by_cases hold : c.key ∈ keys cs
    · obtain ⟨i, hi⟩ := exists_lookup_zipIdx hold
      have hplace := getElem?_of_lookup_zipIdx hi
      have hgroup : ((keys cs).map fun k => group cs k.1 k.2)[i]? = some (group cs c.key.1 c.key.2) := by
        rw [List.getElem?_map, hplace]
        rfl
      have hset := map_eq_set_of_nodup (nodup_keys cs) hplace (f := fun k => group cs k.1 k.2)
        (h := fun k => group (cs ++ [c]) k.1 k.2) (fun k _ hne => by rw [group_concat, if_neg hne])
      rw [if_pos hold]
      simp only [hi]
      rw [hgroup, hset, group_concat, if_pos rfl]
      rfl
    · have hsame : (keys cs).map (fun k => group (cs ++ [c]) k.1 k.2) = (keys cs).map fun k => group cs k.1 k.2 :=
        List.map_congr_left (fun k hk => by
          have hne : k ≠ c.key := fun he => hold (he ▸ hk)
          rw [group_concat, if_neg hne])
      have hnone : group cs c.key.1 c.key.2 = [] :=
        List.eq_nil_iff_forall_not_mem.2 (fun x hx => hold (mem_keys.2 ⟨x, hx⟩))
      rw [if_neg hold, zipIdx_concat, List.map_append, List.map_singleton, hsame, group_concat, if_pos rfl, hnone]
      simp only [lookup_zipIdx_eq_none.2 hold]
      rw [List.length_map]
      rfl

/-- Every place that the index tells is there, and the group at it has candidates, all of them of the very key. -/
def Sound (st : Groups) : Prop := ∀ k i, st.index.lookup k = some i →
  ∃ group, st.groups[i]? = some group ∧ group ≠ [] ∧ ∀ c ∈ group, c.key = k

theorem sound_of_ofCandidates {cs : List Candidate} {st : Groups} (h : ofCandidates cs = some st) : st.Sound := by
  intro k i hi
  rw [ofCandidates_eq, Option.some.injEq] at h
  subst h
  have hplace := getElem?_of_lookup_zipIdx hi
  refine ⟨group cs k.1 k.2, by rw [List.getElem?_map, hplace]; rfl, fun hnil => ?_, fun c hc => ?_⟩
  · obtain ⟨c, hc⟩ := mem_keys.1 (List.mem_of_getElem? hplace)
    rw [hnil] at hc
    cases hc
  · obtain ⟨-, hname, htarget⟩ := mem_group.1 hc
    exact Prod.ext hname htarget

end Groups

namespace Resolution

/-- One association from its group, of which the first candidate tells the name and the target. -/
def resolveGroup? (g : Graph) (o : TypeId) (group : List Candidate) : Option ResolvedRole :=
  group.head?.map fun c => resolveRole g o c.role.name c.role.target group

/-- **The groups are those that are resolved.** -/
theorem map_resolveGroup? (g : Graph) (o : TypeId) :
    ((keys (candidates g (g.ancestry o))).map fun k => group (candidates g (g.ancestry o)) k.1 k.2).map
      (resolveGroup? g o) = (g.resolve o).roles.map some := by
  rw [resolve_roles, List.map_map, List.map_map]
  refine List.map_congr_left (fun k hk => ?_)
  show (group _ k.1 k.2).head?.map _ = some _
  cases hgroup : group (candidates g (g.ancestry o)) k.1 k.2 with
  | nil =>
    obtain ⟨c, hc⟩ := mem_keys.1 hk
    rw [hgroup] at hc
    cases hc
  | cons c cs =>
    obtain ⟨-, hname, htarget⟩ := mem_group.1 (hgroup ▸ List.mem_cons_self : c ∈ group _ k.1 k.2)
    rw [List.head?_cons, Option.map_some, hname, htarget]

end Resolution

/-! ## Methods merged -/

/-- The methods kept so far, the place of the one for each key, and the conflicts. -/
structure Keeping where
  index : List (Method.Key × Nat)
  kept : List Method
  conflicts : List Conflict

namespace Keeping

open Method

/-- Takes in one more method: merges its provenance into the method that the index tells if that has its shape. -/
def add (st : Keeping) (m : Method) : Option Keeping :=
  match st.index.lookup m.key with
  | some i => st.kept[i]?.map fun k =>
    if k.shape = m.shape then { st with kept := st.kept.set i { k with provenance := k.provenance.merge m.provenance } }
    else if m.role ∈ st.conflicts.map (·.second.role) then st
    else { st with conflicts := st.conflicts ++ [⟨k, m⟩] }
  | none => some { st with index := st.index ++ [(m.key, st.kept.length)], kept := st.kept ++ [m] }

def ofMethods (ms : List Method) : Option Keeping := ms.foldlM add ⟨[], [], []⟩

/-- What was kept, with an index of it. -/
def ofMerged (m : Merged) : Keeping := ⟨(m.kept.map key).zipIdx, m.kept, m.conflicts⟩

theorem absorb_eq_set {kept : List Method} (hn : (kept.map key).Nodup) {m k : Method} {i : Nat} (hi : kept[i]? = some k)
    (hk : k.key = m.key) :
    Merged.absorb m kept = kept.set i { k with provenance := k.provenance.merge m.provenance } := by
  have hset := map_eq_set_of_nodup (List.Nodup.of_map _ hn) hi (f := id)
    (h := fun x => if x.key = m.key then { x with provenance := x.provenance.merge m.provenance } else x)
    (fun x hx hne => if_neg (fun he => hne (List.inj_on_of_nodup_map hn hx (List.mem_of_getElem? hi) (he.trans hk.symm))))
  rw [if_pos hk, List.map_id] at hset
  exact hset

theorem add_ofMerged {acc : Merged} (hn : (acc.kept.map key).Nodup) (m : Method) :
    (ofMerged acc).add m = some (ofMerged (acc.add m)) := by
  unfold add
  rcases Merged.add_cases acc m with ⟨hf, he⟩ | ⟨k, hf, hcase⟩
  · have hnew : m.key ∉ acc.kept.map key := fun hmem => by
      obtain ⟨k, hk, hkey⟩ := List.mem_map.1 hmem
      exact List.find?_eq_none.1 hf k hk (decide_eq_true hkey)
    have hlookup : (ofMerged acc).index.lookup m.key = none := lookup_zipIdx_eq_none.2 hnew
    simp only [hlookup]
    rw [he]
    unfold ofMerged
    rw [List.map_append, List.map_singleton, zipIdx_concat, List.length_map]
  · obtain ⟨hmem, hkey⟩ := (find?_eq_some_iff_of_nodup key hn).1 hf
    obtain ⟨i, hi⟩ := exists_lookup_zipIdx (hkey ▸ List.mem_map_of_mem hmem : m.key ∈ acc.kept.map key)
    have hlookup : (ofMerged acc).index.lookup m.key = some i := hi
    -- the index tells the one method of the key, which is the one that a search finds
    have hplace : acc.kept[i]? = some k := by
      have hat := getElem?_of_lookup_zipIdx hi
      rw [List.getElem?_map] at hat
      obtain ⟨k', hk', hkey'⟩ := Option.map_eq_some_iff.1 hat
      rw [hk', List.inj_on_of_nodup_map hn (List.mem_of_getElem? hk') hmem (hkey'.trans hkey.symm)]
    have hplace' : (ofMerged acc).kept[i]? = some k := hplace
    simp only [hlookup]
    rw [hplace', Option.map_some]
    refine congrArg some ?_
    rcases hcase with ⟨hs, he⟩ | ⟨hs, hr, he⟩ | ⟨hs, hr, he⟩
    · have hkeys := Merged.map_key_absorb m acc.kept
      rw [absorb_eq_set hn hplace hkey] at hkeys
      rw [he, if_pos hs]
      unfold ofMerged
      rw [absorb_eq_set hn hplace hkey, hkeys]
    · rw [he, if_neg hs]
      exact if_pos hr
    · rw [he, if_neg hs]
      exact if_neg hr

/-- **After any methods**, there is what merging keeps and reports of them, and the index tells the place of each key. -/
theorem ofMethods_eq (ms : List Method) : ofMethods ms = some (ofMerged (Merged.ofList ms)) := by
  induction ms using List.reverseRecOn with
  | nil => rfl
  | append_singleton ms m ih =>
    refine (foldlM_concat_of_eq_some ih m).trans ?_
    rw [add_ofMerged (Merged.nodup_keys_ofList ms), Merged.ofList_concat]

/-- Every place that the index tells is there, and the method at it has the very key. -/
def Sound (st : Keeping) : Prop := ∀ k i, st.index.lookup k = some i → ∃ m, st.kept[i]? = some m ∧ m.key = k

theorem sound_of_ofMethods {ms : List Method} {st : Keeping} (h : ofMethods ms = some st) : st.Sound := by
  intro k i hi
  rw [ofMethods_eq, Option.some.injEq] at h
  subst h
  have hplace := getElem?_of_lookup_zipIdx hi
  rw [List.getElem?_map] at hplace
  exact Option.map_eq_some_iff.1 hplace

/-- The methods of the roles that are not in conflict, arranged, and the conflicts. -/
def arranged (st : Keeping) (order : List String) : Merged :=
  ⟨arrange order (st.kept.filter fun m => m.role ∉ st.conflicts.map (·.second.role)), st.conflicts⟩

theorem merge_eq_arranged (order : List String) (ms : List Method) :
    merge order ms = (ofMerged (Merged.ofList ms)).arranged order := rfl

end Keeping
end Accessors
