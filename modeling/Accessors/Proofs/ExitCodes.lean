import Accessors.FileTree
import Accessors.Run
import Accessors.Proofs.Collisions
import Accessors.Proofs.Names
/-!
# How runs end

A run that can read and write all its files ends well just if its model text has a graph and nothing is found that the
settings do not let pass; which command was given makes no difference to that, nor to the diagnostics that are shown and
to their order (`Run.run_exits_by_policy`).

The file system is any state on which the operations of `FileAccess` run.
-/
namespace Accessors

/-! ## What a graph must be like -/

namespace Graph

open Method

/-- Nothing about a graph keeps a run from ending well: no type is in conflict, no backend has one name for methods of two
roles, and where warnings are denied there are none. -/
structure Accepted (g : Graph) (backends : List Backend) (denyWarnings : Bool) : Prop where
  noConflict : ∀ r ∈ g.report.types, ∀ d ∈ r.diagnostics, d.conflict? = none
  noCollision : ∀ b ∈ backends, (b.emit g g.report).diagnostics = []
  noDenied : ¬ (denyWarnings = true ∧ ∃ r ∈ g.report.types, ∃ d ∈ r.diagnostics, d.severity = .warning)

/-- What a run shows: for each type what resolving its roles gave rise to and then its conflicts, and behind all types the
name collisions of each backend. -/
def shown (g : Graph) (backends : List Backend) : List Diagnostic :=
  (g.ids.flatMap fun t => (g.resolve t).diagnostics g ++
    (merge (g.resolve t).roleOrder (g.resolve t).methods).conflicts.map (Conflict.diagnostic g t)) ++
  backends.flatMap fun b => (b.emit g g.report).diagnostics

variable {g : Graph}

theorem diagnostics_report (g : Graph) : g.report.diagnostics = g.ids.flatMap fun t => (g.reportOn t).diagnostics := by
  unfold Report.diagnostics report
  rw [List.flatMap_map]

/-- **A type fails** just if a conflict is reported of it. -/
theorem failed_reportOn_eq_false_iff {t : TypeId} :
    (g.reportOn t).failed = false ↔ ∀ d ∈ (g.reportOn t).diagnostics, d.conflict? = none := by
  unfold TypeReport.failed
  rw [methods?_reportOn_eq_ite, diagnostics_reportOn_eq]
  unfold Merged.isClean
  cases (merge (g.resolve t).roleOrder (g.resolve t).methods).conflicts with
  | nil =>
    rw [List.map_nil, List.append_nil]
    exact iff_of_true rfl (fun d hd => conflict?_of_mem_diagnostics hd)
  | cons c cs =>
    refine iff_of_false (fun h => by cases h) (fun h => ?_)
    have hc := h _ (List.mem_append_right _ List.mem_cons_self)
    cases hc

theorem failed_report_eq_nil_iff :
    g.report.failed = [] ↔ ∀ r ∈ g.report.types, ∀ d ∈ r.diagnostics, d.conflict? = none := by
  unfold Report.failed report
  rw [List.map_eq_nil_iff, List.filter_eq_nil_iff]
  constructor
  · intro h r hr
    obtain ⟨t, -, rfl⟩ := List.mem_map.1 hr
    exact failed_reportOn_eq_false_iff.1 (Bool.eq_false_iff.2 (h _ hr))
  · intro h r hr
    obtain ⟨t, -, rfl⟩ := List.mem_map.1 hr
    exact Bool.eq_false_iff.1 (failed_reportOn_eq_false_iff.2 (h _ hr))

theorem hasWarnings_iff {r : Report} :
    r.hasWarnings = true ↔ ∃ t ∈ r.types, ∃ d ∈ t.diagnostics, d.severity = .warning := by
  unfold Report.hasWarnings Report.diagnostics
  simp only [List.any_eq_true, List.mem_flatMap, decide_eq_true_eq]
  constructor
  · rintro ⟨d, ⟨t, ht, hd⟩, hw⟩
    exact ⟨t, ht, d, hd, hw⟩
  · rintro ⟨t, ht, d, hd, hw⟩
    exact ⟨d, ⟨t, ht, hd⟩, hw⟩

end Graph

/-- A model text that can be taken apart into tokens, has the form of a source, has a graph, and is accepted. -/
def Settings.Passes (settings : Settings) (text : String) : Prop :=
  ∃ ts s g, Token.lex text = .ok ts ∧ Source.ofTokens ts = .ok s ∧ Graph.ofSource s = .ok g ∧
    g.Accepted settings.backends settings.denyWarnings

theorem Settings.passes_iff {settings : Settings} {text : String} : settings.Passes text ↔
    ∃ g, Graph.parse text = .ok g ∧ g.Accepted settings.backends settings.denyWarnings := by
  constructor
  · rintro ⟨ts, s, g, hts, hs, hg, hok⟩
    exact ⟨g, Graph.parse_eq_ok.2 ⟨ts, s, hts, hs, hg⟩, hok⟩
  · rintro ⟨g, hparse, hok⟩
    obtain ⟨ts, s, hts, hs, hg⟩ := Graph.parse_eq_ok.1 hparse
    exact ⟨ts, s, g, hts, hs, hg, hok⟩

/-! ## What is shown -/

/-- **What is shown of diagnostics** tells their headlines, in order. -/
theorem Diagnostic.headlines_sublist (text : String) : ∀ ds : List Diagnostic,
    (ds.map headline).Sublist (ds.flatMap (lines text))
  | [] => .slnil
  | d :: ds => by
    obtain ⟨below, hlines⟩ := List.head?_eq_some_iff.1 (head?_lines text d)
    rw [List.map_cons, List.flatMap_cons, hlines, List.cons_append]
    exact ((headlines_sublist text ds).trans (List.sublist_append_right _ _)).cons_cons _

/-! ## Requests -/

namespace CommandLine.Request

def model : Request → String
  | generate model .. | check model .. => model

def config : Request → Option String
  | generate _ _ _ config .. | check _ config .. => config

/-- The settings that a run goes by: those that it finds, where its arguments do not say otherwise. -/
def effective (found : Settings) : Request → Settings
  | generate _ backends output _ sequential _ =>
    { found with
      backends := if backends.isEmpty then found.backends else backends
      output := output.getD found.output
      parallel := found.parallel && !sequential }
  | check .. => found

/-- The files that a run writes for a graph. -/
def files (g : Graph) (backends : List Backend) : Request → List GeneratedFile
  | generate .. => backends.flatMap fun b => (b.emit g g.report).files
  | check .. => []

/-- What a run says about the files that it wrote. -/
def notes (g : Graph) (settings : Settings) : Request → List String
  | generate _ _ _ _ _ verbose => settings.backends.flatMap fun b => Run.writtenLines b settings.output verbose
      ((b.emit g g.report).files.map fun f => Path.join settings.output f.path)
  | check .. => []

end CommandLine.Request

/-! ## Reading and writing -/

namespace Run

open CommandLine (Request)

variable {σ : Type}

/-- What follows a step that came out with `a`. -/
theorem run_bind_of_run_eq {α β : Type} {x : StateM σ α} {k : α → StateM σ β} {a : α} {t t' : σ}
    (h : x.run t = (a, t')) : (x >>= k).run t = (k a).run t' := by
  rw [StateT.run_bind, h]
  rfl

/-- A step comes out with something before what follows it does. -/
theorem exists_of_run_bind {α β : Type} {x : StateM σ α} {k : α → StateM σ β} {b : β} {t t' : σ}
    (h : (x >>= k).run t = (b, t')) : ∃ a u, x.run t = (a, u) ∧ (k a).run u = (b, t') :=
  ⟨_, _, rfl, h⟩

/-- A step comes out well before all does, where its failure is a failure of all. -/
theorem exists_ok_of_run_bind {ε ε' α β : Type} {x : StateM σ (Except ε α)} {k : Except ε α → StateM σ (Except ε' β)}
    {b : β} {t t' : σ} (hfails : ∀ fault u c u', (k (.error fault)).run u ≠ (.ok c, u'))
    (h : (x >>= k).run t = (.ok b, t')) : ∃ a u, x.run t = (.ok a, u) ∧ (k (.ok a)).run u = (.ok b, t') := by
  obtain ⟨step, u, hstep, h⟩ := exists_of_run_bind h
  cases step with
  | error fault => exact absurd h (hfails fault u b t')
  | ok a => exact ⟨a, u, hstep, h⟩

variable [FileAccess (StateM σ)]

/-- Files can be written below a directory one after the other, each when the directory that it lies in was made. -/
inductive Stored (output : String) : List GeneratedFile → σ → σ → Prop
  | nil (t : σ) : Stored output [] t t
  | cons {f : GeneratedFile} {rest : List GeneratedFile} {t t₁ t₂ t₃ : σ}
      (hmade : (Path.parent? (Path.join output f.path)).elim (t₁ = t) fun directory =>
        (FileAccess.makeDirectories directory : StateM σ _).run t = (.ok (), t₁))
      (hwritten : (FileAccess.write (Path.join output f.path) f.contents : StateM σ _).run t₁ = (.ok (), t₂))
      (hrest : Stored output rest t₂ t₃) : Stored output (f :: rest) t t₃

theorem Stored.of_append {output : String} {t t' : σ} : ∀ {fs fs' : List GeneratedFile},
    Stored output (fs ++ fs') t t' → ∃ u, Stored output fs t u ∧ Stored output fs' u t'
  | [], _, h => ⟨t, .nil t, h⟩
  | _ :: _, _, .cons hmade hwritten hrest => by
    obtain ⟨u, hfs, hfs'⟩ := hrest.of_append
    exact ⟨u, .cons hmade hwritten hfs, hfs'⟩

theorem run_writeFile {output : String} {f : GeneratedFile} {t t₁ t₂ : σ}
    (hmade : (Path.parent? (Path.join output f.path)).elim (t₁ = t) fun directory =>
      (FileAccess.makeDirectories directory : StateM σ _).run t = (.ok (), t₁))
    (hwritten : (FileAccess.write (Path.join output f.path) f.contents : StateM σ _).run t₁ = (.ok (), t₂)) :
    (writeFile output f : StateM σ _).run t = (.ok (Path.join output f.path), t₂) := by
  unfold writeFile
  cases hparent : Path.parent? (Path.join output f.path) with
  | none =>
    rw [hparent] at hmade
    cases hmade
    simp only [hparent]
    refine (run_bind_of_run_eq (StateT.run_pure _ _)).trans ?_
    exact (run_bind_of_run_eq hwritten).trans rfl
  | some directory =>
    rw [hparent] at hmade
    simp only [hparent]
    refine (run_bind_of_run_eq hmade).trans ?_
    exact (run_bind_of_run_eq hwritten).trans rfl

theorem run_writeFiles {output : String} {fs : List GeneratedFile} {t t' : σ} (h : Stored output fs t t') :
    (writeFiles output fs : StateM σ _).run t = (.ok (fs.map fun f => Path.join output f.path), t') := by
  induction h with
  | nil t => rfl
  | cons hmade hwritten _ ih =>
    unfold writeFiles
    refine (run_bind_of_run_eq (run_writeFile hmade hwritten)).trans ?_
    exact (run_bind_of_run_eq ih).trans rfl

theorem exists_of_run_writeFile {output path : String} {f : GeneratedFile} {t t₂ : σ}
    (h : (writeFile output f : StateM σ _).run t = (.ok path, t₂)) :
    ∃ t₁, ((Path.parent? (Path.join output f.path)).elim (t₁ = t) fun directory =>
        (FileAccess.makeDirectories directory : StateM σ _).run t = (.ok (), t₁)) ∧
      (FileAccess.write (Path.join output f.path) f.contents : StateM σ _).run t₁ = (.ok (), t₂) := by
  unfold writeFile at h
  cases hparent : Path.parent? (Path.join output f.path) with
  | none =>
    simp only [hparent, pure_bind] at h
    obtain ⟨_, _, hwritten, h⟩ := exists_ok_of_run_bind (fun _ _ _ _ h => by cases h) h
    cases h
    exact ⟨t, rfl, hwritten⟩
  | some directory =>
    simp only [hparent] at h
    obtain ⟨_, t₁, hmade, h⟩ := exists_ok_of_run_bind (fun _ _ _ _ h => by cases h) h
    obtain ⟨_, _, hwritten, h⟩ := exists_ok_of_run_bind (fun _ _ _ _ h => by cases h) h
    cases h
    exact ⟨t₁, hmade, hwritten⟩

/-- Files that were written can be stored. -/
theorem stored_of_run_writeFiles {output : String} : ∀ {fs : List GeneratedFile} {t t' : σ} {paths : List String},
    (writeFiles output fs : StateM σ _).run t = (.ok paths, t') → Stored output fs t t'
  | [], _, _, _, h => by
    cases h
    exact .nil _
  | f :: fs, t, t', paths, h => by
    unfold writeFiles at h
    obtain ⟨path, t₂, hfile, h⟩ := exists_ok_of_run_bind (fun _ _ _ _ h => by cases h) h
    obtain ⟨more, u, hmore, h⟩ := exists_ok_of_run_bind (fun _ _ _ _ h => by cases h) h
    cases h
    obtain ⟨t₁, hmade, hwritten⟩ := exists_of_run_writeFile hfile
    exact .cons hmade hwritten (stored_of_run_writeFiles hmore)

theorem exists_stored_of_isOk {output : String} {fs : List GeneratedFile} {t : σ}
    (h : ((writeFiles output fs : StateM σ _).run t).1.isOk = true) : ∃ t', Stored output fs t t' := by
  obtain ⟨⟨fault | paths, t'⟩, hrun⟩ : ∃ r, (writeFiles output fs : StateM σ _).run t = r := ⟨_, rfl⟩
  · rw [hrun] at h
    cases h
  · exact ⟨t', stored_of_run_writeFiles hrun⟩

theorem run_writeBackends (l : Loaded) (output : String) (verbose : Bool) : ∀ {backends : List Backend} {t t' : σ},
    Stored output (backends.flatMap fun b => (b.emit l.graph l.report).files) t t' →
    (writeBackends l output verbose backends : StateM σ _).run t = ((backends.flatMap fun b =>
      writtenLines b output verbose ((b.emit l.graph l.report).files.map fun f => Path.join output f.path), none), t')
  | [], _, _, .nil _ => rfl
  | b :: backends, t, t', h => by
    rw [List.flatMap_cons] at h
    obtain ⟨u, hb, hrest⟩ := h.of_append
    unfold writeBackends
    refine (run_bind_of_run_eq (run_writeFiles hb)).trans ?_
    exact (run_bind_of_run_eq (run_writeBackends l output verbose hrest)).trans rfl

/-! ## Runs -/

variable {t t₁ t₂ : σ} {found : Settings} {text : String}

theorem run_load {model : String} {config : Option String}
    (hfound : (findSettings model config : StateM σ _).run t = (.ok found, t₁))
    (hread : (FileAccess.read model : StateM σ _).run t₁ = (.ok text, t₂)) :
    (load model config : StateM σ _).run t = (match Graph.parse text with
      | .error f => .error ⟨f, some ⟨model, text⟩⟩
      | .ok g => .ok ⟨found, text, g, g.report⟩, t₂) := by
  unfold load
  refine (run_bind_of_run_eq hfound).trans ?_
  refine (run_bind_of_run_eq hread).trans ?_
  dsimp only
  cases Graph.parse text <;> rfl

/-- A run of which every file can be read and written: it finds settings, and reads the model's text; if that has a
graph, the files made of it can be stored. -/
structure Undisturbed (request : Request) (found : Settings) (text : String) (t : σ) : Prop where
  read : ∃ t₁ t₂, (findSettings request.model request.config : StateM σ _).run t = (.ok found, t₁) ∧
    (FileAccess.read request.model : StateM σ _).run t₁ = (.ok text, t₂) ∧
    ∀ g, Graph.parse text = .ok g → ∃ t₃, Stored (request.effective found).output
      (request.files g (request.effective found).backends) t₂ t₃

/-- What is left of an undisturbed run of a text that has no graph. -/
theorem Undisturbed.run_perform_of_error {request : Request} (h : Undisturbed request found text t) {f : Failure}
    (hparse : Graph.parse text = .error f) :
    ((perform request : StateM σ _).run t).1 = ⟨1, "", f.lines request.model text⟩ := by
  obtain ⟨t₁, t₂, hfound, hread, -⟩ := h.read
  have hload := run_load hfound hread
  rw [hparse] at hload
  cases request <;> exact congrArg Prod.fst (run_bind_of_run_eq hload)

/-- An undisturbed run that generates files stores them one after the other, and then comes to its end. -/
theorem Undisturbed.run_generate {model : String} {backends : List Backend} {output config : Option String}
    {sequential verbose : Bool} (h : Undisturbed (.generate model backends output config sequential verbose) found text t)
    {g : Graph} (hparse : Graph.parse text = .ok g) {settings : Settings}
    (hsettings : (Request.generate model backends output config sequential verbose).effective found = settings) :
    ∃ t₁ t₂ t₃, (findSettings model config : StateM σ _).run t = (.ok found, t₁) ∧
      (FileAccess.read model : StateM σ _).run t₁ = (.ok text, t₂) ∧
      Stored settings.output (settings.backends.flatMap fun b => (b.emit g g.report).files) t₂ t₃ ∧
      (perform (.generate model backends output config sequential verbose) : StateM σ _).run t =
        (conclude ⟨found, text, g, g.report⟩ settings.backends ""
          ((Request.generate model backends output config sequential verbose).notes g settings), t₃) := by
  cases hsettings
  obtain ⟨t₁, t₂, hfound, hread, hstored⟩ := h.read
  obtain ⟨t₃, hstored⟩ := hstored g hparse
  refine ⟨t₁, t₂, t₃, hfound, hread, hstored, ?_⟩
  have hload := run_load hfound hread
  rw [hparse] at hload
  dsimp only [Request.model, Request.config] at hload
  dsimp only [Request.effective, Request.files] at hstored
  unfold perform
  rw [run_bind_of_run_eq hload]
  dsimp only
  rw [run_bind_of_run_eq (run_writeBackends ⟨found, text, g, g.report⟩ _ verbose hstored)]
  rfl

/-- An undisturbed run of a text that has a graph comes to its end. -/
theorem Undisturbed.run_perform_of_ok {request : Request} (h : Undisturbed request found text t) {g : Graph}
    (hparse : Graph.parse text = .ok g) : ∃ output, ((perform request : StateM σ _).run t).1 =
      conclude ⟨found, text, g, g.report⟩ (request.effective found).backends output
        (request.notes g (request.effective found)) := by
  cases request with
  | generate model backends output config sequential verbose =>
    obtain ⟨_, _, _, _, _, _, hrun⟩ := h.run_generate hparse rfl
    exact ⟨"", congrArg Prod.fst hrun⟩
  | check model config json verbose =>
    obtain ⟨t₁, t₂, hfound, hread, -⟩ := h.read
    have hload := run_load hfound hread
    rw [hparse] at hload
    dsimp only [Request.model, Request.config] at hload
    unfold perform
    rw [run_bind_of_run_eq hload]
    exact ⟨_, rfl⟩

/-- **There is no verdict** against a run just if its graph is accepted. -/
theorem verdict?_eq_none_iff {g : Graph} {backends : List Backend} :
    verdict? ⟨found, text, g, g.report⟩ (collisions ⟨found, text, g, g.report⟩ backends) = none ↔
      g.Accepted backends found.denyWarnings := by
  have hcollisions : collisions ⟨found, text, g, g.report⟩ backends = [] ↔
      ∀ b ∈ backends, (b.emit g g.report).diagnostics = [] := List.flatMap_eq_nil_iff
  unfold verdict?
  constructor
  · intro h
    split at h
    · cases h
    · rename_i hfailed
      split at h
      · cases h
      · rename_i hnone
        split at h
        · cases h
        · rename_i hwarn
          rw [Bool.and_eq_true, Graph.hasWarnings_iff] at hwarn
          exact ⟨Graph.failed_report_eq_nil_iff.1 (not_not.1 hfailed), hcollisions.1 (not_not.1 hnone), hwarn⟩
  · intro h
    rw [if_neg (not_not.2 (Graph.failed_report_eq_nil_iff.2 h.noConflict)),
      if_neg (not_not.2 (hcollisions.2 h.noCollision)), if_neg]
    rw [Bool.and_eq_true, Graph.hasWarnings_iff]
    exact h.noDenied

theorem run_eq_perform {args : List String} {request : Request} (hargs : CommandLine.parse args = .ok request) :
    (run args : StateM σ _) = perform request := by
  unfold run
  rw [hargs]

theorem exitCode_conclude_eq_zero_iff {l : Loaded} {backends : List Backend} {output : String} {errors : List String} :
    (conclude l backends output errors).exitCode = 0 ↔ verdict? l (collisions l backends) = none := by
  unfold conclude
  dsimp only
  cases verdict? l (collisions l backends) with
  | none => exact iff_of_true rfl rfl
  | some verdict => exact iff_of_false Nat.one_ne_zero (Option.some_ne_none _)

/-- The end of a run shows what was found in the order of `Graph.shown`. -/
theorem errors_conclude (g : Graph) (backends : List Backend) (output : String) (errors : List String) :
    (conclude ⟨found, text, g, g.report⟩ backends output errors).errors =
      errors ++ (g.shown backends).flatMap (Diagnostic.lines text) ++
        (verdict? ⟨found, text, g, g.report⟩ (collisions ⟨found, text, g, g.report⟩ backends)).toList := by
  have hshown : g.report.diagnostics ++ collisions ⟨found, text, g, g.report⟩ backends = g.shown backends := by
    rw [Graph.diagnostics_report]
    rfl
  rw [← hshown]
  rfl

/-- **How a run ends.**  If every file can be read and written, a run that generates and one that checks end alike: with
0 if the model text passes under the settings that the run goes by, and with 1 if not.  Where the text has a graph, both
show the same diagnostics in the same order, each by its headline at least, and give the same verdict, behind what the
first one says about its files; where it has none, both show the failure. -/
theorem run_exits_by_policy {args : List String} {request : Request} (hargs : CommandLine.parse args = .ok request)
    (h : Undisturbed request found text t) :
    (((run args : StateM σ _).run t).1.exitCode = 0 ↔ (request.effective found).Passes text) ∧
    (¬ (request.effective found).Passes text → ((run args : StateM σ _).run t).1.exitCode = 1) ∧
    (∀ f, Graph.parse text = .error f → ((run args : StateM σ _).run t).1.errors = f.lines request.model text) ∧
    ∀ g, Graph.parse text = .ok g → ((run args : StateM σ _).run t).1.errors =
        request.notes g (request.effective found) ++
          (g.shown (request.effective found).backends).flatMap (Diagnostic.lines text) ++
          (verdict? ⟨request.effective found, text, g, g.report⟩
            (collisions ⟨request.effective found, text, g, g.report⟩ (request.effective found).backends)).toList ∧
      ((g.shown (request.effective found).backends).map Diagnostic.headline).Sublist
        ((run args : StateM σ _).run t).1.errors := by
  have hdeny : (request.effective found).denyWarnings = found.denyWarnings := by cases request <;> rfl
  rw [run_eq_perform hargs, Settings.passes_iff, hdeny]
  cases hparse : Graph.parse text with
  | error f =>
    rw [h.run_perform_of_error hparse]
    refine ⟨iff_of_false Nat.one_ne_zero (fun ⟨g, hg, _⟩ => by cases hg), fun _ => rfl, fun f' hf => ?_,
      fun g hg => by cases hg⟩
    cases hf
    rfl
  | ok g =>
    obtain ⟨output, hrun⟩ := h.run_perform_of_ok hparse
    have hpasses : (∃ g', Except.ok (ε := Failure) g = .ok g' ∧
        g'.Accepted (request.effective found).backends found.denyWarnings) ↔
        verdict? ⟨found, text, g, g.report⟩
          (collisions ⟨found, text, g, g.report⟩ (request.effective found).backends) = none := by
      rw [verdict?_eq_none_iff]
      exact ⟨fun ⟨_, hg, hok⟩ => by cases hg; exact hok, fun hok => ⟨g, rfl, hok⟩⟩
    rw [hrun, hpasses]
    refine ⟨exitCode_conclude_eq_zero_iff, fun hsome => if_pos (Option.isSome_iff_ne_none.2 hsome),
      fun f hf => (by cases hf), fun g' hg => ?_⟩
    cases hg
    rw [errors_conclude]
    have hheadlines := Diagnostic.headlines_sublist text (g.shown (request.effective found).backends)
    refine ⟨by cases request <;> rfl, hheadlines.trans ?_⟩
    exact (List.sublist_append_right _ _).trans (List.sublist_append_left _ _)

end Run

/-! ## An example -/

/-- A class of which two roles ask for methods of one name, and the class that they lead to. -/
def Source.academyText : String := "class School { 1 -> * Course course; 1 -> * Course courses; } class Course {}"

def Graph.academy : Graph := (Graph.parse Source.academyText).toOption.getD ⟨none, []⟩

theorem Graph.parse_academyText : Graph.parse Source.academyText = .ok .academy := by decide +kernel

/-- A directory that holds nothing but the model. -/
def FileTree.academy : FileTree := ⟨[], [(["model"], .file Source.academyText.toUTF8)]⟩

namespace Run

def academyRequest : CommandLine.Request := .generate "model" [.java] none none false false

def academySettings : Settings := ⟨[.python], "generated", true, false⟩

/-- The model can be read, and no settings are found next to it. -/
theorem undisturbed_academy_of {backends : List Backend} (hne : backends ≠ [])
    (h : ((writeFiles "generated" (backends.flatMap fun b => (b.emit .academy Graph.academy.report).files) :
      StateM FileTree _).run .academy).1.isOk = true) :
    Undisturbed (.generate "model" backends none none false false) academySettings Source.academyText
      FileTree.academy := by
  have hread : (FileAccess.read "model" : StateM FileTree _).run .academy = (.ok Source.academyText, .academy) :=
    congrArg (·, FileTree.academy) (show FileTree.academy.read "model" = .ok Source.academyText by decide +kernel)
  have hfound : (findSettings "model" none : StateM FileTree _).run .academy = (.ok academySettings, .academy) := rfl
  refine ⟨.academy, .academy, hfound, hread, fun g hg => ?_⟩
  rw [Graph.parse_academyText] at hg
  cases hg
  have hbackends : (if backends.isEmpty then academySettings.backends else backends) = backends :=
    if_neg (fun he => hne (List.isEmpty_iff.1 he))
  dsimp only [CommandLine.Request.effective, CommandLine.Request.files]
  rw [hbackends]
  exact exists_stored_of_isOk h

/-- There is one file to write, in a directory that has to be made with the one that it lies in. -/
theorem undisturbed_academy : Undisturbed academyRequest academySettings Source.academyText FileTree.academy :=
  undisturbed_academy_of (List.cons_ne_nil _ _) (by decide +kernel)

/-- The file of the one class is written; the run fails for the methods of the other, and says so of each. -/
theorem run_exits_by_policy_academy : CommandLine.parse ["generate", "-b=java", "model"] = .ok academyRequest ∧
    Undisturbed academyRequest academySettings Source.academyText FileTree.academy ∧
    ((run ["generate", "-b=java", "model"] : StateM FileTree _).run .academy).1.exitCode = 1 ∧
    ["Error: [name-collision] School", "Error: [name-collision] School"].Sublist
      ((run ["generate", "-b=java", "model"] : StateM FileTree _).run .academy).1.errors := by
  have hargs : CommandLine.parse ["generate", "-b=java", "model"] = .ok academyRequest := by cbv
  obtain ⟨-, hfails, -, hshows⟩ := run_exits_by_policy hargs undisturbed_academy
  refine ⟨hargs, undisturbed_academy, hfails (fun hpasses => ?_), ?_⟩
  · obtain ⟨g, hg, hok⟩ := Settings.passes_iff.1 hpasses
    rw [Graph.parse_academyText] at hg
    cases hg
    have hcollides : (Backend.java.emit .academy Graph.academy.report).diagnostics ≠ [] := by decide +kernel
    exact hcollides (hok.noCollision .java List.mem_cons_self)
  · have hheadlines : (Graph.academy.shown [.java]).map Diagnostic.headline =
        ["Error: [name-collision] School", "Error: [name-collision] School"] := by decide +kernel
    rw [← hheadlines]
    exact (hshows .academy Graph.parse_academyText).2

end Run
end Accessors
