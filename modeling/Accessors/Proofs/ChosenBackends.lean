import Accessors.Proofs.ExitCodes
/-!
# Which backends run

A run goes through the backends on its command line, or else through those of its settings, in order.  A settings file
that mentions a backend again mentions it in vain; a command line does not: the run goes through the backend once more,
says so, and counts its name collisions again (`Run.run_repeats_backend`).  So such a run is told apart by what it says
from the run that is given each backend once, but not by how it ends, nor by the files that it leaves
(`Run.run_goes_through_chosen_backends`).
-/
namespace Accessors

/-- These names, one after the other, mean these backends. -/
def Backend.Mentioned (names : List String) (bs : List Backend) : Prop := names.map ofName? = bs.map some

theorem Backend.mentioned_cons {name : String} {names : List String} {bs : List Backend} :
    Mentioned (name :: names) bs ↔ ∃ b rest, bs = b :: rest ∧ ofName? name = some b ∧ Mentioned names rest := by
  unfold Mentioned
  cases bs with
  | nil => exact iff_of_false (fun h => by cases h) (fun ⟨_, _, h, _⟩ => by cases h)
  | cons b rest =>
    rw [List.map_cons, List.map_cons, List.cons.injEq]
    exact ⟨fun h => ⟨b, rest, rfl, h⟩, fun ⟨_, _, heq, h⟩ => by cases heq; exact h⟩

/-! ## Backends of a settings file -/

namespace Settings

theorem backendNamed_eq_ok {name : String} {b : Backend} :
    backendNamed name = .ok b ↔ Backend.ofName? name = some b := by
  unfold backendNamed
  cases Backend.ofName? name with
  | none => exact iff_of_false (fun h => by cases h) (fun h => by cases h)
  | some c => simp

theorem mentioned_of_mapM_eq_ok {names : List String} {bs : List Backend} (h : names.mapM backendNamed = .ok bs) :
    Backend.Mentioned names bs := by
  have hnamed := forall₂_of_mapM_eq_ok backendNamed h
  clear h
  induction hnamed with
  | nil => rfl
  | cons hb _ ih => exact Backend.mentioned_cons.2 ⟨_, _, rfl, backendNamed_eq_ok.1 hb, ih⟩

/-- **The backends of a settings file** are Python alone, or those that it mentions, each where it is mentioned first. -/
theorem backends_of_parse {toml base : String} {s : Settings} (h : parse toml base = .ok s) :
    ∃ w, Written.parse toml = .ok w ∧ ((w.backends = none ∧ s.backends = [.python]) ∨
      ∃ names bs, w.backends = some names ∧ Backend.Mentioned names bs ∧ s.backends = bs.eraseDups) := by
  unfold parse at h
  rw [except_bind_eq_ok] at h
  obtain ⟨w, hw, h⟩ := h
  rw [except_bind_eq_ok] at h
  obtain ⟨chosen, hchosen, h⟩ := h
  cases h
  refine ⟨w, hw, ?_⟩
  dsimp only
  cases hnames : w.backends with
  | none =>
    rw [hnames] at hchosen
    cases hchosen
    exact .inl ⟨rfl, rfl⟩
  | some names =>
    rw [hnames] at hchosen
    cases names with
    | nil => cases hchosen
    | cons name names =>
      change ((name :: names).mapM backendNamed).map List.eraseDups = .ok chosen at hchosen
      cases hmentioned : (name :: names).mapM backendNamed with
      | error f => rw [hmentioned] at hchosen; cases hchosen
      | ok bs =>
        rw [hmentioned] at hchosen
        cases hchosen
        exact .inr ⟨_, bs, rfl, mentioned_of_mapM_eq_ok hmentioned, rfl⟩

theorem nodup_backends_of_parse {toml base : String} {s : Settings} (h : parse toml base = .ok s) :
    s.backends.Nodup := by
  obtain ⟨w, -, ⟨-, hbs⟩ | ⟨names, bs, -, -, hbs⟩⟩ := backends_of_parse h
  · rw [hbs]
    exact List.nodup_singleton _
  · rw [hbs]
    exact nodup_eraseDups bs

end Settings

/-! ## Backends of a command line -/

namespace CommandLine

theorem foldlM_cons_of_ok {ε α β : Type} {f : β → α → Except ε β} {a : α} {b c : β} (h : f b a = .ok c) (l : List α) :
    (a :: l).foldlM f b = l.foldlM f c := by
  rw [List.foldlM_cons, h]
  rfl

theorem form_of_ofName? {name : String} {b : Backend} (h : Backend.ofName? name = some b) : Form.of name = .word name := by
  unfold Backend.ofName? at h
  split at h
  · rename_i hname
    rcases hname with rfl | rfl <;> rfl
  · split at h
    · rename_i hname
      rw [hname]
      rfl
    · cases h

/-- **Each `-b` adds the backend that it names** behind those before. -/
theorem foldlM_step_backends {verbose : Bool} : ∀ {names : List String} {bs : List Backend} (o : Options),
    Backend.Mentioned names bs → (names.flatMap fun name => ["-b", name]).foldlM Progress.step
      (.options .generate verbose o none) = .ok (.options .generate verbose { o with backends := o.backends ++ bs } none)
  | [], bs, o, h => by
    cases List.map_eq_nil_iff.1 h.symm
    rw [List.append_nil]
    rfl
  | name :: names, bs, o, h => by
    obtain ⟨b, rest, rfl, hb, hrest⟩ := Backend.mentioned_cons.1 h
    have hoption : Progress.step (.options .generate verbose o none) "-b" =
        .ok (.options .generate verbose o (some ("-b", .backend))) := rfl
    have hvalue : Progress.step (.options .generate verbose o (some ("-b", .backend))) name =
        .ok (.options .generate verbose { o with backends := o.backends ++ [b] } none) := by
      unfold Progress.step Options.addSetting
      simp only [form_of_ofName? hb, hb]
      rfl
    rw [List.flatMap_cons, List.cons_append, List.cons_append, List.nil_append, foldlM_cons_of_ok hoption,
      foldlM_cons_of_ok hvalue, foldlM_step_backends _ hrest, List.append_assoc, List.singleton_append]

/-- **A model and some backends on the command line** are what is asked for, each backend as often as it is named. -/
theorem parse_backends {model : String} {names : List String} {bs : List Backend} (hmodel : model ≠ "")
    (hword : Form.of model = .word model) (h : Backend.Mentioned names bs) :
    parse ("generate" :: model :: names.flatMap fun name => ["-b", name]) =
      .ok (.generate model bs none none false false) := by
  have hcommand : Progress.step (.start false) "generate" = .ok (.options .generate false .start none) := rfl
  have hpath : Progress.step (.options .generate false .start none) model =
      .ok (.options .generate false { Options.start with model := some model } none) := by
    have hne : model.isEmpty = false := by simpa using hmodel
    unfold Progress.step Progress.stepOption Options.addWord
    simp only [hword, hne]
    rfl
  unfold parse
  rw [foldlM_cons_of_ok hcommand, foldlM_cons_of_ok hpath, foldlM_step_backends _ h]
  rfl

end CommandLine

/-! ## Files of several backends -/

theorem Path.isAbsolute_word_append {word more : String} (h : IsWord word) (hmore : isAbsolute more = false) :
    isAbsolute (word ++ more) = false := by
  unfold isAbsolute at hmore ⊢
  unfold IsWord at h
  rw [String.toList_append]
  cases hword : word.toList with
  | nil => exact hmore
  | cons c cs =>
    rw [hword] at h
    rw [List.cons_append, List.head?_cons]
    refine decide_eq_false (fun hc => ?_)
    cases hc
    exact absurd (h '/' List.mem_cons_self) (by decide)

namespace Backend

variable {g : Graph}

/-- **A file lies in its backend's directory**, so its path starts as the directory does. -/
theorem head?_path_of_mem_emit (hg : g.Worded) {b : Backend} {f : GeneratedFile} (hf : f ∈ (b.emit g g.report).files) :
    f.path.toList.head? = b.directory.toList.head? := by
  rw [files_emit] at hf
  obtain ⟨t, -, hf⟩ := List.mem_flatMap.1 hf
  obtain ⟨n, ms, hn, -, -, rfl⟩ := mem_filesFor.1 hf
  have hname : IsWord n.name := hg.types n (List.mem_of_getElem? hn)
  have hrelative : Path.isAbsolute (b.fileName n) = false := by
    cases b with
    | python => exact Path.isAbsolute_word_append (Name.isWord_snake hname) (by decide)
    | java => exact Path.isAbsolute_word_append hname (by decide)
  have hpath : Path.join b.directory (b.fileName n) = b.directory ++ "/" ++ b.fileName n := by
    unfold Path.join
    rw [hrelative, if_neg Bool.false_ne_true, if_neg (by cases b <;> decide)]
  show (Path.join b.directory (b.fileName n)).toList.head? = _
  rw [hpath, String.append_assoc, String.toList_append, List.head?_append_of_ne_nil _ (by cases b <;> decide)]

theorem eq_of_path_eq (hg : g.Worded) {b c : Backend} {f f' : GeneratedFile} (hf : f ∈ (b.emit g g.report).files)
    (hf' : f' ∈ (c.emit g g.report).files) (h : f.path = f'.path) : b = c := by
  have hhead : b.directory.toList.head? = c.directory.toList.head? := by
    rw [← head?_path_of_mem_emit hg hf, ← head?_path_of_mem_emit hg hf', h]
  cases b <;> cases c <;> first | rfl | exact absurd hhead (by decide)

/-- The last file that a run through these backends writes at a path. -/
def lastFile? (g : Graph) (bs : List Backend) (path : String) : Option GeneratedFile :=
  ((bs.flatMap fun b => (b.emit g g.report).files).filter (·.path = path)).getLast?

theorem lastFile?_append (bs cs : List Backend) (path : String) :
    lastFile? g (bs ++ cs) path = (lastFile? g cs path).or (lastFile? g bs path) := by
  unfold lastFile?
  rw [List.flatMap_append, List.filter_append, List.getLast?_append]

theorem lastFile?_eq_some {bs : List Backend} {path : String} {f : GeneratedFile} (h : lastFile? g bs path = some f) :
    f.path = path ∧ ∃ b ∈ bs, f ∈ (b.emit g g.report).files := by
  obtain ⟨hf, hpath⟩ := List.mem_filter.1 (List.mem_of_getLast? h)
  exact ⟨of_decide_eq_true hpath, List.mem_flatMap.1 hf⟩

/-- **A file is left as one backend leaves it**, the only one that writes at its path. -/
theorem lastFile?_eq_of_mem (hg : g.Worded) {b : Backend} {path : String} {f : GeneratedFile}
    (hf : lastFile? g [b] path = some f) : ∀ {bs : List Backend}, b ∈ bs → lastFile? g bs path = some f := by
  intro bs hb
  induction bs with
  | nil => cases hb
  | cons c bs ih =>
    rw [← List.singleton_append, lastFile?_append]
    cases hrest : lastFile? g bs path with
    | some f' =>
      -- the two files lie at one path, so they are of one backend
      obtain ⟨hpath, b', hb', hf'⟩ := lastFile?_eq_some hrest
      obtain ⟨hpath', b'', hb'', hf''⟩ := lastFile?_eq_some hf
      cases List.mem_singleton.1 hb''
      cases eq_of_path_eq hg hf' hf'' (hpath.trans hpath'.symm)
      rw [← hrest, ih hb']
      rfl
    | none =>
      rcases List.mem_cons.1 hb with rfl | hb
      · rw [hf]
        rfl
      · rw [ih hb] at hrest
        cases hrest

/-- **Only which backends run decides about the files**, not in which order and how often. -/
theorem lastFile?_congr (hg : g.Worded) {bs cs : List Backend} (h : ∀ b, b ∈ bs ↔ b ∈ cs) (path : String) :
    lastFile? g bs path = lastFile? g cs path := by
  have hsome : ∀ {bs cs : List Backend}, (∀ b, b ∈ bs ↔ b ∈ cs) → ∀ {f}, lastFile? g bs path = some f →
      lastFile? g cs path = some f := by
    intro bs cs h f hf
    obtain ⟨hpath, b, hb, hmem⟩ := lastFile?_eq_some hf
    cases hone : lastFile? g [b] path with
    | none =>
      have hnone := List.filter_eq_nil_iff.1 (List.getLast?_eq_none_iff.1 hone)
      rw [List.flatMap_singleton] at hnone
      exact absurd (decide_eq_true hpath) (hnone f hmem)
    | some f' =>
      rw [lastFile?_eq_of_mem hg hone hb] at hf
      cases hf
      exact lastFile?_eq_of_mem hg hone ((h b).1 hb)
  refine Option.ext (fun f => ⟨fun hf => ?_, fun hf => ?_⟩)
  · exact hsome h hf
  · exact hsome (fun b => (h b).symm) hf

end Backend

/-! ## Runs -/

/-- The backends that a run goes through: those of its command line, or else those of the settings that it finds. -/
def Settings.chosen (found : Settings) (flags : List Backend) : List Backend :=
  if flags.isEmpty then found.backends else flags

/-- Given each backend that it goes through once on its command line, a run goes through just these. -/
theorem Settings.chosen_eraseDups (found : Settings) (flags : List Backend) :
    found.chosen (found.chosen flags).eraseDups = (found.chosen flags).eraseDups := by
  unfold chosen
  cases flags with
  | cons b flags => simp only [List.isEmpty_cons, Bool.false_eq_true, if_false, List.eraseDups_cons]
  | nil =>
    simp only [List.isEmpty_nil, if_true]
    cases found.backends with
    | nil => rfl
    | cons b bs => simp only [List.isEmpty_cons, Bool.false_eq_true, if_false, List.eraseDups_cons]

theorem length_flatMap_lt_of_sublist {α β : Type} {f : α → List β} (hf : ∀ a, f a ≠ []) {l l' : List α}
    (h : l.Sublist l') (hne : l ≠ l') : (l.flatMap f).length < (l'.flatMap f).length := by
  induction h with
  | slnil => exact absurd rfl hne
  | @cons l l' a h ih =>
    have hle : (l.flatMap f).length ≤ (l'.flatMap f).length := (h.flatMap f).length_le
    have ha := List.length_pos_of_ne_nil (hf a)
    rw [List.flatMap_cons, List.length_append]
    omega
  | @cons_cons l l' a _ ih =>
    have hrest := ih (fun heq => hne (by rw [heq]))
    rw [List.flatMap_cons, List.flatMap_cons, List.length_append, List.length_append]
    omega

namespace Run

open CommandLine (Request)

variable {σ : Type} [FileAccess (StateM σ)] {found : Settings} {text : String} {g : Graph}

/-- **Settings that are found** mention no backend twice. -/
theorem nodup_backends_of_readSettings {path : String} {t t' : σ}
    (h : (readSettings path : StateM σ _).run t = (.ok found, t')) : found.backends.Nodup := by
  unfold readSettings at h
  obtain ⟨toml, u, -, h⟩ := exists_ok_of_run_bind (fun _ _ _ _ h => by cases h) h
  change ((Settings.parse toml (directoryOf path)).mapError _, u) = _ at h
  cases hparse : Settings.parse toml (directoryOf path) with
  | error f => rw [hparse] at h; cases h
  | ok s =>
    rw [hparse] at h
    cases h
    exact Settings.nodup_backends_of_parse hparse

theorem nodup_backends_of_findSettings {model : String} {config : Option String} {t t' : σ}
    (h : (findSettings model config : StateM σ _).run t = (.ok found, t')) : found.backends.Nodup := by
  cases config with
  | some path => exact nodup_backends_of_readSettings h
  | none =>
    unfold findSettings at h
    dsimp only at h
    obtain ⟨isFile, u, -, h⟩ := exists_of_run_bind h
    cases isFile with
    | true => exact nodup_backends_of_readSettings h
    | false =>
      cases h
      exact List.nodup_singleton _

/-- Whether a graph is accepted depends only on which backends there are. -/
theorem accepted_eraseDups {bs : List Backend} {denyWarnings : Bool} :
    g.Accepted bs.eraseDups denyWarnings ↔ g.Accepted bs denyWarnings := by
  constructor
  · exact fun h => ⟨h.noConflict, fun b hb => h.noCollision b (List.mem_eraseDups.2 hb), h.noDenied⟩
  · exact fun h => ⟨h.noConflict, fun b hb => h.noCollision b (List.mem_eraseDups.1 hb), h.noDenied⟩

theorem isSome_verdict?_eraseDups (bs : List Backend) :
    (verdict? ⟨found, text, g, g.report⟩ (collisions ⟨found, text, g, g.report⟩ bs.eraseDups)).isSome =
      (verdict? ⟨found, text, g, g.report⟩ (collisions ⟨found, text, g, g.report⟩ bs)).isSome := by
  rw [Bool.eq_iff_iff, Option.isSome_iff_ne_none, Option.isSome_iff_ne_none, Ne, Ne, verdict?_eq_none_iff,
    verdict?_eq_none_iff, accepted_eraseDups]

/-- What a run through these backends prints: what it says about the files of each, everything that is found, and the
verdict. -/
def printed (found : Settings) (text : String) (g : Graph) (output : String) (verbose : Bool) (bs : List Backend) :
    List String :=
  (bs.flatMap fun b =>
    writtenLines b output verbose ((b.emit g g.report).files.map fun f => Path.join output f.path)) ++
  (g.shown bs).flatMap (Diagnostic.lines text) ++
  (verdict? ⟨found, text, g, g.report⟩ (collisions ⟨found, text, g, g.report⟩ bs)).toList

/-- **A backend that runs again says so**: less is printed by the run that goes through each backend once. -/
theorem length_printed_eraseDups_lt {output : String} {verbose : Bool} {bs : List Backend} (h : ¬ bs.Nodup) :
    (printed found text g output verbose bs.eraseDups).length < (printed found text g output verbose bs).length := by
  have hsub := eraseDups_sublist bs
  have hne : bs.eraseDups ≠ bs := fun heq => h (eraseDups_eq_self_iff.1 heq)
  have hnotes := length_flatMap_lt_of_sublist (f := fun b =>
    writtenLines b output verbose ((b.emit g g.report).files.map fun f => Path.join output f.path))
    (fun b => by unfold writtenLines; exact List.append_ne_nil_of_right_ne_nil _ (List.cons_ne_nil _ _)) hsub hne
  have hshown : ((g.shown bs.eraseDups).flatMap (Diagnostic.lines text)).length ≤
      ((g.shown bs).flatMap (Diagnostic.lines text)).length :=
    (((List.Sublist.refl _).append (hsub.flatMap _)).flatMap _).length_le
  have hverdict : (verdict? ⟨found, text, g, g.report⟩
      (collisions ⟨found, text, g, g.report⟩ bs.eraseDups)).toList.length =
      (verdict? ⟨found, text, g, g.report⟩ (collisions ⟨found, text, g, g.report⟩ bs)).toList.length := by
    rw [Option.length_toList, Option.length_toList, isSome_verdict?_eraseDups]
  unfold printed
  rw [List.length_append, List.length_append, List.length_append, List.length_append, hverdict]
  omega

section Generate

variable {model : String} {flags : List Backend} {output config : Option String} {sequential verbose : Bool} {t : σ}
  (h : Undisturbed (.generate model flags output config sequential verbose) found text t)
  (hparse : Graph.parse text = .ok g)

include h hparse

/-- **An undisturbed run that generates files** stores those of its backends one after the other. -/
theorem Undisturbed.exists_run_generate : ∃ t₂,
    Stored (output.getD found.output) ((found.chosen flags).flatMap fun b => (b.emit g g.report).files) t₂
      ((perform (.generate model flags output config sequential verbose) : StateM σ _).run t).2 ∧
    ((perform (.generate model flags output config sequential verbose) : StateM σ _).run t).1.errors =
      printed found text g (output.getD found.output) verbose (found.chosen flags) ∧
    ((perform (.generate model flags output config sequential verbose) : StateM σ _).run t).1.exitCode =
      if (verdict? ⟨found, text, g, g.report⟩
        (collisions ⟨found, text, g, g.report⟩ (found.chosen flags))).isSome then 1 else 0 := by
  obtain ⟨_, t₂, t₃, -, -, hstored, hrun⟩ := h.run_generate hparse rfl
  refine ⟨t₂, ?_, ?_, ?_⟩
  · rw [hrun]
    exact hstored
  · rw [hrun, errors_conclude]
    rfl
  · rw [hrun]
    rfl

/-- **A run goes through its backends in order**: those of its command line, which are as many as it names, or else those
of its settings, of which no two are the same.  It stores the files of each and prints what it says about each.  So it
ends with the same code as the run that is given each of these backends once, and leaves the same last file at each path;
and it prints the same just if no backend is given twice. -/
theorem run_goes_through_chosen_backends {args : List String}
    (hargs : CommandLine.parse args = .ok (.generate model flags output config sequential verbose)) :
    (∀ {toml base : String} {s : Settings}, Settings.parse toml base = .ok s →
      ∃ w, Settings.Written.parse toml = .ok w ∧ ((w.backends = none ∧ s.backends = [.python]) ∨
        ∃ names bs, w.backends = some names ∧ Backend.Mentioned names bs ∧ s.backends = bs.eraseDups)) ∧
    (∀ {path : String} {names : List String} {bs : List Backend}, path ≠ "" →
      CommandLine.Form.of path = .word path → Backend.Mentioned names bs →
      CommandLine.parse ("generate" :: path :: names.flatMap fun name => ["-b", name]) =
        .ok (.generate path bs none none false false)) ∧
    found.backends.Nodup ∧
    (∃ t₂, Stored (output.getD found.output) ((found.chosen flags).flatMap fun b => (b.emit g g.report).files) t₂
      ((run args : StateM σ _).run t).2) ∧
    ((run args : StateM σ _).run t).1.errors =
      printed found text g (output.getD found.output) verbose (found.chosen flags) ∧
    (∀ {once : List String}, CommandLine.parse once =
        .ok (.generate model (found.chosen flags).eraseDups output config sequential verbose) →
      Undisturbed (.generate model (found.chosen flags).eraseDups output config sequential verbose) found text t →
      ((run once : StateM σ _).run t).1.exitCode = ((run args : StateM σ _).run t).1.exitCode ∧
      (((run once : StateM σ _).run t).1.errors = ((run args : StateM σ _).run t).1.errors ↔
        (found.chosen flags).Nodup)) ∧
    ∀ path, Backend.lastFile? g (found.chosen flags).eraseDups path =
      Backend.lastFile? g (found.chosen flags) path := by
  obtain ⟨t₂, hstored, herrors, hcode⟩ := h.exists_run_generate hparse
  rw [run_eq_perform hargs]
  refine ⟨Settings.backends_of_parse, CommandLine.parse_backends, ?_, ⟨t₂, hstored⟩, herrors, fun {once} honce h' => ?_,
    Backend.lastFile?_congr (Graph.worded_of_parse hparse) (fun _ => List.mem_eraseDups)⟩
  · obtain ⟨t₁, -, hfound, -⟩ := h.read
    exact nodup_backends_of_findSettings hfound
  · obtain ⟨-, -, herrors', hcode'⟩ := h'.exists_run_generate hparse
    rw [run_eq_perform honce, hcode, hcode', herrors, herrors', Settings.chosen_eraseDups, isSome_verdict?_eraseDups]
    refine ⟨rfl, ?_⟩
    constructor
    · intro heq
      by_contra hrepeats
      exact absurd (congrArg List.length heq) (length_printed_eraseDups_lt hrepeats).ne
    · exact fun hnodup => by rw [eraseDups_eq_self_iff.2 hnodup]

end Generate

/-- Java twice on the command line: the run prints more than the one with Java once. -/
theorem run_goes_through_chosen_backends_academy :
    ((run ["generate", "model", "-b", "java"] : StateM FileTree _).run .academy).1.exitCode =
      ((run ["generate", "model", "-b", "java", "-b", "java"] : StateM FileTree _).run .academy).1.exitCode ∧
    ((run ["generate", "model", "-b", "java"] : StateM FileTree _).run .academy).1.errors ≠
      ((run ["generate", "model", "-b", "java", "-b", "java"] : StateM FileTree _).run .academy).1.errors := by
  have hmodel : "model" ≠ "" := by decide
  have hnames : Backend.Mentioned ["java", "java"] [.java, .java] := rfl
  have hname : Backend.Mentioned ["java"] [.java] := rfl
  have htwice := CommandLine.parse_backends hmodel rfl hnames
  have hundisturbed : Undisturbed (.generate "model" [.java, .java] none none false false) academySettings
      Source.academyText FileTree.academy := undisturbed_academy_of (List.cons_ne_nil _ _) (by decide +kernel)
  obtain ⟨-, hline, -, -, -, hcompare, -⟩ :=
    run_goes_through_chosen_backends hundisturbed Graph.parse_academyText htwice
  obtain ⟨hcode, herrors⟩ := hcompare (hline hmodel rfl hname) undisturbed_academy
  exact ⟨hcode, fun heq => absurd (herrors.1 heq) (by decide)⟩

/-- **A backend under its two names runs twice**, and its name collisions count twice. -/
theorem run_repeats_backend : Backend.Mentioned ["python", "py"] [.python, .python] ∧
    ((run ["generate", "model", "-b", "python", "-b", "py"] : StateM FileTree _).run .academy).1.errors.count
      "python: 1 file(s) written to generated" = 2 ∧
    ((run ["generate", "model", "-b", "python"] : StateM FileTree _).run .academy).1.errors.count
      "python: 1 file(s) written to generated" = 1 ∧
    ((run ["generate", "model", "-b", "python", "-b", "py"] : StateM FileTree _).run .academy).1.errors.getLast? =
      some "error: 4 method name collision(s); affected types were not written" ∧
    ((run ["generate", "model", "-b", "python"] : StateM FileTree _).run .academy).1.errors.getLast? =
      some "error: 2 method name collision(s); affected types were not written" := by
  refine ⟨rfl, ?_⟩
  decide +kernel

end Run

end Accessors
