import Accessors.CommandLine
import Accessors.Emission
import Accessors.FileAccess
import Accessors.Report.Json
import Accessors.Settings
import Accessors.Text.Lines
/-!
# Runs of the program

What a run reads, what it writes, what it prints and how it ends, over any file system.  Settings are read before the
model; a failure ends a run at once, while diagnostics are printed at its end.
-/
namespace Accessors

/-- What is left of a run besides the files it wrote. -/
structure Outcome where
  exitCode : Nat
  output : String
  /-- The lines on standard error. -/
  errors : List String

namespace Run

open CommandLine (Request)

/-- A model's file: its name and what it holds. -/
structure ModelFile where
  name : String
  text : String

/-- A failure, and the model's file if it is shown as a failure of the model's text. -/
structure Stop where
  failure : Failure
  model : Option ModelFile

/-- What is printed of a failure. -/
def Stop.lines (s : Stop) : List String :=
  match s.model with
  | some file => s.failure.lines file.name file.text
  | none => ["error: " ++ s.failure.text]

/-- The directory of a file. -/
def directoryOf (path : String) : String := (Path.parent? path).getD "."

/-- The settings of a run for which no settings file is found: files go next to the model. -/
def settingsBeside (model : String) : Settings :=
  { Settings.default with output := Path.join (directoryOf model) Settings.defaultOutput }

section

variable {m : Type → Type} [Monad m] [FileAccess m]

def readSettings (path : String) : m (Except Failure Settings) := do
  match ← FileAccess.read path with
  | .error fault => return .error ⟨.settings path, "cannot read " ++ path ++ ": " ++ fault.message⟩
  | .ok text => return (Settings.parse text (directoryOf path)).mapError (SettingsFault.failure path)

/-- The settings from the file that is asked for, or else from the one next to the model, or else those without a
file. -/
def findSettings (model : String) (config : Option String) : m (Except Failure Settings) := do
  match config with
  | some path => readSettings path
  | none =>
    let path := Path.join (directoryOf model) Settings.fileName
    if ← FileAccess.isFile path then readSettings path else return .ok (settingsBeside model)

/-- A model that was read: the settings for it, its text, its graph, and the report on that. -/
structure Loaded where
  settings : Settings
  text : String
  graph : Graph
  report : Report

def load (model : String) (config : Option String) : m (Except Stop Loaded) := do
  match ← findSettings model config with
  | .error f => return .error ⟨f, none⟩
  | .ok settings =>
    match ← FileAccess.read model with
    | .error fault => return .error ⟨⟨.files, "cannot read " ++ model ++ ": " ++ fault.message⟩, none⟩
    | .ok text =>
      match Graph.parse text with
      | .error f => return .error ⟨f, some ⟨model, text⟩⟩
      | .ok graph => return .ok ⟨settings, text, graph, graph.report⟩

/-- Writes one file below a directory, and gives its path. -/
def writeFile (output : String) (f : GeneratedFile) : m (Except Failure String) := do
  let path := Path.join output f.path
  let parent := Path.parent? path
  let made ← match parent with
    | some directory => FileAccess.makeDirectories directory
    | none => pure (.ok ())
  match made with
  | .error fault => return .error ⟨.files, "failed to create " ++ parent.getD "" ++ ": " ++ fault.message⟩
  | .ok () =>
    match ← FileAccess.write path f.contents with
    | .error fault => return .error ⟨.files, "failed to write " ++ path ++ ": " ++ fault.message⟩
    | .ok () => return .ok path

/-- Writes files until one cannot be written, and gives the paths of those that were. -/
def writeFiles (output : String) : List GeneratedFile → m (Except Failure (List String))
  | [] => return .ok []
  | f :: rest => do
    match ← writeFile output f with
    | .error e => return .error e
    | .ok path => return (← writeFiles output rest).map (path :: ·)

/-- What is said about the files of one backend. -/
def writtenLines (b : Backend) (output : String) (verbose : Bool) (paths : List String) : List String :=
  (if verbose then paths.map ("  | wrote " ++ ·) else []) ++
    [b.name ++ ": " ++ toString paths.length ++ " file(s) written to " ++ output]

/-- Writes the files of one backend after the other until one cannot be written.  Gives the lines to print, and the
failure if there is one. -/
def writeBackends (l : Loaded) (output : String) (verbose : Bool) : List Backend → m (List String × Option Failure)
  | [] => return ([], none)
  | b :: rest => do
    match ← writeFiles output (b.emit l.graph l.report).files with
    | .error f => return ([], some f)
    | .ok paths =>
      let (lines, failure) ← writeBackends l output verbose rest
      return (writtenLines b output verbose paths ++ lines, failure)

end

/-- The name collisions of all backends in order. -/
def collisions (l : Loaded) (backends : List Backend) : List Diagnostic :=
  backends.flatMap fun b => (b.emit l.graph l.report).diagnostics

/-- Why a run that came to its end has not succeeded, if it has not. -/
def verdict? (l : Loaded) (collisions : List Diagnostic) : Option String :=
  if l.report.failed ≠ [] then
    some ("error: generation failed for " ++ ", ".intercalate (l.report.failed.map l.graph.name))
  else if collisions ≠ [] then
    some ("error: " ++ toString collisions.length ++ " method name collision(s); affected types were not written")
  else if l.settings.denyWarnings && l.report.hasWarnings then
    some "error: warnings are denied by configuration"
  else none

/-- The end of a run: all diagnostics, and the verdict. -/
def conclude (l : Loaded) (backends : List Backend) (output : String) (errors : List String) : Outcome :=
  let found := collisions l backends
  let verdict := verdict? l found
  { exitCode := if verdict.isSome then 1 else 0
    output
    errors := errors ++ (l.report.diagnostics ++ found).flatMap (Diagnostic.lines l.text) ++ verdict.toList }

/-- A method with its shape and where it comes from. -/
def methodLine (g : Graph) (m : Method) : String :=
  "  " ++ m.kind.text ++ " " ++ m.role ++ ": " ++ m.shape.describe g ++ "  ["
    ++ ", ".intercalate (m.provenance.describe g) ++ "]"

def typeLines (g : Graph) (r : TypeReport) : List String :=
  match g.node? r.owner with
  | none => []
  | some n =>
    let head := n.heritage.word ++ " " ++ n.name
    if r.failed then [head ++ " (failed)"] else head :: r.methods.map (methodLine g)

/-- What a check prints. -/
def checkText (l : Loaded) (json : Bool) : String :=
  if json then (l.report.json l.graph).pretty ++ "\n"
  else unlines (l.report.types.flatMap (typeLines l.graph))

section

variable {m : Type → Type} [Monad m] [FileAccess m]

/-- Does what is asked for. -/
def perform (r : Request) : m Outcome := do
  match r with
  | .generate model backends output config sequential verbose =>
    match ← load model config with
    | .error stop => return ⟨1, "", stop.lines⟩
    | .ok l =>
      let settings := { l.settings with
        backends := if backends.isEmpty then l.settings.backends else backends
        output := output.getD l.settings.output
        parallel := l.settings.parallel && !sequential }
      let (lines, failure) ← writeBackends l settings.output verbose settings.backends
      match failure with
      | some f => return ⟨1, "", lines ++ Stop.lines ⟨f, none⟩⟩
      | none => return conclude l settings.backends "" lines
  | .check model config json _ =>
    match ← load model config with
    | .error stop => return ⟨1, "", stop.lines⟩
    | .ok l => return conclude l l.settings.backends (checkText l json) []

/-- Runs the program with these arguments. -/
def run (args : List String) : m Outcome :=
  match CommandLine.parse args with
  | .ok request => perform request
  | .error (.shows topic) => return ⟨0, unlines topic.lines, []⟩
  | .error (.refused fault) => return ⟨2, "", ["error: " ++ fault.message]⟩

end

end Run
end Accessors
