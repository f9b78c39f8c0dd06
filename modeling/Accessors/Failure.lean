import Accessors.Diagnostic
import Accessors.Graph.Linking
/-!
# Failures

What stops a run, in the words that its user reads, and how failures and diagnostics are shown on a console.  A failure
in a model text and a diagnostic that points into it are shown under a headline, with what they say at their place in
the text.
-/
namespace Accessors

/-- What a failure is about. -/
inductive Failure.Kind where
  /-- The writing of a model text. -/
  | writing (span : Span)
  /-- The names in a model text. -/
  | model (span : Span)
  /-- The settings file at `path`. -/
  | settings (path : String)
  /-- Reading and writing files. -/
  | files
deriving DecidableEq

structure Failure where
  kind : Failure.Kind
  message : String
deriving DecidableEq

namespace Failure

def ofSyntax (f : Located SyntaxFault) : Failure := ⟨.writing f.span, f.value.message⟩

def ofModel (f : Located ModelFault) : Failure := ⟨.model f.span, f.value.message⟩

/-- The message with a lead that tells what it is about. -/
def text (f : Failure) : String :=
  match f.kind with
  | .writing _ => "Syntax error: " ++ f.message
  | .model _ => "Model error: " ++ f.message
  | .settings _ => "Config error: " ++ f.message
  | .files => "I/O error: " ++ f.message

/-- A headline, and below it a message at its place in a text and a note.  The ends of the place are counted in
characters.  A place that is not in the text is passed over with all that is said there; if it only reaches one
character too far, the note stays. -/
def pointing (headline text : String) (span : Span) (message : String) (note : Option String) : List String :=
  let place := "at " ++ toString span.start ++ ".." ++ toString span.stop ++ ": "
  if text.length < span.start ∨ text.length + 1 < span.stop then [headline]
  else
    headline :: (if span.stop ≤ text.length then ["  | " ++ place ++ message] else []) ++
      note.toList.map ("  | note: " ++ ·)

theorem head?_pointing {headline text : String} {span : Span} {message : String} {note : Option String} :
    (pointing headline text span message note).head? = some headline := by
  unfold pointing
  dsimp only
  split <;> rfl

/-- What a console shows of a failure of the model in `file`, which holds `text`. -/
def lines (file text : String) (f : Failure) : List String :=
  match f.kind with
  | .writing span => pointing ("Error: syntax error in " ++ file) text span f.message none
  | .model span => pointing ("Error: model error in " ++ file) text span f.message none
  | .settings path => ["error[config]: " ++ f.message, "  --> " ++ path]
  | .files => ["error: " ++ f.message]

end Failure

/-- The word that a headline starts with. -/
def Severity.heading : Severity → String
  | warning => "Warning"
  | error => "Error"

namespace Diagnostic

/-- The line that a diagnostic is known by on a console.  Without a place to point at it says all there is to say. -/
def headline (d : Diagnostic) : String :=
  match d.span with
  | some _ => d.severity.heading ++ ": [" ++ d.cause.kind ++ "] " ++ d.owner
  | none => d.text

/-- What a console shows of a diagnostic of the model that holds `text`.  At a place there is room for one note: the last
of the trails. -/
def lines (text : String) (d : Diagnostic) : List String :=
  match d.span with
  | some span =>
    Failure.pointing d.headline text span d.cause.message (d.cause.chains.getLast?.map ("via " ++ ·))
  | none => d.headline :: d.cause.chains.map ("  = via " ++ ·)

/-- **Every diagnostic is shown**, by its headline at least. -/
theorem head?_lines (text : String) (d : Diagnostic) : (d.lines text).head? = some d.headline := by
  unfold lines
  split
  · exact Failure.head?_pointing
  · rfl

end Diagnostic

/-- The graph of a model text, or what is wrong with the text. -/
def Graph.parse (text : String) : Except Failure Graph :=
  match Source.parse text with
  | .error f => .error (.ofSyntax f)
  | .ok s => (Graph.ofSource s).mapError .ofModel

end Accessors
