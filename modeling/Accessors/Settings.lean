import Accessors.Backend
import Accessors.Failure
import Accessors.Path
import Accessors.Text.Quoted
import Accessors.Toml.Document
/-!
# Settings

What a run can be told in a settings file: the backends, the directory that files are written to, whether types may be
worked on side by side, and whether warnings count as errors.  The first thing in the file that is not as expected is
reported.
-/
namespace Accessors

structure Settings where
  backends : List Backend
  output : String
  /-- Types do not depend on each other's results, so nothing but speed can hang on this. -/
  parallel : Bool
  denyWarnings : Bool
deriving DecidableEq

/-- What can be wrong with a settings file. -/
inductive SettingsFault where
  /-- It is not TOML, or a list that stands for a table is too short. -/
  | malformed
  | unknownField (name : String) (allowed : List String)
  | wrongType (found expected : String)
  | noBackend
  | unknownBackend (name : String)
deriving DecidableEq

namespace Settings

def fileName : String := "modelc.toml"

/-- The output directory where none is set. -/
def defaultOutput : String := "generated"

/-- The settings of a run without a file. -/
def default : Settings := ⟨[.python], defaultOutput, true, false⟩

def tables : List String := ["generate", "diagnostics"]

def generateFields : List String := ["backends", "output", "parallel"]

def diagnosticsFields : List String := ["deny_warnings"]

end Settings

/-- Names in backquotes as a choice. -/
def choice (names : List String) : String :=
  match names.map fun n => "`" ++ n ++ "`" with
  | [a, b] => a ++ " or " ++ b
  | [a] => a
  | quoted => "one of " ++ ", ".intercalate quoted

namespace SettingsFault

def message : SettingsFault → String
  | malformed => "invalid " ++ Settings.fileName ++ ": <toml>"
  | unknownField name allowed =>
    "invalid " ++ Settings.fileName ++ ": unknown field `" ++ name ++ "`, expected " ++ choice allowed
  | wrongType found expected =>
    "invalid " ++ Settings.fileName ++ ": invalid type: " ++ found ++ ", expected " ++ expected
  | noBackend => "at least one backend must be listed"
  | unknownBackend name =>
    "unknown backend '" ++ name ++ "'; expected one of " ++ ", ".intercalate (Backend.all.map Backend.name)

def failure (path : String) (f : SettingsFault) : Failure := ⟨.settings path, f.message⟩

end SettingsFault

/-- How a message shows a value of the wrong type. -/
def Toml.Value.describe : Toml.Value → String
  | text s => "string " ++ quoted s
  | integer n => "integer `" ++ toString n ++ "`"
  | real x => "floating point `" ++ x.text ++ "`"
  | boolean b => "boolean `" ++ (if b then "true" else "false") ++ "`"
  | array _ => "sequence"
  | moment | table _ => "map"

/-- What comes of reading settings. -/
abbrev SettingsReading := Except SettingsFault

namespace Settings

open Toml (Value)

def readText : Value → SettingsReading String
  | .text s => .ok s
  | v => .error (.wrongType v.describe "a string")

def readFlag : Value → SettingsReading Bool
  | .boolean b => .ok b
  | v => .error (.wrongType v.describe "a boolean")

def readTexts : Value → SettingsReading (List String)
  | .array items => items.mapM readText
  | v => .error (.wrongType v.describe "a sequence")

/-- What a file sets, as it is written there. -/
structure Written where
  backends : Option (List String)
  output : Option String
  parallel : Option Bool
  denyWarnings : Bool

namespace Written

def nothing : Written := ⟨none, none, none, false⟩

def readGenerateField (w : Written) (name : String) (v : Value) : SettingsReading Written :=
  match name with
  | "backends" => (readTexts v).map fun names => { w with backends := some names }
  | "output" => (readText v).map fun s => { w with output := some s }
  | "parallel" => (readFlag v).map fun b => { w with parallel := some b }
  | _ => .error (.unknownField name generateFields)

def readDiagnosticsField (w : Written) (name : String) (v : Value) : SettingsReading Written :=
  match name with
  | "deny_warnings" => (readFlag v).map fun b => { w with denyWarnings := b }
  | _ => .error (.unknownField name diagnosticsFields)

/-- A date or time counts as a table with one field of a reserved name. -/
def momentField : String := "$__toml_private_datetime"

/-- A list of values for the fields in order.  Values beyond the fields are ignored; where values are missing, that is
noticed only after those that are there were read. -/
def readInOrder (readField : Written → String → Value → SettingsReading Written) (mayBeShort : Bool) (w : Written)
    (fields : List String) (items : List Value) : SettingsReading Written := do
  let w ← (fields.zip items).foldlM (fun w (name, v) => readField w name v) w
  if items.length < fields.length ∧ mayBeShort = false then .error .malformed else return w

/-- A table of fields, or a list of their values. -/
def readFields (readField : Written → String → Value → SettingsReading Written) (fields : List String)
    (mayBeShort : Bool) (expected : String) (w : Written) : Value → SettingsReading Written
  | .table entries => entries.foldlM (fun w (name, v) => readField w name v) w
  | .array items => readInOrder readField mayBeShort w fields items
  | .moment => .error (.unknownField momentField fields)
  | v => .error (.wrongType v.describe expected)

def readTable (w : Written) (name : String) (v : Value) : SettingsReading Written :=
  match name with
  | "generate" => readFields readGenerateField generateFields false "struct TomlGenerate" w v
  | "diagnostics" => readFields readDiagnosticsField diagnosticsFields true "struct TomlDiagnostics" w v
  | _ => .error (.unknownField name tables)

def parse (text : String) : SettingsReading Written :=
  match Toml.parse? text with
  | none => .error .malformed
  | some entries => entries.foldlM (fun w (name, v) => readTable w name v) nothing

end Written

def backendNamed (name : String) : SettingsReading Backend :=
  match Backend.ofName? name with
  | some b => .ok b
  | none => .error (.unknownBackend name)

/-- The backends that are listed, each once. -/
def chosenBackends : Option (List String) → SettingsReading (List Backend)
  | none => .ok default.backends
  | some [] => .error .noBackend
  | some names => (names.mapM backendNamed).map List.eraseDups

/-- The settings that a file with this text makes.  A relative output directory starts at `base`. -/
def parse (text base : String) : SettingsReading Settings := do
  let w ← Written.parse text
  let backends ← chosenBackends w.backends
  return {
    backends
    output := Path.join base (w.output.getD defaultOutput)
    parallel := w.parallel.getD default.parallel
    denyWarnings := w.denyWarnings }

end Settings
end Accessors
