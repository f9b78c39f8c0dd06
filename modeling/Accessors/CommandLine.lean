import Accessors.Backend
/-!
# The command line

What the arguments of the program ask for.  They are taken in from left to right; the first thing that is wrong, or that
asks for a text about the program, settles the matter.  Options may stand on either side of the model's path, and two
dashes end them.
-/
namespace Accessors
namespace CommandLine

/-- What can be wrong with the arguments. -/
inductive Fault where
  | noCommand
  | unknownCommand (arg : String)
  | unknownOption (arg : String)
  | repeatedOption (option : String)
  | missingValue (option : String)
  | unwantedValue (option : String)
  | unknownBackend (name : String)
  | noModel
  | extraArgument (arg : String)
deriving DecidableEq

def Fault.message : Fault → String
  | noCommand => "a command is required"
  | unknownCommand arg => "unrecognized command '" ++ arg ++ "'"
  | unknownOption arg => "unexpected option '" ++ arg ++ "'"
  | repeatedOption option => "the option '" ++ option ++ "' cannot be used multiple times"
  | missingValue option => "a value is required for '" ++ option ++ "'"
  | unwantedValue option => "no value is allowed in '" ++ option ++ "'"
  | unknownBackend name => "unknown backend '" ++ name ++ "'; expected 'python' or 'java'"
  | noModel => "the path of a model is required"
  | extraArgument arg => "unexpected argument '" ++ arg ++ "'"

/-- The commands that do work. -/
inductive Verb where
  | generate
  | check
deriving DecidableEq

def Verb.ofWord? (word : String) : Option Verb :=
  if word = "generate" then some .generate else if word = "check" then some .check else none

/-- A text about the program that can be asked for. -/
inductive Topic where
  | version
  | program
  | command (v : Verb)
  | help
deriving DecidableEq

/-- What settles a reading before all arguments are taken in. -/
inductive Settled where
  | refused (f : Fault)
  | shows (t : Topic)
deriving DecidableEq

abbrev Reading := Except Settled

def refuse {α : Type} (f : Fault) : Reading α := .error (.refused f)

/-! ### The form of an argument -/

inductive Form where
  /-- `--` -/
  | endOfOptions
  /-- `--name` or `--name=value` -/
  | long (name : String) (value : Option String)
  /-- `-xyz` -/
  | short (first : Char) (more : List Char)
  | word (text : String)

def Form.of (arg : String) : Form :=
  match arg.toList with
  | ['-', '-'] => .endOfOptions
  | '-' :: '-' :: rest =>
    let name := rest.takeWhile (· ≠ '=')
    .long (String.ofList name)
      (match rest.drop name.length with
        | [] => none
        | _ :: value => some (String.ofList value))
  | '-' :: first :: more => .short first more
  | _ => .word arg

/-! ### Options of a command -/

/-- Options without a value. -/
inductive Switch where
  | verbose
  | sequential
  | json
deriving DecidableEq

/-- Options with a value. -/
inductive Setting where
  | backend
  | output
  | config
deriving DecidableEq

def Switch.ofName? (v : Verb) (name : String) : Option Switch :=
  match v, name with
  | _, "verbose" => some .verbose
  | .generate, "sequential" => some .sequential
  | .check, "json" => some .json
  | _, _ => none

def Setting.ofName? (v : Verb) (name : String) : Option Setting :=
  match v, name with
  | _, "config" => some .config
  | .generate, "backend" => some .backend
  | .generate, "output" => some .output
  | _, _ => none

def Setting.ofLetter? (v : Verb) (letter : Char) : Option Setting :=
  match v, letter with
  | .generate, 'b' => some .backend
  | .generate, 'o' => some .output
  | _, _ => none

/-- The options of a command and the path of its model, as far as they are known. -/
structure Options where
  model : Option String
  switches : List Switch
  backends : List Backend
  output : Option String
  config : Option String

namespace Options

def start : Options := ⟨none, [], [], none, none⟩

def addSwitch (o : Options) (option : String) (s : Switch) : Reading Options :=
  if s ∈ o.switches then refuse (.repeatedOption option) else .ok { o with switches := s :: o.switches }

/-- A path that is given only once, and is not empty. -/
def onlyPath (option : String) (old : Option String) (value : String) : Reading (Option String) :=
  if old.isSome then refuse (.repeatedOption option)
  else if value.isEmpty then refuse (.missingValue option)
  else .ok (some value)

def addSetting (o : Options) (option value : String) (s : Setting) : Reading Options :=
  match s with
  | .backend =>
    match Backend.ofName? value with
    | some b => .ok { o with backends := o.backends ++ [b] }
    | none => refuse (.unknownBackend value)
  | .output => (onlyPath option o.output value).map fun p => { o with output := p }
  | .config => (onlyPath option o.config value).map fun p => { o with config := p }

/-- A word that belongs to no option: the path of the model. -/
def addWord (o : Options) (word : String) : Reading Options :=
  if o.model.isSome then refuse (.extraArgument word)
  else if word.isEmpty then refuse .noModel
  else .ok { o with model := some word }

end Options

/-! ### Taking in the arguments -/

/-- How far the arguments were taken in. -/
inductive Progress where
  /-- Nothing but switches so far. -/
  | start (verbose : Bool)
  /-- The options ended before there was a command. -/
  | ended
  /-- Words that name a topic. -/
  | naming (t : Topic)
  /-- In a command.  An option may wait for the next argument to be its value. -/
  | options (v : Verb) (verbose : Bool) (o : Options) (waiting : Option (String × Setting))
  /-- In a command, behind the end of its options. -/
  | words (v : Verb) (verbose : Bool) (o : Options)

namespace Progress

/-- An argument before there is a command. -/
def stepAtStart (verbose : Bool) (arg : String) : Reading Progress :=
  match Form.of arg with
  | .endOfOptions => .ok ended
  | .long "verbose" none => if verbose then refuse (.repeatedOption arg) else .ok (start true)
  | .long "version" none => .error (.shows .version)
  | .long "help" none => .error (.shows .program)
  | .long _ _ => refuse (.unknownOption arg)
  | .short 'V' _ => .error (.shows .version)
  | .short 'h' _ => .error (.shows .program)
  | .short _ _ => refuse (.unknownOption arg)
  | .word "help" => .ok (naming .program)
  | .word text =>
    match Verb.ofWord? text with
    | some v => .ok (options v verbose .start none)
    | none => refuse (.unknownCommand text)

/-- A word behind the command that shows texts. -/
def stepNaming (t : Topic) (arg : String) : Reading Progress :=
  match t, Verb.ofWord? arg with
  | .program, some v => .ok (naming (.command v))
  | .program, none => if arg = "help" then .ok (naming .help) else refuse (.unknownCommand arg)
  | _, _ => refuse (.unknownCommand arg)

/-- A group of letters behind one dash.  The first letter decides, since none of them is a switch. -/
def stepShort (v : Verb) (verbose : Bool) (o : Options) (first : Char) (more : List Char) : Reading Progress :=
  let option := String.ofList ['-', first]
  if first = 'h' then .error (.shows (.command v))
  else
    match Setting.ofLetter? v first, more with
    | none, _ => refuse (.unknownOption option)
    | some s, [] => .ok (options v verbose o (some (option, s)))
    | some s, '=' :: value => do return options v verbose (← o.addSetting option (String.ofList value) s) none
    | some s, value => do return options v verbose (← o.addSetting option (String.ofList value) s) none

/-- An argument behind a command that is not the value of an option. -/
def stepOption (v : Verb) (verbose : Bool) (o : Options) (arg : String) : Reading Progress :=
  match Form.of arg with
  | .endOfOptions => .ok (words v verbose o)
  | .word text => do return options v verbose (← o.addWord text) none
  | .short first more => stepShort v verbose o first more
  | .long name value =>
    let option := "--" ++ name
    match Switch.ofName? v name, Setting.ofName? v name, value with
    | some s, _, none => do return options v verbose (← o.addSwitch option s) none
    | some _, _, some _ => refuse (.unwantedValue arg)
    | none, some s, some value => do return options v verbose (← o.addSetting option value s) none
    | none, some s, none => .ok (options v verbose o (some (option, s)))
    | none, none, value =>
      if name = "help" ∧ value = none then .error (.shows (.command v)) else refuse (.unknownOption arg)

/-- Takes in one more argument.  What looks like an option is never the value of another one. -/
def step (p : Progress) (arg : String) : Reading Progress :=
  match p with
  | start verbose => stepAtStart verbose arg
  | ended => refuse (.extraArgument arg)
  | naming t => stepNaming t arg
  | options v verbose o none => stepOption v verbose o arg
  | options v verbose o (some (option, s)) =>
    match Form.of arg with
    | .word text => do return options v verbose (← o.addSetting option text s) none
    | _ => refuse (.missingValue option)
  | words v verbose o => do return words v verbose (← o.addWord arg)

end Progress

/-- Work on a model that is asked for. -/
inductive Request where
  | generate (model : String) (backends : List Backend) (output config : Option String) (sequential verbose : Bool)
  | check (model : String) (config : Option String) (json verbose : Bool)

/-- The request of a command that is complete. -/
def Request.of (v : Verb) (verbose : Bool) (o : Options) : Reading Request :=
  let verbose := verbose || .verbose ∈ o.switches
  match v, o.model with
  | _, none => refuse .noModel
  | .generate, some model =>
    .ok (generate model o.backends o.output o.config (.sequential ∈ o.switches) verbose)
  | .check, some model => .ok (check model o.config (.json ∈ o.switches) verbose)

def Progress.finish : Progress → Reading Request
  | start _ => refuse .noCommand
  | ended => refuse .noCommand
  | naming t => .error (.shows t)
  | options v verbose o none => Request.of v verbose o
  | options _ _ _ (some (option, _)) => refuse (.missingValue option)
  | words v verbose o => Request.of v verbose o

/-- What the arguments ask for, or what settles them. -/
def parse (args : List String) : Reading Request := do
  (← args.foldlM Progress.step (.start false)).finish

/-! ### Texts about the program -/

def programName : String := "modelc"

def version : String := "0.1.0"

/-- A column of terms and a column of explanations. -/
def table (rows : List (String × String)) : List String :=
  let width := (rows.map fun r => r.1.length).foldl max 0
  rows.map fun (term, text) => "  " ++ term ++ String.ofList (List.replicate (width - term.length + 2) ' ') ++ text

def helpOptions : List String := ["Options:", "  -h, --help  Print help"]

def Topic.lines : Topic → List String
  | version => [programName ++ " " ++ CommandLine.version]
  | program =>
    ["Generate accessor code from class/interface models", "", "Usage: " ++ programName ++ " [OPTIONS] <COMMAND>", "",
      "Commands:"] ++
    table [
      ("generate", "Generate source files for every type of a model"),
      ("check", "Resolve a model and print the methods of every type"),
      ("help", "Print this message or the help of the given subcommand(s)")] ++
    ["", "Options:"] ++
    table [
      ("    --verbose", "Log pipeline progress to stderr"),
      ("-h, --help", "Print help"),
      ("-V, --version", "Print version")]
  | command .generate =>
    ["Generate source files for every type of a model", "",
      "Usage: " ++ programName ++ " generate [OPTIONS] <MODEL>", "", "Arguments:"] ++
    table [("<MODEL>", "Model file path")] ++
    ["", "Options:"] ++
    table [
      ("-b, --backend <BACKENDS>", "Backend to emit (repeatable): python, py or java"),
      ("    --verbose", "Log pipeline progress to stderr"),
      ("-o, --output <OUTPUT>", "Output directory"),
      ("    --config <CONFIG>", "Configuration file (defaults to modelc.toml next to the model)"),
      ("    --sequential", "Process types one at a time"),
      ("-h, --help", "Print help")]
  | command .check =>
    ["Resolve a model and print the methods of every type", "",
      "Usage: " ++ programName ++ " check [OPTIONS] <MODEL>", "", "Arguments:"] ++
    table [("<MODEL>", "Model file path")] ++
    ["", "Options:"] ++
    table [
      ("    --json", "Print the report as JSON"),
      ("    --verbose", "Log pipeline progress to stderr"),
      ("    --config <CONFIG>", "Configuration file (defaults to modelc.toml next to the model)"),
      ("-h, --help", "Print help")]
  | help =>
    ["Print this message or the help of the given subcommand(s)", "",
      "Usage: " ++ programName ++ " help [COMMAND]...", "", "Arguments:"] ++
    table [("[COMMAND]...", "Print help for the subcommand(s)")]

end CommandLine
end Accessors
