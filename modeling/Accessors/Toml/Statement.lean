import Accessors.Toml.Scalar
import Accessors.Toml.Table
import Accessors.Toml.Text
/-!
# The statements of a TOML document

A document is a list of statements, each on lines of its own: headers, which name the table that follows, and pairs of a
key and a value.  Only acceptance matters here; what is no statement is refused without a word.
-/
namespace Accessors
namespace Toml

inductive Statement where
  /-- `[path]` -/
  | header (path : List String)
  /-- `[[path]]` -/
  | arrayHeader (path : List String)
  /-- `key = value`, where the key is the last part of the path. -/
  | pair (path : List String) (value : Value)

/-- Nothing may be nested as deep as this, and no key may have as many parts. -/
def nestingLimit : Nat := 80

def skipWhite (cs : List Char) : List Char := cs.dropWhile isWhite

/-- What follows blanks, comments and line breaks.  A comment may not hold a control character. -/
def skipGaps (inComment : Bool) : List Char → Option (List Char)
  | [] => some []
  | '\n' :: rest => skipGaps false rest
  | '\r' :: '\n' :: rest => skipGaps false rest
  | c :: rest =>
    if inComment then (if isPrintable c then skipGaps true rest else none)
    else if isWhite c then skipGaps false rest
    else if c = '#' then skipGaps true rest
    else some (c :: rest)

/-- What follows the end of a line, before which there may be blanks and a comment. -/
def endLine (cs : List Char) : Option (List Char) :=
  let rest := skipWhite cs
  let rest := if rest.head? = some '#' then rest.dropWhile isPrintable else rest
  match rest with
  | [] => some []
  | '\n' :: rest => some rest
  | '\r' :: '\n' :: rest => some rest
  | _ => none

/-! ### Keys -/

def isKeyChar (c : Char) : Bool := c.isAlphanum || c = '_' || c = '-'

/-- One part of a key: bare, or quoted within one line. -/
def keyPart (cs : List Char) : Option (String × List Char) :=
  match cs with
  | '"' :: rest => (basicString rest).map fun (s, rest) => (String.ofList s, rest)
  | '\'' :: rest => (literalString rest).map fun (s, rest) => (String.ofList s, rest)
  | _ =>
    let part := cs.takeWhile isKeyChar
    if part.isEmpty then none else some (String.ofList part, cs.drop part.length)

/-- The parts of a key, which are separated by dots; blanks may stand around each part. -/
def keyParts : (fuel : Nat) → List Char → Option (List String × List Char)
  | 0, _ => none
  | fuel + 1, cs => do
    let (part, rest) ← keyPart (skipWhite cs)
    match skipWhite rest with
    | '.' :: rest =>
      let (parts, rest) ← keyParts fuel rest
      return (part :: parts, rest)
    | rest => return ([part], rest)

/-- A key of fewer parts than the limit. -/
def key (cs : List Char) : Option (List String × List Char) := keyParts (nestingLimit - 1) cs

/-! ### Values -/

/-- Reads a value off the front of a text. -/
abbrev ValueReader := List Char → Option (Value × List Char)

/-- The items of an array and the bracket that closes it. -/
def arrayItems (item : ValueReader) : (fuel : Nat) → List Char → Option (List Value × List Char)
  | 0, _ => none
  | fuel + 1, cs => do
    match ← skipGaps false cs with
    | ']' :: rest => return ([], rest)
    | cs =>
      let (v, rest) ← item cs
      match ← skipGaps false rest with
      | ',' :: rest =>
        let (vs, rest) ← arrayItems item fuel rest
        return (v :: vs, rest)
      | ']' :: rest => return ([v], rest)
      | _ => none

/-- The pairs of an inline table and the brace that closes it.  All of them stand on one line, and none ends in a
comma. -/
def inlinePairs (item : ValueReader) : (fuel : Nat) → List Char → Option (List (List String × Value) × List Char)
  | 0, _ => none
  | fuel + 1, cs => do
    let (path, rest) ← key cs
    match rest with
    | '=' :: rest =>
      let (v, rest) ← item (skipWhite rest)
      match skipWhite rest with
      | ',' :: rest =>
        let (pairs, rest) ← inlinePairs item fuel rest
        return ((path, v) :: pairs, rest)
      | '\x7d' :: rest => return ([(path, v)], rest)
      | _ => none
    | _ => none

/-- What stands behind the opening brace of an inline table. -/
def inlineTable (item : ValueReader) (cs : List Char) : Option (Value × List Char) :=
  match skipWhite cs with
  | '\x7d' :: rest => some (.table [], rest)
  | cs => do
    let (pairs, rest) ← inlinePairs item (cs.length + 1) cs
    let entries ← pairs.foldlM (fun es (path, v) => Entries.addPair path v es) []
    return (.table (Entries.values entries), rest)

/-- A value inside of which brackets may be nested `depth` times. -/
def value : (depth : Nat) → ValueReader
  | depth, cs =>
    match cs with
    | '[' :: rest =>
      match depth with
      | 0 => none
      | depth + 1 => (arrayItems (value depth) (rest.length + 1) rest).map fun (vs, rest) => (.array vs, rest)
    | '\x7b' :: rest =>
      match depth with
      | 0 => none
      | depth + 1 => inlineTable (value depth) rest
    | c :: _ =>
      if c = '"' ∨ c = '\'' then (string? cs).map fun (s, rest) => (.text (String.ofList s), rest)
      else scalar? cs
    | [] => none

/-! ### Statements -/

/-- A statement that starts at a character other than a blank, with the end of its line. -/
def statement (cs : List Char) : Option (Statement × List Char) :=
  match cs with
  | '[' :: '[' :: rest => do
    let (path, rest) ← key rest
    match rest with
    | ']' :: ']' :: rest => return (.arrayHeader path, ← endLine rest)
    | _ => none
  | '[' :: rest => do
    let (path, rest) ← key rest
    match rest with
    | ']' :: rest => return (.header path, ← endLine rest)
    | _ => none
  | _ => do
    let (path, rest) ← key cs
    match rest with
    | '=' :: rest =>
      let (v, rest) ← value (nestingLimit - 1) (skipWhite rest)
      return (.pair path v, ← endLine rest)
    | _ => none

def statements : (fuel : Nat) → List Char → Option (List Statement)
  | 0, _ => none
  | fuel + 1, cs => do
    match ← skipGaps false cs with
    | [] => return []
    | cs =>
      let (s, rest) ← statement cs
      return s :: (← statements fuel rest)

/-- All statements of a text, at the start of which a byte order mark is ignored. -/
def Statement.parse? (text : String) : Option (List Statement) :=
  let cs := match text.toList with
    | '\ufeff' :: rest => rest
    | cs => cs
  statements (cs.length + 1) cs

end Toml
end Accessors
