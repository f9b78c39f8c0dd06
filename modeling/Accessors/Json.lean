/-!
# JSON

JSON values whose objects keep the order of their fields, and how a value is written: on one line, or spread over lines
with two blanks of indentation a level.  Numbers are natural.
-/
namespace Accessors

inductive Json where
  | null
  | bool (b : Bool)
  | number (n : Nat)
  | text (s : String)
  | array (items : List Json)
  | object (fields : List (String × Json))

namespace Json

/-- The field, unless it has no value. -/
def optionalField {α : Type} (name : String) (value : Option α) (encode : α → Json) : List (String × Json) :=
  value.toList.map fun a => (name, encode a)

/-- The field, unless its list is empty. -/
def nonemptyField {α : Type} (name : String) (items : List α) (encode : α → Json) : List (String × Json) :=
  if items.isEmpty then [] else [(name, array (items.map encode))]

def ofOption {α : Type} (encode : α → Json) : Option α → Json
  | none => null
  | some a => encode a

/-- One character of a text: quotes, backslashes and controls are escaped. -/
def character (c : Char) : List Char :=
  if c = '"' then ['\\', '"']
  else if c = '\\' then ['\\', '\\']
  else if c = '\x08' then ['\\', 'b']
  else if c = '\x0c' then ['\\', 'f']
  else if c = '\n' then ['\\', 'n']
  else if c = '\r' then ['\\', 'r']
  else if c = '\t' then ['\\', 't']
  else if c.toNat < 32 then
    ['\\', 'u', '0', '0', Nat.digitChar (c.toNat / 16), Nat.digitChar (c.toNat % 16)]
  else [c]

def quote (s : String) : List Char := '"' :: s.toList.flatMap character ++ ['"']

/-- What stands between the parts of a written value. -/
structure Layout where
  /-- Before an item or a closing bracket, by the number of brackets around it. -/
  lineBreak : Nat → List Char
  /-- Between a field's name and its value. -/
  colon : List Char

/-- All on one line and without blanks. -/
def Layout.compact : Layout := ⟨fun _ => [], [':']⟩

/-- Every item on a line of its own. -/
def Layout.spread : Layout := ⟨fun depth => '\n' :: List.replicate (2 * depth) ' ', [':', ' ']⟩

mutual

/-- A value that stands inside `depth` brackets. -/
def write (l : Layout) (depth : Nat) : Json → List Char
  | null => "null".toList
  | bool b => (if b then "true" else "false").toList
  | number n => (toString n).toList
  | text s => quote s
  | array [] => ['[', ']']
  | array (item :: items) =>
    '[' :: writeItems l (depth + 1) (item :: items) ++ l.lineBreak depth ++ [']']
  | object [] => ['{', '}']
  | object (field :: fields) =>
    '{' :: writeFields l (depth + 1) (field :: fields) ++ l.lineBreak depth ++ ['}']

def writeItems (l : Layout) (depth : Nat) : List Json → List Char
  | [] => []
  | item :: items =>
    l.lineBreak depth ++ write l depth item ++ (if items.isEmpty then [] else [',']) ++ writeItems l depth items

def writeFields (l : Layout) (depth : Nat) : List (String × Json) → List Char
  | [] => []
  | (name, value) :: fields =>
    l.lineBreak depth ++ quote name ++ l.colon ++ write l depth value ++ (if fields.isEmpty then [] else [','])
      ++ writeFields l depth fields

end

def compact (j : Json) : String := String.ofList (j.write .compact 0)

def pretty (j : Json) : String := String.ofList (j.write .spread 0)

end Json
end Accessors
