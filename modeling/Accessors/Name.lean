import Accessors.Bounds
import Accessors.Text.LetterCase
/-!
# Names

How names are made from names: the one that a role has when none is written, the name of a single partner of a
many-valued role, and the two styles in which accessors are named, `addCourse` and `add_course`.
-/
namespace Accessors
namespace Name

/-- The name of one of several: `courses` gives `course`, `categories` gives `category`.  What does not look like a
plural is kept. -/
def singularChars (name : List Char) : List Char :=
  match name.reverse with
  | 's' :: 'e' :: 'i' :: c :: stem => (c :: stem).reverse ++ ['y']
  | 's' :: c :: stem => if c = 's' then name else (c :: stem).reverse
  | _ => name

def singular (name : String) : String := String.ofList (singularChars name.toList)

/-- A name with its first letter made a capital. -/
def capitalized (name : String) : String :=
  match name.toList with
  | [] => ""
  | c :: rest => String.ofList (LetterCase.toUpper c ++ rest)

/-- A name with its first letter made a small one. -/
def uncapitalized (name : String) : String :=
  match name.toList with
  | [] => ""
  | c :: rest => String.ofList (LetterCase.toLower c ++ rest)

/-- The name of a role that is written without one: that of its target, in the plural if it is many-valued. -/
def ofRole (target : String) (m : Multiplicity) : String :=
  match m with
  | .one => uncapitalized target
  | .many => uncapitalized target ++ "s"

/-- Whether a capital between these two characters starts a new word: after a small letter or a digit it does, and the
last of several capitals does if a small letter follows. -/
def startsWord (previous next : Option Char) : Bool :=
  match previous with
  | none => false
  | some p =>
    LetterCase.isLower p || p.isDigit || (LetterCase.isUpper p && next.any LetterCase.isLower)

/-- The rest of a name in small letters, words parted by underscores, where `previous` is the character before it. -/
def snakeChars (previous : Option Char) : List Char → List Char
  | [] => []
  | c :: rest =>
    (if LetterCase.isUpper c then
      (if startsWord previous rest.head? then ['_'] else []) ++ LetterCase.toLower c
    else [c]) ++ snakeChars (some c) rest

/-- A name in small letters with its words parted by underscores: `HTTPServer` gives `http_server`. -/
def snake (name : String) : String := String.ofList (snakeChars none name.toList)

end Name
end Accessors
