/-!
# Pieces of a text

A text cut at every place where a separator stands.  The separators are in no piece, so there is one piece more than there
are separators; some pieces may be empty.
-/
namespace Accessors

def piecesChars (separator : Char) : List Char → List (List Char)
  | [] => [[]]
  | c :: rest =>
    if c = separator then [] :: piecesChars separator rest
    else
      match piecesChars separator rest with
      | [] => [[c]]
      | piece :: pieces => (c :: piece) :: pieces

/-- The pieces of a text, in order. -/
def pieces (separator : Char) (text : String) : List String := (piecesChars separator text.toList).map String.ofList

end Accessors
