/-!
# Paths

Paths as plain texts whose parts are separated by slashes.  Nothing is resolved: `a/../b` stays as it is.
-/
namespace Accessors
namespace Path

def isAbsolute (path : String) : Bool := path.toList.head? = some '/'

/-- The path that leads on from a base.  An absolute path leads away from the base. -/
def join (base path : String) : String :=
  if isAbsolute path then path
  else if base.isEmpty || base.toList.getLast? = some '/' then base ++ path
  else base ++ "/" ++ path

/-- Reversed text of a path without its last part and the slash before that. -/
def dropPart (reversed : List Char) : List Char := (reversed.dropWhile (· ≠ '/')).tail

/-- The reversed text of a path without such parts at its end as mean nothing: empty ones and single dots. -/
def trim (reversed : List Char) : List Char :=
  match reversed with
  | '/' :: rest => trim rest
  | ['.'] => []
  | '.' :: '/' :: rest => trim rest
  | _ => reversed

/-- The path without its last part; absent if it has no part.  A dot counts as a part only at the start of a path. -/
def parent? (path : String) : Option String :=
  let (root, body) :=
    match path.toList with
    | '/' :: rest => (['/'], rest)
    | ['.'] => (['.'], [])
    | '.' :: '/' :: rest => (['.'], '/' :: rest)
    | cs => ([], cs)
  match trim body.reverse with
  | [] => if root = ['.'] then some "" else none
  | part => some (String.ofList (root ++ (trim (dropPart part)).reverse))

end Path
end Accessors
