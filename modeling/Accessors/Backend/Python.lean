import Accessors.Method
import Accessors.Name
import Accessors.Text.Lines
/-!
# Python accessors

A type becomes a class in a file of its own.  An interface is an abstract class, and its methods are abstract; a class
keeps the partners of each role in a field that it sets up empty.
-/
namespace Accessors
namespace Python

/-- The words that a name in small letters may not be. -/
def keywords : List String :=
  ["and", "as", "assert", "async", "await", "break", "class", "continue", "def", "del", "elif", "else", "except",
    "finally", "for", "from", "global", "if", "import", "in", "is", "lambda", "nonlocal", "not", "or", "pass", "raise",
    "return", "try", "while", "with", "yield"]

def moduleName (type : String) : String := Name.snake type

def fileName (n : TypeNode) : String := moduleName n.name ++ ".py"

/-- The field that holds the partners of the role. -/
def field (m : Method) : String := "self._" ++ Name.snake m.role

/-- What a method deals with: the role, or a single partner of it. -/
def subject (m : Method) : String := Name.snake (if m.kind.isPerPartner then Name.singular m.role else m.role)

def methodName (m : Method) : String := m.kind.text ++ "_" ++ subject m

/-- The parameter is named for the subject; a keyword gets an underscore. -/
def paramName (m : Method) : String := if subject m ∈ keywords then subject m ++ "_" else subject m

def signature (m : Method) : String :=
  if m.shape.params.isEmpty then "    def " ++ methodName m ++ "(self):"
  else "    def " ++ methodName m ++ "(self, " ++ paramName m ++ "):"

/-- What a field holds at first. -/
def initialValue : Multiplicity → String
  | .one => "None"
  | .many => "[]"

def getters (ms : List Method) : List Method := ms.filter fun m => m.kind = .get

/-- Sets up the fields of all roles, if there are any. -/
def initBlock (ms : List Method) : List (List String) :=
  match getters ms with
  | [] => []
  | gs => ["    def __init__(self):" :: gs.map fun m => "        " ++ field m ++ " = " ++ initialValue m.multiplicity]

def body (m : Method) : List String :=
  match m.kind with
  | .get =>
    match m.multiplicity with
    | .one => ["return " ++ field m]
    | .many => ["return tuple(" ++ field m ++ ")"]
  | .set => [field m ++ " = " ++ paramName m, "return True"]
  | .add =>
    ["if " ++ paramName m ++ " in " ++ field m ++ ":",
      "    return False",
      field m ++ ".append(" ++ paramName m ++ ")",
      "return True"]
  | .remove =>
    ["if " ++ paramName m ++ " not in " ++ field m ++ ":",
      "    return False",
      field m ++ ".remove(" ++ paramName m ++ ")",
      "return True"]

def concreteMethod (m : Method) : List String := signature m :: (body m).map ("        " ++ ·)

def abstractMethod (m : Method) : List String := ["    @abstractmethod", signature m, "        pass"]

def blocks (n : TypeNode) (ms : List Method) : List (List String) :=
  if n.heritage.isInterface then ms.map abstractMethod else initBlock ms ++ ms.map concreteMethod

def imports (g : Graph) (n : TypeNode) : List String :=
  (if n.heritage.isInterface then ["from abc import ABC, abstractmethod"] else []) ++
    n.heritage.parents.map fun p => "from " ++ moduleName (g.name p) ++ " import " ++ g.name p

/-- The bases in brackets.  An interface without any is at least abstract. -/
def bases (g : Graph) (n : TypeNode) : String :=
  match n.heritage.parents with
  | [] => if n.heritage.isInterface then "(ABC)" else ""
  | parents => "(" ++ ", ".intercalate (parents.map g.name) ++ ")"

def lines (g : Graph) (n : TypeNode) (ms : List Method) : List String :=
  ["# Generated by modelc. Do not edit."] ++
    (match imports g n with
      | [] => []
      | imports => "" :: imports) ++
    ["", "", "class " ++ n.name ++ bases g n ++ ":"] ++
    (match blocks n ms with
      | [] => ["    pass"]
      | blocks => spaced blocks)

end Python
end Accessors
