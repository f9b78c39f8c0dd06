import Accessors.Backend.Java
import Accessors.Backend.Python
/-!
# Backends

The languages that accessors are written in.
-/
namespace Accessors

inductive Backend where
  | python
  | java
deriving DecidableEq

namespace Backend

def all : List Backend := [python, java]

def name : Backend → String
  | python => "python"
  | java => "java"

/-- The backend that a user asks for by this name. -/
def ofName? (name : String) : Option Backend :=
  if name = "python" ∨ name = "py" then some python
  else if name = "java" then some java
  else none

/-- Where the files of a backend go, below the output directory. -/
def directory : Backend → String
  | python => "py"
  | java => "java"

def fileName : Backend → TypeNode → String
  | python => Python.fileName
  | java => Java.fileName

def methodName : Backend → Method → String
  | python => Python.methodName
  | java => Java.methodName

/-- The lines of the file for a type with these methods. -/
def lines : Backend → Graph → TypeNode → List Method → List String
  | python => Python.lines
  | java => Java.lines

def render (b : Backend) (g : Graph) (n : TypeNode) (ms : List Method) : String := unlines (b.lines g n ms)

end Backend
end Accessors
