import Accessors.Method
import Accessors.Name
import Accessors.Text.Lines
/-!
# Java accessors

A class or interface becomes one in a file of its own, in the package that the namespace names.  A class keeps the
partners of each role in a private field; lists are made in its constructor.
-/
namespace Accessors
namespace Java

/-- The words that no field may be. -/
def keywords : List String :=
  ["abstract", "assert", "boolean", "break", "byte", "case", "catch", "char", "class", "const", "continue", "default",
    "do", "double", "else", "enum", "extends", "false", "final", "finally", "float", "for", "goto", "if", "implements",
    "import", "instanceof", "int", "interface", "long", "native", "new", "null", "package", "private", "protected",
    "public", "return", "short", "static", "strictfp", "super", "switch", "synchronized", "this", "throw", "throws",
    "transient", "true", "try", "void", "volatile", "while"]

def fileName (n : TypeNode) : String := n.name ++ ".java"

/-- The field is named for the role; a keyword gets an underscore. -/
def field (m : Method) : String := if m.role ∈ keywords then m.role ++ "_" else m.role

/-- What a method deals with: the role, or a single partner of it. -/
def subject (m : Method) : String :=
  Name.capitalized (if m.kind.isPerPartner then Name.singular m.role else m.role)

def methodName (m : Method) : String := m.kind.text ++ subject m

def paramName (m : Method) : String := "a" ++ subject m

/-- The type of the field and of what the getter returns. -/
def valueType (g : Graph) (m : Method) : String :=
  match m.multiplicity with
  | .one => g.name m.target
  | .many => "List<" ++ g.name m.target ++ ">"

/-- What the method returns, its name and its parameters, without modifiers. -/
def signature (g : Graph) (m : Method) : String :=
  match m.kind with
  | .get => valueType g m ++ " " ++ methodName m ++ "()"
  | _ => "boolean " ++ methodName m ++ "(" ++ g.name m.target ++ " " ++ paramName m ++ ")"

/-- A head and a body in braces, as a member of a class. -/
def member (head : String) (body : List String) : List String :=
  ["  public " ++ head, "  \x7b"] ++ body.map ("    " ++ ·) ++ ["  \x7d"]

def body (m : Method) : List String :=
  match m.kind with
  | .get =>
    match m.multiplicity with
    | .one => ["return " ++ field m ++ ";"]
    | .many => ["return Collections.unmodifiableList(" ++ field m ++ ");"]
  | .set => [field m ++ " = " ++ paramName m ++ ";", "return true;"]
  | .add =>
    ["if (" ++ field m ++ ".contains(" ++ paramName m ++ "))",
      "\x7b",
      "  return false;",
      "\x7d",
      field m ++ ".add(" ++ paramName m ++ ");",
      "return true;"]
  | .remove => ["return " ++ field m ++ ".remove(" ++ paramName m ++ ");"]

def getters (ms : List Method) : List Method := ms.filter fun m => m.kind = .get

def fieldBlock (g : Graph) (ms : List Method) : List (List String) :=
  match getters ms with
  | [] => []
  | gs => [gs.map fun m => "  private " ++ valueType g m ++ " " ++ field m ++ ";"]

/-- The constructor, which makes the lists; without lists there is none. -/
def constructorBlock (g : Graph) (n : TypeNode) (ms : List Method) : List (List String) :=
  match (getters ms).filter fun m => m.multiplicity = .many with
  | [] => []
  | gs => [member (n.name ++ "()") (gs.map fun m => field m ++ " = new ArrayList<" ++ g.name m.target ++ ">();")]

def blocks (g : Graph) (n : TypeNode) (ms : List Method) : List (List String) :=
  if n.heritage.isInterface then ms.map fun m => ["  " ++ signature g m ++ ";"]
  else fieldBlock g ms ++ constructorBlock g n ms ++ ms.map fun m => member (signature g m) (body m)

/-- What the file uses of the library: nothing unless some role is a list. -/
def imports (n : TypeNode) (ms : List Method) : List String :=
  if (getters ms).any fun m => m.multiplicity = .many then
    if n.heritage.isInterface then ["java.util.List"]
    else ["java.util.ArrayList", "java.util.Collections", "java.util.List"]
  else []

/-- A keyword and the types that it is about, unless there are none. -/
def clause (g : Graph) (word : String) : List TypeId → String
  | [] => ""
  | types => " " ++ word ++ " " ++ ", ".intercalate (types.map g.name)

def declaration (g : Graph) (n : TypeNode) : String :=
  match n.heritage with
  | .ofClass superclass interfaces =>
    "public class " ++ n.name ++ clause g "extends" superclass.toList ++ clause g "implements" interfaces
  | .ofInterface extended => "public interface " ++ n.name ++ clause g "extends" extended

def lines (g : Graph) (n : TypeNode) (ms : List Method) : List String :=
  ["// Generated by modelc. Do not edit."] ++
    (g.namespaceName.toList.map fun name => "package " ++ name ++ ";") ++
    (match imports n ms with
      | [] => []
      | imports => "" :: imports.map fun i => "import " ++ i ++ ";") ++
    ["", declaration g n, "\x7b"] ++ spaced (blocks g n ms) ++ ["\x7d"]

end Java
end Accessors
