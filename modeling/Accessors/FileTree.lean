import Accessors.FileAccess
import Accessors.Text.Pieces
/-!
# Trees of files

A file system as a value: directories and files by their places, and a working directory at which relative paths start.
The root and the working directory always exist.
-/
namespace Accessors

inductive FileTree.Entry where
  | directory
  | file (contents : ByteArray)

/-- A place is the list of the names that lead to it from the root. -/
structure FileTree where
  workingDirectory : List String
  entries : List (List String × FileTree.Entry)

namespace FileTree

def entry? (t : FileTree) (place : List String) : Option Entry :=
  if place.isPrefixOf t.workingDirectory then some .directory else t.entries.lookup place

def put (t : FileTree) (place : List String) (e : Entry) : FileTree :=
  { t with entries := (place, e) :: t.entries.filter (·.1 ≠ place) }

/-- The longest name that a directory can hold, in bytes. -/
def longestName : Nat := 255

/-- The longest path that can be looked up, in bytes. -/
def longestPath : Nat := 4095

/-- The place that a part of a path leads to from a directory.  A name may lead to nothing. -/
def beside (directory : List String) (part : String) : Except FileFault (List String) :=
  if part = "" ∨ part = "." then .ok directory
  else if part = ".." then .ok directory.dropLast
  else if longestName < part.utf8ByteSize then .error .nameTooLong
  else .ok (directory ++ [part])

/-- The directory that a part of a path leads to from a directory. -/
def enter (t : FileTree) (directory : List String) (part : String) : Except FileFault (List String) := do
  let place ← beside directory part
  match t.entry? place with
  | none => .error .notFound
  | some (.file _) => .error .notDirectory
  | some .directory => return place

/-- The parts of a path, and whether it ends in a slash and so can mean a directory only. -/
def parts (path : String) : List String × Bool :=
  let all := (pieces '/' path).reverse
  ((all.dropWhile (· = "")).reverse, all.head? = some "")

/-- The place that a path means, which may be empty, and whether only a directory is meant. -/
def locate (t : FileTree) (path : String) : Except FileFault (List String × Bool) := do
  if path.isEmpty then .error .notFound
  else if '\x00' ∈ path.toList then .error .zeroInPath
  else if longestPath < path.utf8ByteSize then .error .nameTooLong
  else
    let start := if Path.isAbsolute path then [] else t.workingDirectory
    match (parts path).1.getLast? with
    | none => return (start, true)
    | some last =>
      let directory ← (parts path).1.dropLast.foldlM t.enter start
      return (← beside directory last, (parts path).2)

/-- What a path leads to. -/
def find (t : FileTree) (path : String) : Except FileFault Entry := do
  let (place, onlyDirectory) ← t.locate path
  match t.entry? place with
  | none => .error .notFound
  | some (.file contents) => if onlyDirectory then .error .notDirectory else return .file contents
  | some .directory => return .directory

def read (t : FileTree) (path : String) : Except FileFault String := do
  match ← t.find path with
  | .directory => .error .isDirectory
  | .file contents =>
    match String.fromUTF8? contents with
    | some text => return text
    | none => .error .notText

def isFile (t : FileTree) (path : String) : Bool :=
  match t.find path with
  | .ok (.file _) => true
  | _ => false

def isDirectory (t : FileTree) (path : String) : Bool :=
  match t.find path with
  | .ok .directory => true
  | _ => false

def makeDirectory (t : FileTree) (path : String) : Except FileFault FileTree := do
  let (place, _) ← t.locate path
  match t.entry? place with
  | some _ => .error .alreadyExists
  | none => return t.put place .directory

def write (t : FileTree) (path contents : String) : Except FileFault FileTree := do
  let (place, onlyDirectory) ← t.locate path
  match t.entry? place with
  | some .directory => .error .isDirectory
  | some (.file _) =>
    if onlyDirectory then .error .notDirectory else return t.put place (.file contents.toUTF8)
  | none => if onlyDirectory then .error .isDirectory else return t.put place (.file contents.toUTF8)

/-- The tree with all directories that a place lies in, and with a file there. -/
def plant (t : FileTree) (place : List String) (contents : ByteArray) : FileTree :=
  let above := (List.range place.length).map fun n => place.take n
  (above.foldl (fun t d => if (t.entry? d).isSome then t else t.put d .directory) t).put place (.file contents)

/-- The files below the working directory, by their paths from there. -/
def files (t : FileTree) : List (String × ByteArray) :=
  t.entries.filterMap fun (place, e) =>
    match e with
    | .file contents =>
      if t.workingDirectory.isPrefixOf place then
        some ("/".intercalate (place.drop t.workingDirectory.length), contents)
      else none
    | .directory => none

/-- A step that may change the tree. -/
def change (f : FileTree → Except FileFault FileTree) : StateM FileTree (Except FileFault Unit) := do
  match f (← get) with
  | .ok t => set t; return .ok ()
  | .error fault => return .error fault

instance : FileAccess (StateM FileTree) where
  read path := do return (← get).read path
  isFile path := do return (← get).isFile path
  isDirectory path := do return (← get).isDirectory path
  makeDirectory path := change fun t => t.makeDirectory path
  write path contents := change fun t => t.write path contents

end FileTree
end Accessors
