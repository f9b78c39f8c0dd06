import Accessors.Path
/-!
# Access to files

What a run needs of a file system, whatever it is, and what can go wrong there.  On top of that: making a directory with
all that it lies in.
-/
namespace Accessors

inductive FileFault where
  | notFound
  | alreadyExists
  | notDirectory
  | isDirectory
  | nameTooLong
  /-- The path holds a character that no path may hold. -/
  | zeroInPath
  /-- The contents are not UTF-8. -/
  | notText
  | other (message : String)
deriving DecidableEq

/-- The words of the operating system. -/
def FileFault.message : FileFault → String
  | notFound => "No such file or directory (os error 2)"
  | alreadyExists => "File exists (os error 17)"
  | notDirectory => "Not a directory (os error 20)"
  | isDirectory => "Is a directory (os error 21)"
  | nameTooLong => "File name too long (os error 36)"
  | zeroInPath => "file name contained an unexpected NUL byte"
  | notText => "stream did not contain valid UTF-8"
  | other message => message

/-- The operations that a run needs. -/
class FileAccess (m : Type → Type) where
  /-- The whole text of a file. -/
  read (path : String) : m (Except FileFault String)
  isFile (path : String) : m Bool
  isDirectory (path : String) : m Bool
  /-- Makes one directory; the one that it lies in must be there. -/
  makeDirectory (path : String) : m (Except FileFault Unit)
  /-- Makes a file or replaces its contents. -/
  write (path contents : String) : m (Except FileFault Unit)

namespace FileAccess

variable {m : Type → Type} [Monad m] [FileAccess m]

/-- A directory that could not be made, and is therefore wrong unless it is there. -/
def unlessDirectory (path : String) (fault : FileFault) : m (Except FileFault Unit) := do
  if ← isDirectory path then return .ok () else return .error fault

/-- Makes a directory and first, where needed, those that it lies in; `fuel` bounds their number. -/
def makeDirectoriesWithin : (fuel : Nat) → (path : String) → m (Except FileFault Unit)
  | 0, _ => return .ok ()
  | fuel + 1, path => do
    if path.isEmpty then return .ok ()
    match ← makeDirectory path with
    | .ok () => return .ok ()
    | .error .notFound =>
      match Path.parent? path with
      | none => return .error (.other "failed to create whole tree")
      | some parent =>
        match ← makeDirectoriesWithin fuel parent with
        | .error fault => return .error fault
        | .ok () =>
          match ← makeDirectory path with
          | .ok () => return .ok ()
          | .error fault => unlessDirectory path fault
    | .error fault => unlessDirectory path fault

/-- Makes a directory and those that it lies in.  Every parent's path is shorter, so its length bounds their number. -/
def makeDirectories (path : String) : m (Except FileFault Unit) := makeDirectoriesWithin (path.length + 1) path

end FileAccess
end Accessors
