import Accessors.Run
/-!
# The program

Runs on the files of the machine.
-/
namespace Accessors

/-- The fault with a number and a text of the operating system.  Some operations give the number negated. -/
def FileFault.ofCode (code : UInt32) (details : String) : FileFault :=
  match (min code (0 - code)).toNat with
  | 2 => .notFound
  | 17 => .alreadyExists
  | 20 => .notDirectory
  | 21 => .isDirectory
  | 36 => .nameTooLong
  | n => .other (details ++ " (os error " ++ toString n ++ ")")

/-- The fault behind an error of the operating system. -/
def FileFault.ofError : IO.Error → FileFault
  | .noFileOrDirectory _ code details => .ofCode code details
  | .alreadyExists _ code details => .ofCode code details
  | .inappropriateType _ code details => .ofCode code details
  | .invalidArgument _ code details => .ofCode code details
  | .permissionDenied _ code details => .ofCode code details
  | .resourceExhausted _ code details => .ofCode code details
  | .otherError code details => .ofCode code details
  | e => .other (toString e)

/-- Does something at a path that may fail. -/
def attempt {α : Type} (path : String) (step : IO α) : IO (Except FileFault α) := do
  if '\x00' ∈ path.toList then return .error .zeroInPath
  try
    return .ok (← step)
  catch e =>
    return .error (.ofError e)

/-- All bytes of a file. -/
def readBytes (path : String) : IO (Except FileFault ByteArray) := attempt path (IO.FS.readBinFile path)

instance : FileAccess IO where
  read path := do
    match ← readBytes path with
    | .error fault => return .error fault
    | .ok bytes =>
      match String.fromUTF8? bytes with
      | some text => return .ok text
      | none => return .error .notText
  isFile path := do
    match ← readBytes path with
    | .ok _ => return true
    | .error _ => return false
  isDirectory path := do
    match ← readBytes path with
    | .error .isDirectory => return true
    | _ => return false
  makeDirectory path := attempt path (IO.FS.createDir path)
  write path contents := attempt path (IO.FS.writeFile path contents)

end Accessors

open Accessors

def main (args : List String) : IO UInt32 := do
  let outcome ← (Run.run args : IO Outcome)
  IO.print outcome.output
  for line in outcome.errors do
    IO.eprintln line
  return UInt32.ofNat outcome.exitCode
