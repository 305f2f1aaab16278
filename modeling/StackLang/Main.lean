import StackLang.CommandLine

/-!
# The program

The command line on the machine's own file system and standard streams.
-/

namespace StackLang

/-- The fault that an error of the operating system stands for. -/
def FileFault.ofError : IO.Error → FileFault
  | .noFileOrDirectory .. => notFound
  | .alreadyExists .. => alreadyExists
  | .inappropriateType _ code _ => if code = 21 then isAFolder else notAFolder
  | .permissionDenied .. => other "Permission denied (os error 13)"
  | error => other (toString error)

/-- Runs an access and catches its error. -/
def accessDisk {α : Type} (access : IO α) : IO (Except FileFault α) := do
  try
    return .ok (← access)
  catch error =>
    return .error (FileFault.ofError error)

/-- Runs an access with the text of a path name. Other names cannot be handed to the operating system from here. -/
def accessNamed {α : Type} (path : PathName) (access : String → IO α) : IO (Except FileFault α) :=
  match PathName.toText? path with
  | some text => accessDisk (access text)
  | none => return .error (.other "Invalid or incomplete multibyte or wide character (os error 84)")

/-- The machine's own file system. -/
def disk : FileStore IO where
  readText path := do
    match ← accessNamed path fun text => IO.FS.readBinFile text with
    | .error fault => return .error fault
    | .ok content =>
      match String.fromUTF8? content with
      | some text => return .ok text
      | none => return .error .invalidText
  createFolders path :=
    if path = [] then return .ok () else accessNamed path fun text => IO.FS.createDirAll text
  writeText path content := accessNamed path fun text => IO.FS.writeFile text content

end StackLang

/-- Carries out what the arguments ask for and shows the outcome. -/
def main (arguments : List String) : IO UInt32 := do
  let outcome ← StackLang.CommandLine.run .standard StackLang.disk arguments
  (← IO.getStdout).putStr outcome.output
  (← IO.getStderr).putStr outcome.errors
  return outcome.exitCode.toUInt32
