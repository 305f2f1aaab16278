import StackLang.Files.Store
import StackLang.Program
import StackLang.Search

/-!
# Jobs

A job runs the program in a file whose name is a text that holds `input-NNN.txt`, and writes its output to
`output-NNN.txt` in an output folder. Nothing is created or written unless the program has run to its end.
-/

namespace StackLang

/-- Why a job fails. -/
inductive JobError where
  | invalidInputName (path : PathName)
  | inaccessible (path : PathName) (fault : FileFault)
  | program (error : ProgramError)
deriving DecidableEq, Repr

/-- The message of a failed job. -/
def JobError.message : JobError → String
  | invalidInputName path =>
    "Input file '" ++ PathName.display path ++ "' does not follow the 'input-NNN.txt' naming scheme."
  | inaccessible path fault => "Failed to access '" ++ PathName.display path ++ "': " ++ fault.text ++ "."
  | program error => error.message

namespace Job

/-- What an input's name has to hold: `input-NNN.txt`, where the three digits are a group. -/
def inputPattern : SearchPattern :=
  .seq (.text "input-".toList) (.seq (.group (.digits 3)) (.text ".txt".toList))

/-- The three digits that a library finds in an input's name, if the name is a text. -/
def number? (library : SearchLibrary) (name : PathName) : Option (List Char) := do
  let text ← PathName.toText? name
  let captured ← library.captures? inputPattern text.toList
  captured[1]?

/-- The name of the output with a number. -/
def outputName (digits : List Char) : PathName := PathName.ofText ("output-" ++ String.ofList digits ++ ".txt")

/-- The path name of a job's output. -/
def outputPath (library : SearchLibrary) (input folder : PathName) : Except JobError PathName :=
  match (PathName.fileName? input).bind (number? library) with
  | some digits => .ok (PathName.join folder (outputName digits))
  | none => .error (.invalidInputName input)

variable {m : Type → Type} [Monad m]

/-- Gives the faults of an access the path name that was accessed. -/
def access {α : Type} (path : PathName) (outcome : m (Except FileFault α)) : ExceptT JobError m α :=
  ExceptT.mk do
    match ← outcome with
    | .ok a => return .ok a
    | .error fault => return .error (.inaccessible path fault)

/-- The lines that the program in a file prints. -/
def outputOf (store : FileStore m) (limits : Limits) (input : PathName) : ExceptT JobError m (List String) := do
  let source ← access input (store.readText input)
  match Program.output limits source with
  | .ok lines => return lines
  | .error error => throw (.program error)

/-- Runs the program in a file and writes its output into a folder. Gives the path name of the output. -/
def run (library : SearchLibrary) (store : FileStore m) (limits : Limits) (input folder : PathName) :
    ExceptT JobError m PathName := do
  let output ← ExceptT.mk (pure (outputPath library input folder))
  let lines ← outputOf store limits input
  access folder (store.createFolders folder)
  access output (store.writeText output (Text.unlines lines))
  return output

end Job

end StackLang
