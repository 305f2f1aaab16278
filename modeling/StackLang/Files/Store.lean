import StackLang.Files.PathName

/-!
# File stores

What the program asks of a file system: to read a text, to create a folder with the folders above it, and to
write a text. Each of these may meet a fault, whose wording is that of the operating system.
-/

namespace StackLang

/-- Why a file or folder cannot be accessed. -/
inductive FileFault where
  | notFound
  | alreadyExists
  | notAFolder
  | isAFolder
  | invalidText
  | other (description : String)
deriving DecidableEq, Repr

/-- The description of a fault. -/
def FileFault.text : FileFault → String
  | notFound => "No such file or directory (os error 2)"
  | alreadyExists => "File exists (os error 17)"
  | notAFolder => "Not a directory (os error 20)"
  | isAFolder => "Is a directory (os error 21)"
  | invalidText => "stream did not contain valid UTF-8"
  | other description => description

/-- The operations of a file system, given path names. -/
structure FileStore (m : Type → Type) where
  readText : PathName → m (Except FileFault String)
  createFolders : PathName → m (Except FileFault Unit)
  writeText : PathName → String → m (Except FileFault Unit)

end StackLang
