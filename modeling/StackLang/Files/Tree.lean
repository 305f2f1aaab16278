import StackLang.Files.Store

/-!
# File trees

A file system without links as a value: a finite map from locations to folders and files. Path names start
at the root, which is a folder and its own parent.
-/

namespace StackLang

/-- A folder, or a file with its bytes. -/
inductive FileEntry where
  | folder
  | file (content : ByteArray)

/-- Whether an entry is a folder. -/
def FileEntry.isFolder : FileEntry → Bool
  | folder => true
  | file _ => false

/-- The names on the way from the root to a file or folder. -/
abbrev Location := List PathName

/-- The location that a step leads to. The root is its own parent. -/
def Location.after (location : Location) (step : PathName) : Location :=
  if step = PathName.here then location
  else if step = PathName.parent then location.dropLast
  else location ++ [step]

/-- The entries below the root. -/
structure FileTree where
  entries : List (Location × FileEntry)

namespace FileTree

/-- A tree with nothing below its root. -/
def empty : FileTree where
  entries := []

/-- What is at a location. -/
def find? (tree : FileTree) (location : Location) : Option FileEntry :=
  if location = [] then some .folder else tree.entries.lookup location

/-- Puts an entry at a location, in place of what is there. -/
def insert (tree : FileTree) (location : Location) (entry : FileEntry) : FileTree where
  entries := (location, entry) :: tree.entries.filter (·.1 ≠ location)

/-- The location that a path's steps lead to. Every step starts in a folder; what the last one leads to
need not exist. -/
def walk (tree : FileTree) (location : Location) : List PathName → Except FileFault Location
  | [] => .ok location
  | step :: steps =>
    match tree.find? location with
    | none => .error .notFound
    | some (.file _) => .error .notAFolder
    | some .folder => tree.walk (location.after step) steps

/-- The location that a path name leads to. A slash at the end asks for a folder. -/
def locate (tree : FileTree) (path : PathName) : Except FileFault Location :=
  if path = [] then .error .notFound
  else
    let final := if path.getLast? = some PathName.slash then [PathName.here] else []
    tree.walk [] (PathName.steps path ++ final)

/-- Reads a text. -/
def readText (tree : FileTree) (path : PathName) : Except FileFault String := do
  match tree.find? (← tree.locate path) with
  | none => .error .notFound
  | some .folder => .error .isAFolder
  | some (.file content) =>
    match String.fromUTF8? content with
    | some text => .ok text
    | none => .error .invalidText

/-- Writes a text, in place of the file that is there. -/
def writeText (tree : FileTree) (path : PathName) (text : String) : Except FileFault FileTree := do
  let location ← tree.locate path
  match tree.find? location with
  | some .folder => .error .isAFolder
  | some (.file _) | none => .ok (tree.insert location (.file text.toUTF8))

/-- Creates the folder that some steps lead to. The folder it is created in has to exist. -/
def createFolder (tree : FileTree) (steps : List PathName) : Except FileFault FileTree := do
  let location ← tree.walk [] steps
  match tree.find? location with
  | some _ => .error .alreadyExists
  | none => .ok (tree.insert location .folder)

/-- Whether some steps lead to a folder. -/
def isFolder (tree : FileTree) (steps : List PathName) : Bool :=
  match tree.walk [] steps with
  | .ok location => (tree.find? location).any FileEntry.isFolder
  | .error _ => false

/-- The outcome of an attempt to create a folder, which succeeds as well if the folder exists. -/
def settle (tree : FileTree) (steps : List PathName) :
    Except FileFault FileTree → Except FileFault Unit × FileTree
  | .ok tree => (.ok (), tree)
  | .error fault => (if tree.isFolder steps then .ok () else .error fault, tree)

/-- Creates the folder that some steps lead to, unless it exists. If a folder above it is missing, that one
is created first. -/
def createSteps (tree : FileTree) (steps : List PathName) : Except FileFault Unit × FileTree :=
  if h : steps = [] then (.ok (), tree)
  else
    match tree.createFolder steps with
    | .error .notFound =>
      have : (PathName.parentSteps steps).length < steps.length := PathName.length_parentSteps_lt h
      match tree.createSteps (PathName.parentSteps steps) with
      | (.error fault, tree) => (.error fault, tree)
      | (.ok (), tree) => tree.settle steps (tree.createFolder steps)
    | attempt => tree.settle steps attempt
termination_by steps.length

/-- Creates the folder that a path name leads to and the missing folders above it. -/
def createFolders (tree : FileTree) (path : PathName) : Except FileFault Unit × FileTree :=
  tree.createSteps (PathName.steps path)

/-- A tree as a file store. -/
def store : FileStore (StateM FileTree) where
  readText path := do return (← get).readText path
  createFolders path := do
    let (outcome, tree) := (← get).createFolders path
    set tree
    return outcome
  writeText path text := do
    match (← get).writeText path text with
    | .ok tree => set tree; return .ok ()
    | .error fault => return .error fault

end FileTree

end StackLang
