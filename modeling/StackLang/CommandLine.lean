import StackLang.Job

/-!
# The command line

Arguments are read from left to right, and the first one that is not understood decides. An option takes its
value from its own argument or from the next one. Only the verbosity option may be repeated. Log messages
are no part of a run's outcome, so verbosity has no effect on it.
-/

namespace StackLang.CommandLine

/-- The name of the program. -/
def programName : String := "stackma"

/-- The line that names the program and its version. -/
def versionLine : String := programName ++ " 0.1.0"

/-- The line that shows how the program is called. -/
def usageLine : String := "Usage: " ++ programName ++ " [OPTIONS] <INPUT>"

/-- The options that take a value. -/
inductive ValueOption where
  | outputFolder | depth | stackSize
deriving DecidableEq, Repr

/-- What an option's name stands for. -/
inductive Flag where
  | value (option : ValueOption)
  | print | verbose | version | help
deriving DecidableEq, Repr

/-- The flag with a long name. -/
def Flag.ofLong? : String → Option Flag
  | "output-dir" => some (.value .outputFolder)
  | "max-depth" => some (.value .depth)
  | "max-stack-size" => some (.value .stackSize)
  | "print" => some .print
  | "verbose" => some .verbose
  | "version" => some .version
  | "help" => some .help
  | _ => none

/-- The flag with a short name. -/
def Flag.ofShort? : Char → Option Flag
  | 'o' => some (.value .outputFolder)
  | 'p' => some .print
  | 'v' => some .verbose
  | 'V' => some .version
  | 'h' => some .help
  | _ => none

/-- What the arguments read so far have set. -/
structure Settings where
  input? : Option String := none
  outputFolder? : Option String := none
  depth? : Option Nat := none
  stackSize? : Option Nat := none
  print : Bool := false
deriving DecidableEq, Repr

/-- A reason to stop reading arguments. -/
inductive Stop where
  | version
  | help
  | usage (problem : String)
deriving DecidableEq, Repr

/-- A usage error. -/
def refuse {α : Type} (problem : String) : Except Stop α := .error (.usage problem)

/-- A number of levels or of values, which has to fit a 64-bit word. -/
def readCount (text : String) : Except Stop Nat :=
  match Text.naturalBelow? Literal.countBound text.toList with
  | some n => .ok n
  | none => refuse s!"invalid number: {text}"

/-- Sets an option that has not been set. Path names are not empty. -/
def Settings.setValue (s : Settings) (option : ValueOption) (text : String) : Except Stop Settings :=
  match option with
  | .outputFolder =>
    if s.outputFolder?.isSome then refuse "the output folder is given twice"
    else if text = "" then refuse "the output folder is empty"
    else .ok { s with outputFolder? := some text }
  | .depth =>
    if s.depth?.isSome then refuse "the depth limit is given twice"
    else do return { s with depth? := some (← readCount text) }
  | .stackSize =>
    if s.stackSize?.isSome then refuse "the stack limit is given twice"
    else do return { s with stackSize? := some (← readCount text) }

/-- Sets the input file, of which there is one. -/
def Settings.setInput (s : Settings) (text : String) : Except Stop Settings :=
  if s.input?.isSome then refuse s!"unexpected argument: {text}"
  else if text = "" then refuse "the input file is empty"
  else .ok { s with input? := some text }

/-- Applies a flag without a value. -/
def Settings.setFlag (s : Settings) (flag : Flag) : Except Stop Settings :=
  match flag with
  | .print => if s.print then refuse "printing is asked for twice" else .ok { s with print := true }
  | .verbose => .ok s
  | .version => .error .version
  | .help => .error .help
  | .value _ => refuse "a value is missing"

/-- Reads a bundle of short options. An option with a value takes the rest of the bundle, less an equals
sign, or else asks for the next argument. -/
def readBundle (s : Settings) : List Char → Except Stop (Settings × Option ValueOption)
  | [] => .ok (s, none)
  | c :: rest =>
    match Flag.ofShort? c with
    | none => refuse s!"unknown option: -{c}"
    | some (.value option) =>
      match rest with
      | [] => .ok (s, some option)
      | '=' :: value => do return (← s.setValue option (String.ofList value), none)
      | value => do return (← s.setValue option (String.ofList value), none)
    | some flag => do readBundle (← s.setFlag flag) rest

/-- Reads a long option, whose value may follow an equals sign. -/
def readLong (s : Settings) (cs : List Char) : Except Stop (Settings × Option ValueOption) :=
  let name := String.ofList (cs.takeWhile (· ≠ '='))
  let value? := match cs.dropWhile (· ≠ '=') with
    | _ :: value => some (String.ofList value)
    | [] => none
  match Flag.ofLong? name, value? with
  | none, _ => refuse s!"unknown option: --{name}"
  | some (.value option), none => .ok (s, some option)
  | some (.value option), some value => do return (← s.setValue option value, none)
  | some flag, none => do return (← s.setFlag flag, none)
  | some _, some _ => refuse s!"option --{name} takes no value"

/-- Whether an argument starts like an option. A single dash does not. -/
def isOption (argument : String) : Bool :=
  match argument.toList with
  | '-' :: _ :: _ => true
  | _ => false

/-- Reads arguments from left to right. `pending?` is an option that waits for its value. After two dashes
all arguments are input files. -/
def readArguments (s : Settings) (pending? : Option ValueOption) : List String → Except Stop Settings
  | [] => if pending?.isSome then refuse "a value is missing" else .ok s
  | argument :: rest =>
    match pending?, isOption argument with
    | some _, true => refuse "a value is missing"
    | some option, false => do readArguments (← s.setValue option argument) none rest
    | none, false => do readArguments (← s.setInput argument) none rest
    | none, true =>
      match argument.toList.drop 1 with
      | ['-'] => rest.foldlM Settings.setInput s
      | '-' :: long => do
        let (s, pending?) ← readLong s long
        readArguments s pending? rest
      | bundle => do
        let (s, pending?) ← readBundle s bundle
        readArguments s pending? rest

/-- A run that the arguments ask for. -/
structure Request where
  input : String
  outputFolder : String
  print : Bool
  limits : Limits
deriving DecidableEq, Repr

/-- The run that a list of arguments asks for. -/
def request (arguments : List String) : Except Stop Request := do
  let s ← readArguments {} none arguments
  match s.input? with
  | none => refuse "the input file is missing"
  | some input =>
    let standard : Limits := {}
    return {
      input
      outputFolder := s.outputFolder?.getD "output"
      print := s.print
      limits := { depth := s.depth?.getD standard.depth, stackSize := s.stackSize?.getD standard.stackSize } }

/-- What a run shows: its exit code and what it writes to standard output and standard error. -/
structure Outcome where
  exitCode : Nat
  output : String
  errors : String
deriving DecidableEq, Repr

/-- The outcome of reading the arguments when no run follows. -/
def Stop.outcome : Stop → Outcome
  | version => { exitCode := 0, output := versionLine ++ "\n", errors := "" }
  | help => { exitCode := 0, output := usageLine ++ "\n", errors := "" }
  | usage problem =>
    { exitCode := 2, output := "", errors := "error: " ++ problem ++ "\n" ++ usageLine ++ "\n" }

/-- The outcome of a job. -/
def jobOutcome : Except JobError String → Outcome
  | .ok output => { exitCode := 0, output, errors := "" }
  | .error error => { exitCode := 1, output := "", errors := error.message ++ "\n" }

/-- Carries out what a list of arguments asks for. -/
def run {m : Type → Type} [Monad m] (library : SearchLibrary) (store : FileStore m) (arguments : List String) :
    m Outcome := do
  match request arguments with
  | .error stop => return stop.outcome
  | .ok r =>
    let input := PathName.ofText r.input
    if r.print then
      return jobOutcome ((← (Job.outputOf store r.limits input).run).map Text.unlines)
    else
      let folder := PathName.ofText r.outputFolder
      return jobOutcome ((← (Job.run library store r.limits input folder).run).map fun _ => "")

end StackLang.CommandLine
