import AnnotatedValues.CommandLine.Arguments
import AnnotatedValues.Files.Matching
import AnnotatedValues.ValuesFile

/-! # Running a command

`generate` reads one values file and writes what is asked for, one file after the other; `check`
reads files and reports on each. A report holds what is printed; the files are written on the
way. -/
namespace AnnotatedValues.CommandLine

/-- What stops a command. -/
inductive Failure where
  | noOutput
  | processing (path : String) (error : Error)
  | unreadable (path : String) (fault : FileFault)
  | noDirectory (path : String) (fault : FileFault)
  | unwritable (path : String) (fault : FileFault)
  | badPattern (pattern : String) (fault : Wildcard.Fault)
  | unlisted (path : String) (fault : FileFault)
  | noMatch (pattern : String)
  deriving DecidableEq, Repr

/-- A message with that of its cause behind it. -/
def because (message cause : String) : String := message ++ ": " ++ cause

/-- The message of an error and of its cause, if it has one. -/
def chainOf (e : Error) : String :=
  match e with
  | .unreadable _ fault => because e.message fault.message
  | _ => e.message

def faultMessage (f : Wildcard.Fault) : String :=
  "Pattern syntax error near position " ++ String.ofList (Decimal.natText f.position) ++ ": " ++
    f.cause.message

def Failure.message : Failure → String
  | .noOutput => "no output specified (use --debug-go, --debug-crd, --schema or --readme)"
  | .processing path error => because ("failed to process " ++ path) (chainOf error)
  | .unreadable path fault => because ("failed to read " ++ path) fault.message
  | .noDirectory path fault => because ("failed to create " ++ path) fault.message
  | .unwritable path fault => because ("failed to write " ++ path) fault.message
  | .badPattern pattern fault => because ("invalid glob pattern: " ++ pattern) (faultMessage fault)
  | .unlisted path fault =>
    because ("attempting to read `" ++ path ++ "` resulted in an error") fault.message
  | .noMatch pattern => "glob pattern matched no files: " ++ pattern

inductive Result where
  | passed
  /-- Some of the files that were checked have errors. -/
  | failed
  | stopped (failure : Failure)
  deriving DecidableEq, Repr

/-- What a command prints, line by line, and how it ends. -/
structure Report where
  result : Result
  output : List String
  messages : List String
  deriving DecidableEq, Repr

def warning (path : String) (d : Annotation.Diagnostic) : String :=
  "warning: " ++ path ++ ":" ++ String.ofList (Decimal.natText d.line) ++ ": " ++ d.message

def warnings (f : ValuesFile) : List String := f.diagnostics.map (warning f.source)

/-- A text and the file that it is written to. -/
structure Output where
  path : String
  text : String
  label : String
  deriving DecidableEq, Repr

def Output.status (o : Output) : String := o.label ++ ": " ++ o.path

def output? (path? text? : Option String) (label : String) : Option Output :=
  match path?, text? with
  | some path, some text => some ⟨path, text, label⟩
  | _, _ => none

namespace GenerateArguments

def hasOutput (a : GenerateArguments) : Bool :=
  a.go?.isSome || a.definition?.isSome || a.schema?.isSome || a.readme?.isSome

def request (a : GenerateArguments) (readme? : Option String) : Request :=
  ⟨a.package, a.go?.isSome, a.definition?.isSome, a.schema?.isSome, readme?⟩

/-- The files to write, in the order of writing. -/
def outputs (a : GenerateArguments) (artifacts : Artifacts) : List Output :=
  [output? a.go? artifacts.go? "write Go structs",
    output? a.definition? artifacts.definition? "write CRD resource",
    output? a.schema? artifacts.schema? "write JSON schema",
    output? a.readme? artifacts.readme? "update README parameters"].filterMap id

end GenerateArguments

variable {m : Type → Type} [Monad m] [Files m]

def readValuesFile (path : String) : m (Except Error ValuesFile) := do
  match ← Files.read path with
  | .ok text => return ValuesFile.ofText path text
  | .error fault => return .error (.unreadable path fault)

def readReadme : Option String → m (Except Failure (Option String))
  | none => return .ok none
  | some path => do
    match ← Files.read path with
    | .ok text => return .ok (some text)
    | .error fault => return .error (.unreadable path fault)

/-- Writes a file, and makes the directory that it is in. -/
def Output.write (o : Output) : m (Except Failure Unit) := do
  let parent := Path.parent o.path
  match ← Files.ensureDirectories parent with
  | .error fault => return .error (.noDirectory (Path.text parent) fault)
  | .ok () =>
    match ← Files.write o.path o.text with
    | .error fault => return .error (.unwritable o.path fault)
    | .ok () => return .ok ()

/-- Writes files up to the first failure, with a line for each that was written. -/
def writeAll : List Output → m (List String × Result)
  | [] => return ([], .passed)
  | o :: outputs => do
    match ← o.write with
    | .error failure => return ([], .stopped failure)
    | .ok () =>
      let (lines, result) ← writeAll outputs
      return (o.status :: lines, result)

/-- Writes what a values file generates. -/
def generateFrom (a : GenerateArguments) (f : ValuesFile) : m Report := do
  match ← readReadme a.readme? with
  | .error failure => return ⟨.stopped failure, [], warnings f⟩
  | .ok readme? =>
    match f.generate (a.request readme?) with
    | .error error => return ⟨.stopped (.processing a.values error), [], warnings f⟩
    | .ok artifacts =>
      let (lines, result) ← writeAll (a.outputs artifacts)
      return ⟨result, [], warnings f ++ if a.quiet then [] else lines⟩

def generate (a : GenerateArguments) : m Report := do
  if a.hasOutput then
    match ← readValuesFile a.values with
    | .error error => return ⟨.stopped (.processing a.values error), [], []⟩
    | .ok f => generateFrom a f
  else return ⟨.stopped .noOutput, [], []⟩

/-- The paths that an input of `check` stands for. -/
def expandInput (input : String) : m (Except Failure (List String)) := do
  if Wildcard.isPattern input then
    match Wildcard.pattern input with
    | .error fault => return .error (.badPattern input fault)
    | .ok pattern =>
      return match ← pattern.paths with
        | .error unlisted => .error (.unlisted unlisted.path unlisted.fault)
        | .ok paths => if paths.isEmpty then .error (.noMatch input) else .ok paths
  else return .ok [input]

def expandInputs : List String → m (Except Failure (List String))
  | [] => return .ok []
  | input :: inputs => do
    match ← expandInput input with
    | .error failure => return .error failure
    | .ok paths => return (← expandInputs inputs).map (paths ++ ·)

/-- Reads a file and checks its values. -/
def checkFile (path : String) : m (Except Error ValuesFile) := do
  let file ← readValuesFile path
  return file.bind fun f => f.validate.map fun _ => f

/-- The line for a file that was checked. -/
def verdict (path : String) : Except Error ValuesFile → String
  | .ok _ => "ok " ++ path
  | .error error => "error " ++ path ++ ": " ++ error.message

def warningsOf : Except Error ValuesFile → List String
  | .ok f => warnings f
  | .error _ => []

def checkAll (paths : List String) : m Report := do
  let results ← paths.mapM checkFile
  let result := if results.all Except.isOk then Result.passed else .failed
  return ⟨result, List.zipWith verdict paths results, results.flatMap warningsOf⟩

def check (inputs : List String) : m Report := do
  match ← expandInputs inputs with
  | .error failure => return ⟨.stopped failure, [], []⟩
  | .ok paths => checkAll paths

def Command.run : Command → m Report
  | .generate a => CommandLine.generate a
  | .check inputs => CommandLine.check inputs

end AnnotatedValues.CommandLine
