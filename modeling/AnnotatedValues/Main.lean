import AnnotatedValues.CommandLine.Run

/-! # The program

Runs the command of its arguments on the files of the system. -/
namespace AnnotatedValues.CommandLine

def faultOf : IO.Error → FileFault
  | .noFileOrDirectory .. => .missing
  | .alreadyExists .. => .exists
  | .permissionDenied .. => .denied
  | .inappropriateType _ code _ => if code == 21 then .isDirectory else .notDirectory
  | error => .other error.toString

def attempt {α : Type} (action : IO α) : IO (Except FileFault α) :=
  tryCatch (Except.ok <$> action) fun error => pure (.error (faultOf error))

def listNames (path : String) : IO (Except FileFault (List (String × Bool))) := attempt do
  let entries ← ((← IO.currentDir) / path).readDir
  entries.toList.mapM fun entry => return (entry.fileName, ← entry.path.isDir)

instance : Files IO where
  read path := do
    match ← attempt (IO.FS.readBinFile path) with
    | .error fault => return .error fault
    | .ok bytes =>
      return match String.fromUTF8? bytes with
      | some text => .ok text
      | none => .error .notText
  write path text := attempt (IO.FS.writeFile path text)
  makeDirectory path := attempt (IO.FS.createDir path)
  isDirectory path := do ((← IO.currentDir) / path).isDir
  isPresent path := do ((← IO.currentDir) / path).pathExists
  list := listNames

/-- What the program says about its arguments. -/
def usageText : String :=
  "values-gen: generate Go types, a CRD, a JSON schema and README tables from an annotated\n" ++
    "values.yaml\n\n" ++
    "values-gen generate [-v values.yaml] [-m values] [-g FILE] [-c FILE] [-s FILE] [-r README]\n" ++
    "values-gen check INPUT...\n"

def versionText : String := "values-gen 0.1.0\n"

def Usage.message : Usage → String
  | .help | .noCommand => usageText
  | .version => versionText
  | .unknownCommand => "error: unrecognized subcommand\n"
  | .unknownArgument => "error: unexpected argument\n"
  | .badValue => "error: a value is required\n"
  | .valueForFlag => "error: unexpected value\n"
  | .repeated => "error: the argument cannot be used multiple times\n"
  | .noInput => "error: the input was not provided\n"

/-- Prints an answer to the arguments; only help and the version were asked for. -/
def reportUsage (u : Usage) : IO UInt32 :=
  match u with
  | .help | .version => do
    IO.print u.message
    return 0
  | _ => do
    IO.eprint u.message
    return 2

def Report.print (r : Report) : IO UInt32 := do
  r.messages.forM IO.eprintln
  r.output.forM IO.println
  match r.result with
  | .passed => return 0
  | .failed => return 1
  | .stopped failure =>
    IO.eprintln ("error: " ++ failure.message)
    return 1

end AnnotatedValues.CommandLine

open AnnotatedValues.CommandLine in
def main (arguments : List String) : IO UInt32 := do
  match Command.ofArguments arguments with
  | .error usage => reportUsage usage
  | .ok command => (← command.run).print
