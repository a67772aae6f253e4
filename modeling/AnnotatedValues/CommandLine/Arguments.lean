import AnnotatedValues.Text.Blank

/-! # Command line arguments

`generate` takes options with values, in long or short form and with the value attached or behind,
and a flag; `check` takes paths. Two dashes end the options. An option is complete once the next
one or the end is reached: only then is its value looked at. -/
namespace AnnotatedValues.CommandLine

/-- The options of `generate` that take a value. -/
inductive ValueOption where
  | values
  | package
  | go
  | definition
  | schema
  | readme
  deriving DecidableEq, Repr, Inhabited

def ValueOption.ofLong? : String → Option ValueOption
  | "values" => some .values
  | "module" => some .package
  | "debug-go" => some .go
  | "debug-crd" => some .definition
  | "schema" => some .schema
  | "readme" => some .readme
  | _ => none

def ValueOption.ofShort? : Char → Option ValueOption
  | 'v' => some .values
  | 'm' => some .package
  | 'g' => some .go
  | 'c' => some .definition
  | 's' => some .schema
  | 'r' => some .readme
  | _ => none

/-- All values but the name of the package are paths, which are not empty. -/
def ValueOption.accepts (o : ValueOption) (value : String) : Bool :=
  o = .package || !value.isEmpty

/-- Why arguments are no command. -/
inductive Usage where
  | help
  | version
  /-- No argument at all. -/
  | noCommand
  | unknownCommand
  | unknownArgument
  /-- A value that is missing or must not be empty. -/
  | badValue
  /-- A value for a flag. -/
  | valueForFlag
  | repeated
  | noInput
  deriving DecidableEq, Repr, Inhabited

structure GenerateArguments where
  values : String
  package : String
  go? : Option String
  definition? : Option String
  schema? : Option String
  readme? : Option String
  quiet : Bool
  deriving DecidableEq, Repr, Inhabited

inductive Command where
  | generate (arguments : GenerateArguments)
  | check (inputs : List String)
  deriving DecidableEq, Repr, Inhabited

/-- The name of a long option with the value behind its equals sign. -/
def splitLong (cs : List Char) : String × Option String :=
  let name := String.ofList (cs.takeWhile (· != '='))
  match cs.dropWhile (· != '=') with
  | [] => (name, none)
  | _ :: value => (name, some (String.ofList value))

inductive Argument where
  | escape
  | long (name : String) (value? : Option String)
  | short (cluster : List Char)
  | plain (text : String)
  deriving DecidableEq, Repr

/-- A single dash is a plain argument. -/
def Argument.ofText (text : String) : Argument :=
  match text.toList with
  | ['-', '-'] => .escape
  | '-' :: '-' :: cs => let (name, value?) := splitLong cs; .long name value?
  | '-' :: c :: cs => .short (c :: cs)
  | _ => .plain text

/-- The arguments of `generate` that have been read. -/
structure Reading where
  given : List (ValueOption × String)
  quiet : Bool
  /-- The last option, if it is not yet complete, with the value behind it. -/
  pending? : Option (ValueOption × Option String)
  deriving DecidableEq, Repr, Inhabited

namespace Reading

def empty : Reading := ⟨[], false, none⟩

def assign (r : Reading) (o : ValueOption) (value : String) : Except Usage Reading :=
  if (r.given.lookup o).isSome then .error .repeated
  else if o.accepts value then .ok { r with given := (o, value) :: r.given }
  else .error .badValue

/-- Completes the pending option. -/
def complete (r : Reading) : Except Usage Reading :=
  match r.pending? with
  | none => .ok r
  | some (_, none) => .error .badValue
  | some (o, some value) => { r with pending? := none }.assign o value

/-- An option, with the value that is attached to it. -/
def addOption (r : Reading) (o : ValueOption) (value? : Option String) : Except Usage Reading := do
  let r ← r.complete
  match value? with
  | some value => r.assign o value
  | none => return { r with pending? := some (o, none) }

def addQuiet (r : Reading) : Except Usage Reading := do
  let r ← r.complete
  if r.quiet then throw .repeated else return { r with quiet := true }

def askHelp (r : Reading) : Except Usage Reading := do
  let _ ← r.complete
  throw .help

/-- A long option or flag. -/
def addLong (r : Reading) (name : String) (value? : Option String) : Except Usage Reading :=
  match ValueOption.ofLong? name with
  | some o => r.addOption o value?
  | none =>
    if name == "quiet" then if value?.isSome then .error .valueForFlag else r.addQuiet
    else if name == "help" then if value?.isSome then .error .valueForFlag else r.askHelp
    else .error .unknownArgument

/-- The value attached to a short option, with or without an equals sign. -/
def attached? : List Char → Option String
  | [] => none
  | '=' :: cs => some (String.ofList cs)
  | cs => some (String.ofList cs)

/-- Short flags, and at most one short option with what is attached to it. -/
def addCluster (r : Reading) : List Char → Except Usage Reading
  | [] => .ok r
  | c :: cs =>
    match ValueOption.ofShort? c with
    | some o => r.addOption o (attached? cs)
    | none =>
      if c == 'q' then do addCluster (← r.addQuiet) cs
      else if c == 'h' then r.askHelp
      else .error .unknownArgument

/-- A plain argument is the value of the pending option. -/
def addPlain (r : Reading) (text : String) : Except Usage Reading :=
  match r.pending? with
  | some (o, none) => .ok { r with pending? := some (o, some text) }
  | _ => .error .unknownArgument

def addAll (r : Reading) : List String → Except Usage Reading
  | [] => r.complete
  | text :: texts =>
    match Argument.ofText text with
    | .escape => if texts.isEmpty then r.complete else .error .unknownArgument
    | .long name value? => do addAll (← r.addLong name value?) texts
    | .short cluster => do addAll (← r.addCluster cluster) texts
    | .plain value => do addAll (← r.addPlain value) texts

def arguments (r : Reading) : GenerateArguments where
  values := (r.given.lookup .values).getD "values.yaml"
  package := (r.given.lookup .package).getD "values"
  go? := r.given.lookup .go
  definition? := r.given.lookup .definition
  schema? := r.given.lookup .schema
  readme? := r.given.lookup .readme
  quiet := r.quiet

end Reading

/-- A request for help or an unknown argument, where only the flag for help is known. -/
def strayLong (name : String) (value? : Option String) : Usage :=
  if name == "help" then if value?.isSome then .valueForFlag else .help else .unknownArgument

/-- The inputs of `check`. -/
def inputs : List String → Except Usage (List String)
  | [] => .ok []
  | text :: texts =>
    match Argument.ofText text with
    | .escape => .ok texts
    | .long name value? => .error (strayLong name value?)
    | .short cluster => .error (if cluster.head? == some 'h' then .help else .unknownArgument)
    | .plain input => (inputs texts).map (input :: ·)

def isCommandName (name : String) : Bool :=
  name == "generate" || name == "check" || name == "help"

/-- What `help` answers for the names of commands. -/
def helpOn : List String → Usage
  | [] => .help
  | [name] => if isCommandName name then .help else .unknownCommand
  | _ => .unknownCommand

/-- An option in front of the command. -/
def leadingLong (name : String) (value? : Option String) : Usage :=
  if name == "version" then if value?.isSome then .valueForFlag else .version
  else strayLong name value?

def leadingShort (cluster : List Char) : Usage :=
  match cluster.head? with
  | some 'h' => .help
  | some 'V' => .version
  | _ => .unknownArgument

/-- Two dashes in front of the command. -/
def leadingEscape : List String → Usage
  | [] => .noCommand
  | text :: _ => if isCommandName text then .unknownArgument else .unknownCommand

def checkInputs (texts : List String) : Except Usage (List String) :=
  match inputs texts with
  | .ok [] => .error .noInput
  | result => result

/-- The command that the arguments of the program give. -/
def Command.ofArguments : List String → Except Usage Command
  | [] => .error .noCommand
  | text :: texts =>
    match text with
    | "generate" => (Reading.empty.addAll texts).map fun r => .generate r.arguments
    | "check" => (checkInputs texts).map .check
    | "help" => .error (helpOn texts)
    | _ =>
      match Argument.ofText text with
      | .escape => .error (leadingEscape texts)
      | .long name value? => .error (leadingLong name value?)
      | .short cluster => .error (leadingShort cluster)
      | .plain _ => .error .unknownCommand

end AnnotatedValues.CommandLine
