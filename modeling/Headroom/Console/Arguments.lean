import Headroom.LogBatch.Encoding

/-!
The command line: options before a command, then the command with options and a file
of its own. An option has a long name and may have a letter; its value follows an
equals sign, or the letter, or is the next argument. An option may be given once.
-/
namespace Headroom.Console

/-- How results are shown. -/
inductive Format where
  | table | json
  deriving DecidableEq, Repr, Inhabited

def Format.ofName? : String → Option Format
  | "table" => some .table
  | "json" => some .json
  | _ => none

inductive Command where
  /-- Send the envelope in a file as a log batch. -/
  | ingest (file : String) (encoding : LogBatch.Encoding)
  /-- Notify the service of an alarm's state. -/
  | alarm (state : String) (name : Option String) (reason : String)
  /-- Average the log batch in a file. -/
  | aggregate (file : String) (encoding : LogBatch.Encoding) (container : Option String)
  | health
  deriving DecidableEq, Repr

/-- The file that a command reads. -/
def Command.file? : Command → Option String
  | .ingest file _ | .aggregate file _ _ => some file
  | _ => none

structure Invocation where
  /-- The address of the service. -/
  url : Option String := none
  format : Option Format := none
  command : Command
  deriving DecidableEq, Repr

/-- Why a command line is not carried out. -/
inductive Stop where
  /-- It does not follow the grammar. -/
  | misuse
  /-- It asks how to use the program. -/
  | help
  /-- It asks for the program's version. -/
  | version
  deriving DecidableEq, Repr

structure Flag where
  long : String
  letter : Option Char := none
  /-- The values that it may have. -/
  accepts : String → Bool := fun _ => true

/-- What may be given in one part of the command line. -/
structure Grammar where
  flags : List Flag
  /-- Whether a file is named. -/
  takesFile : Bool := false
  hasVersion : Bool := false

/-- What was given: values by long name, and the file. -/
structure Given where
  values : List (String × String) := []
  file : Option String := none
  deriving DecidableEq, Repr

def Given.value? (g : Given) (long : String) : Option String := g.values.lookup long

/-- Note the value of a flag. -/
def Given.add (g : Given) (flag : Flag) (value : String) : Except Stop Given :=
  if (g.value? flag.long).isSome ∨ ¬flag.accepts value then .error .misuse
  else .ok { g with values := (flag.long, value) :: g.values }

/-- Note the file. -/
def Given.addFile (g : Given) (grammar : Grammar) (file : String) : Except Stop Given :=
  if ¬grammar.takesFile ∨ g.file.isSome ∨ file = "" then .error .misuse
  else .ok { g with file := some file }

/-- Whether an argument begins an option; a dash alone does not. -/
def isOption (argument : String) : Bool := argument.startsWith "-" && argument != "-"

/-- What one argument is, by its looks. -/
inductive Argument where
  | help
  | version
  /-- A flag with the value that stands in the same argument. -/
  | flag (flag : Flag) (value : Option String)
  /-- All further arguments are plain. -/
  | separator
  | plain (text : String)
  | unknown

/-- The part before the first equals sign, and the part after it. -/
def splitValue (text : List Char) : String × Option String :=
  let name := text.takeWhile (· != '=')
  match text.dropWhile (· != '=') with
  | [] => (String.ofList name, none)
  | _ :: value => (String.ofList name, some (String.ofList value))

/-- An argument under a grammar. -/
def Grammar.classify (grammar : Grammar) (argument : String) : Argument :=
  match argument.toList with
  | ['-', '-'] => .separator
  | '-' :: '-' :: text =>
    let (name, value) := splitValue text
    match grammar.flags.find? (·.long == name) with
    | some flag => .flag flag value
    | none =>
      if value.isSome then .unknown
      else if name = "help" then .help
      else if name = "version" ∧ grammar.hasVersion then .version
      else .unknown
  | '-' :: letter :: rest =>
    match grammar.flags.find? (·.letter == some letter) with
    | some flag =>
      match rest with
      | [] => .flag flag none
      | '=' :: value => .flag flag (some (String.ofList value))
      | value => .flag flag (some (String.ofList value))
    | none =>
      if letter = 'h' then .help
      else if letter = 'V' ∧ grammar.hasVersion then .version
      else .unknown
  | _ => .plain argument

/-- Take arguments up to the first plain one, which is left with the rest. -/
def Grammar.readOptions (grammar : Grammar) (given : Given) :
    List String → Except Stop (Given × List String)
  | [] => .ok (given, [])
  | argument :: rest =>
    match grammar.classify argument with
    | .help => .error .help
    | .version => .error .version
    | .flag flag (some value) => do grammar.readOptions (← given.add flag value) rest
    | .flag flag none =>
      match rest with
      | value :: rest =>
        if isOption value then .error .misuse
        else do grammar.readOptions (← given.add flag value) rest
      | [] => .error .misuse
    | .plain _ => .ok (given, argument :: rest)
    | .separator | .unknown => .error .misuse

/-- Take plain arguments only. -/
def Grammar.readPlain (grammar : Grammar) (given : Given) : List String → Except Stop Given
  | [] => .ok given
  | argument :: rest => do grammar.readPlain (← given.addFile grammar argument) rest

/-- Take all arguments. -/
def Grammar.readAll (grammar : Grammar) (given : Given) : List String → Except Stop Given
  | [] => .ok given
  | argument :: rest =>
    match grammar.classify argument with
    | .help => .error .help
    | .version => .error .version
    | .flag flag (some value) => do grammar.readAll (← given.add flag value) rest
    | .flag flag none =>
      match rest with
      | value :: rest =>
        if isOption value then .error .misuse
        else do grammar.readAll (← given.add flag value) rest
      | [] => .error .misuse
    | .plain text => do grammar.readAll (← given.addFile grammar text) rest
    | .separator => grammar.readPlain given rest
    | .unknown => .error .misuse

def mainGrammar : Grammar :=
  { flags :=
      [{ long := "api-url" },
        { long := "format", letter := some 'f', accepts := fun v => (Format.ofName? v).isSome }]
    hasVersion := true }

def encodingFlag : Flag :=
  { long := "encoding", accepts := fun v => (LogBatch.Encoding.spellings.lookup v).isSome }

/-- The encoding that was given. -/
def Given.encoding (g : Given) (usual : LogBatch.Encoding) : LogBatch.Encoding :=
  ((g.value? "encoding").bind fun name => LogBatch.Encoding.spellings.lookup name).getD usual

def readIngest (arguments : List String) : Except Stop Command := do
  let grammar : Grammar := { flags := [encodingFlag], takesFile := true }
  let given ← grammar.readAll {} arguments
  match given.file with
  | some file => return .ingest file (given.encoding .gzipBase64)
  | none => throw .misuse

def readAlarm (arguments : List String) : Except Stop Command := do
  let grammar : Grammar :=
    { flags := [{ long := "state" }, { long := "alarm-name" }, { long := "reason" }] }
  let given ← grammar.readAll {} arguments
  return .alarm ((given.value? "state").getD "ALARM") (given.value? "alarm-name")
    ((given.value? "reason").getD "Triggered from scalectl")

def readAggregate (arguments : List String) : Except Stop Command := do
  let grammar : Grammar :=
    { flags := [encodingFlag, { long := "container-name", letter := some 'c' }]
      takesFile := true }
  let given ← grammar.readAll {} arguments
  match given.file with
  | some file => return .aggregate file (given.encoding .identity) (given.value? "container-name")
  | none => throw .misuse

def readHealth (arguments : List String) : Except Stop Command := do
  let _ ← ({ flags := [] } : Grammar).readAll {} arguments
  return .health

/-- The commands by name. -/
def commands : List (String × (List String → Except Stop Command)) :=
  [("ingest", readIngest), ("alarm", readAlarm), ("aggregate", readAggregate),
    ("health", readHealth)]

/-- The command `help`, which may name a command. -/
def readHelp : List String → Stop
  | [] => .help
  | [name] => if name = "help" ∨ commands.any (·.1 == name) then .help else .misuse
  | _ => .misuse

/-- Read a command line. -/
def Invocation.ofArguments (arguments : List String) : Except Stop Invocation := do
  let (given, rest) ← mainGrammar.readOptions {} arguments
  match rest with
  | [] => throw .misuse
  | "help" :: rest => throw (readHelp rest)
  | name :: rest =>
    match commands.lookup name with
    | none => throw .misuse
    | some read =>
      return {
        url := given.value? "api-url"
        format := (given.value? "format").bind Format.ofName?
        command := ← read rest }

end Headroom.Console
