import Headroom.Console.Errand

/-!
The command line program. It reads the files that a command needs, carries the
command out, and writes what comes of it. The program has no network of its own:
a request goes unanswered, as if the service could not be reached.
-/
namespace Headroom.Program

/-- The bytes of a file, if it can be read. -/
def bytesOf (name : String) : IO (Option ByteArray) := do
  try
    return some (← IO.FS.readBinFile name)
  catch _ =>
    return none

/-- The user's preferences, if there are any. -/
def preferences : IO (Option String) := do
  match ← IO.getEnv "HOME" with
  | none => return none
  | some home =>
    return (← bytesOf (home ++ "/.config/scalectl/config.json")).map fun bytes =>
      (String.fromUTF8? bytes).getD ""

/-- What the command finds around it. -/
def surroundings (i : Console.Invocation) : IO Console.Surroundings := do
  let content ←
    match i.command.file? with
    | some file => bytesOf file
    | none => pure none
  return {
    url := ← IO.getEnv "SCALECTL_API_URL"
    preferences := ← preferences
    content := content.map fun bytes => bytes.toList }

/-- Carry out a command line. -/
def carryOut (arguments : List String) : IO Console.Output := do
  match Console.Invocation.ofArguments arguments with
  | .error stop => return .ofStop stop
  | .ok invocation =>
    match invocation.errand (← surroundings invocation) with
    | .done output => return output
    | .ask _ finish => return finish .lost

end Headroom.Program

def main (arguments : List String) : IO UInt32 := do
  let output ← Headroom.Program.carryOut arguments
  for line in output.lines do
    IO.println line
  for line in output.errors do
    IO.eprintln line
  return output.status.toUInt32
