import MemPort.CommandLine

/-!
# The program

Reads the configuration, runs the simulation and prints what comes of it.

## References

`SPEC_FULL.md`, section 10.1: the program.
-/

namespace MemPort

open CommandLine

/-- The lines that tell what went wrong. -/
def errorLines : List String → List String
  | [] => []
  | [message] => [s!"Error: {message}"]
  | [message, cause] => [s!"Error: {message}", "", "Caused by:", s!"    {cause}"]
  | message :: causes =>
      [s!"Error: {message}", "", "Caused by:"] ++
        causes.mapIdx fun i cause => s!"    {i}: {cause}"

/-- Write a text to a path; the result says whether that was possible. -/
def tryWrite (path : String) (text : String) : IO Bool := do
  try
    IO.FS.writeFile path text
    return true
  catch _ => return false

/-- Read a text from a path. -/
def tryRead (path : String) : IO (Option String) := do
  try
    return some (← IO.FS.readFile path)
  catch _ => return none

/-- Run the simulation of a call. -/
def runSimulation (configPath : String) (options : Options) : IO UInt32 := do
  let ending := conclude configPath options (← tryRead configPath)
  let written ← match ending.conclusion with
    | .summary document (some path) => tryWrite path ("\n".intercalate document)
    | _ => pure true
  let result := report ending fun _ => written
  for line in result.output do
    IO.println line
  for line in ending.notices ++ errorLines result.error do
    IO.eprintln line
  return UInt32.ofNat result.code

end MemPort

/-- Answer a call of the program. -/
def main (args : List String) : IO UInt32 := do
  match MemPort.CommandLine.parseArguments args with
  | .wrong =>
      IO.eprintln "error: invalid arguments (see --help)"
      return 2
  | .help =>
      for line in MemPort.CommandLine.helpLines do
        IO.println line
      return 0
  | .version =>
      for line in MemPort.CommandLine.versionLines do
        IO.println line
      return 0
  | .simulation configPath options => MemPort.runSimulation configPath options
