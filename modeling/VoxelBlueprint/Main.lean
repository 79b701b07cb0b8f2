/-
# The program

Reads the files that the command line names and the environment, and prints the
outcome of the command.
-/
import VoxelBlueprint.CommandLine.Outcome

namespace VoxelBlueprint
namespace CommandLine

/-- How the program is used. -/
def usageText : String :=
  "usage: blockprint [-h] [-v] \x7bexpand,validate,catalog,serve\x7d ...\n\n" ++
  "  expand [--catalog FILE] [--max-blocks N] [--chunk-size N] FILE\n" ++
  "  validate FILE\n" ++
  "  catalog FILE\n" ++
  "  serve [--host HOST] [--port N]\n"

/-- The fault that an error on opening a file is. -/
def faultOf : IO.Error → FileFault
  | .inappropriateType _ _ _ => .isDirectory
  | .invalidArgument _ _ _ => .nameTooLong
  | _ => .missing

/-- Opens a file. -/
def openFile (name : String) : IO (Except FileFault (List UInt8)) := do
  try
    return .ok (← IO.FS.readBinFile name).toList
  catch error =>
    return .error (faultOf error)

/-- Reads the variables of the environment that have a value. -/
def readEnvironment : IO Environment :=
  Settings.names.filterMapM fun name => do
    return (← IO.getEnv name).map fun value => (name, value)

/-- Prints an outcome and gives the status of the program. -/
def report (outcome : Outcome) : IO UInt32 := do
  IO.print outcome.output
  IO.eprint outcome.diagnostics
  match outcome.ending with
  | .exit status => return status.toUInt32
  | .usage .help =>
    IO.print usageText
    return 0
  | .usage .noCommand =>
    IO.print usageText
    return 1
  | .usage .misuse =>
    IO.eprint usageText
    return 2
  | .failed failure =>
    IO.eprintln s!"{failure.kindName}: {failure.message}"
    return 1

/-- Runs the program. -/
def start (arguments : List String) : IO UInt32 := do
  let opened ← (filesOf arguments).mapM fun name => do return (name, ← openFile name)
  let read : FileReader := fun name => (opened.lookup name).getD (.error .missing)
  report (Outcome.of (← readEnvironment) read arguments)

end CommandLine
end VoxelBlueprint

/-- Runs the program. -/
def main (arguments : List String) : IO UInt32 :=
  VoxelBlueprint.CommandLine.start arguments
