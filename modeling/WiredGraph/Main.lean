import WiredGraph.CommandLine.Run

/-!
# The program

Takes the command line, carries the command out on the files of the machine, and prints what it
printed. Faults of usage exit with two, and runs that fail with one.
-/

namespace WiredGraph

namespace CommandLine

/-- How the program is called. -/
def usage : String :=
  "Usage: wiredgraph [-v] [-q] [-c FILE] schema FILES [-o DIRECTORY]\n" ++
  "       wiredgraph [-v] [-q] [-c FILE] operations FILES [-o DIRECTORY]\n" ++
  "       wiredgraph [-v] [-q] [-c FILE] check FILES"

/-- The fault that an error of the machine stands for. -/
def faultOf : IO.Error → FileFault
  | .noFileOrDirectory .. => .notFound
  | .alreadyExists .. => .alreadyExists
  | error => .other (toString error)

/-- Tries an operation of the machine. -/
def attempt {Item : Type} (operation : IO Item) : IO (Except FileFault Item) :=
  tryCatch (Except.ok <$> operation) fun error => return .error (faultOf error)

/-- The operations on the files of the machine. -/
def machineFiles : FileAccess IO where
  read path := attempt (IO.FS.readFile path)
  makeDirectories path := attempt (IO.FS.createDirAll path)
  write path text := attempt (IO.FS.writeFile path text)

/-- What is said about a run that failed. -/
def RunFailure.message : RunFailure → String
  | .invalidConfig fault => s!"invalid config {fault.path}: {fault.reason.message}"
  | .file fault => fault.message
  | .misalignedBlock => "a blank lies across the edge of a block string's indentation"

/-- Carries out a command on the files of the machine, and gives the exit code. -/
def runOnMachine (invocation : Invocation) : IO UInt32 := do
  let result ← runToEnd machineFiles invocation
  IO.print (Transcript.textOf result.transcript.out)
  IO.eprint (Transcript.textOf result.transcript.err)
  match result.outcome with
  | .ok code => return code.toUInt32
  | .error failure =>
      IO.eprintln s!"Error: {failure.message}"
      return 1

end CommandLine

end WiredGraph

open WiredGraph.CommandLine in
/-- The program. -/
def main (words : List String) : IO UInt32 := do
  match Invocation.parse words with
  | .ok invocation => runOnMachine invocation
  | .error .help =>
      IO.println usage
      return 0
  | .error .version =>
      IO.println "wiredgraph 0.1.0"
      return 0
  | .error _ =>
      IO.eprintln usage
      return 2
