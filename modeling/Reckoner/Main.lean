import Reckoner.CommandLine.Report

/-!
# The command

Reads the arguments, the setting and, where there are no expressions, the input;
writes what the run wrote and returns its status.
-/

namespace Reckoner

namespace CommandLine

def writePiece (piece : Channel × String) : IO Unit := do
  match piece.1 with
  | .output =>
      let stream <- IO.getStdout
      stream.putStr piece.2
  | .errors =>
      let stream <- IO.getStderr
      stream.putStr piece.2

def readInput (request : Request) : IO String := do
  if request.readsInput then
    let stream <- IO.getStdin
    stream.readToEnd
  else return ""

def exitStatus : Ending -> UInt32
  | .finished status => status.toUInt32
  | .stopped code => code.toUInt32
  | .crashed _ => 1

end CommandLine

end Reckoner

open Reckoner.CommandLine in
def main (arguments : List String) : IO UInt32 := do
  let request := Request.ofArguments arguments
  let setting <- IO.getEnv Reckoner.Settings.strictArityVariable
  let input <- readInput request
  let report := carryOut request setting input
  report.written.forM writePiece
  match report.ending with
  | .crashed failure => writePiece (.errors, failure.kind ++ ": " ++ failure.message ++ "\n")
  | _ => pure ()
  return exitStatus report.ending
