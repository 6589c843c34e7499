import PocketCalc.CommandLine

/-!
# The program

Hands the words and the standard input to the command line and writes what comes back.
-/
namespace PocketCalc

def readInput (request : Request) : IO (List UInt8) := do
  match request with
  | .converse _ => return (← (← IO.getStdin).readBinToEnd).toList
  | _ => return []

def writeOutcome (outcome : Outcome) : IO Unit := do
  match outcome with
  | .usage => (← IO.getStderr).putStr "usage: scicalc [-d] [-i] [-e EXPR | KEYS...]\n"
  | .finished _ output diagnostics =>
    (← IO.getStdout).putStr (String.ofList output)
    (← IO.getStderr).putStr (String.ofList diagnostics)

def runProgram (arguments : List String) : IO UInt32 := do
  let request := Request.ofWords (arguments.map String.toList)
  let outcome := request.outcome (← readInput request)
  writeOutcome outcome
  return UInt32.ofNat outcome.status

end PocketCalc

def main (arguments : List String) : IO UInt32 :=
  PocketCalc.runProgram arguments
