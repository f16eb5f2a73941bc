/-
The program: reads files and standard input, and writes what the command line answers.
-/
import Std.Time.DateTime.Timestamp
import TicketSearch.CommandLine

namespace TicketSearch

/-- What is found under the name of a file. -/
def fileContent (file : Text) : IO FileContent := do
  try
    let bytes ← IO.FS.readBinFile (String.ofList file)
    return (String.fromUTF8? bytes).elim .notText fun content => .text content.toList
  catch _ => return .missing

/-- The present moment. -/
def presentMoment : IO Instant := do
  let time ← Std.Time.Timestamp.now
  let total := time.toNanosecondsSinceUnixEpoch.val
  let second := (total / 1000000000 % 86400).toNat
  let day := (Date.ofNumber? (total / 1000000000 / 86400)).getD Date.earliest
  return (Instant.ofClock? day second (total % 1000000000).toNat 0).getD Instant.earliest

/-- Runs the command line on the files and the input of the system. -/
def runOnSystem (arguments : List Text) : IO Outcome := do
  let a := (Arguments.blank.read? arguments).getD .blank
  let files ← (a.tickets.toList ++ a.values.toList).mapM fun file =>
    return (file, ← fileContent file)
  let input ← if a.query.isSome then pure "" else (← IO.getStdin).readToEnd
  return runCommandLine arguments (fun file => (files.lookup file).getD .missing) input.toList
    (← presentMoment)

end TicketSearch

/-- The entry point. -/
def main (arguments : List String) : IO UInt32 := do
  let outcome ← TicketSearch.runOnSystem (arguments.map String.toList)
  IO.print (String.ofList outcome.output)
  IO.eprint (String.ofList outcome.errors)
  return UInt32.ofNat outcome.code
