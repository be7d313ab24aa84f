import ChipEight.CommandLine

/-!
# Running a program

Reads the program and, for a window, the script of its frames from standard input; prints each
frame as text and then what was printed besides.
-/

namespace ChipEight

/-- The lines of an input up to its end. -/
partial def readLines (input : IO.FS.Stream) (before : List String) : IO (List String) := do
  let line ← input.getLine
  if line.isEmpty then return before.reverse else readLines input (line :: before)

/-- Prints a message to the standard error and gives the exit code of a failure. -/
def fail (message : String) : IO UInt32 := do
  (← IO.getStderr).putStrLn message
  return 1

end ChipEight

open ChipEight in
/-- Runs the program that the command line names and prints what was to be seen. -/
def main (args : List String) : IO UInt32 := do
  let output ← IO.getStdout
  match Request.ofWords args with
  | .error fault => fail fault.message
  | .ok request =>
    let program ← match request.rom with
      | some path => pure (some (path, (← IO.FS.readBinFile path).toList))
      | none => pure none
    let lines ← if request.configuration.headless then pure [] else readLines (← IO.getStdin) []
    match Frame.ofLines 0.0 lines with
    | .error fault => fail fault.message
    | .ok script =>
      let report := Program.run request.configuration program (← output.isTty) [0.0] script
      for frame in report.shown do
        output.putStr frame.text
        output.putStrLn (Picture.plainText frame.machine.state.screen)
      output.putStr report.text
      match report.fault with
      | some fault => fail fault.message
      | none => return 0
