import GeneticProgram.CommandLine.Run
import Std.Time.Format
import Std.Time.Zoned

/-!
# The program

The command line, connected to the process: its arguments, the clock, the two output streams and
the exit status.
-/

namespace GeneticProgram

/-- The time as it stands in the log. -/
def timeStamp : IO String := do
  let now ← Std.Time.PlainDateTime.now
  pure (now.format "uuuu-MM-dd HH:mm:ss,SSS")

/-- Carry out the end of a run. -/
def CommandLine.Outcome.deliver : Outcome → IO UInt32
  | .finished status output diagnostics => do
    IO.eprint diagnostics
    IO.print output
    pure status.toUInt32
  | .faulted fault diagnostics => do
    IO.eprint diagnostics
    IO.eprintln fault.message
    pure 1

end GeneticProgram

/-- Read a program from the command line and report on it. -/
def main (arguments : List String) : IO UInt32 := do
  (GeneticProgram.CommandLine.run (← GeneticProgram.timeStamp) arguments).deliver
