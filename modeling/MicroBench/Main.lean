import MicroBench.Program
import Std.Time.Zoned

namespace MicroBench.Main

open CommandLine (Word)

/-- Minute and second of the hour, of local time where it is known. -/
def stamp : IO String := do
  try
    let time ← Std.Time.PlainTime.now
    return ClockFace.stampAt time.minute.toNat time.second.toNat
  catch _ =>
    let seconds := (← Std.Time.Timestamp.now).toSecondsSinceUnixEpoch.val.toNat
    return ClockFace.stampAt (seconds / 60 % 60) (seconds % 60)

def console : Console IO where
  now := return ⟨← IO.monoNanosNow⟩
  say message := do (← IO.getStderr).putStr (message.coloured (← stamp) Elapsed.exact)

def write (exit : Exit) : IO UInt32 := do
  let stdout ← IO.getStdout
  stdout.putStr exit.stdout
  stdout.flush
  (← IO.getStderr).putStr exit.stderr
  return UInt32.ofNat exit.code

def runProgram (program : Program) (words : List Word) : IO UInt32 :=
  match program.tool.parse words with
  | .error exit => write exit
  | .ok level => do
    let everything : Console (ExceptT Fault IO) := console.map ExceptT.lift
    match ← (program.work (everything.upTo level) (fun e ↦ e.seconds.text) program.size).run with
    | .ok report => write ⟨0, report.text, ""⟩
    | .error fault => write ⟨101, "", fault.message ++ "\n"⟩

end MicroBench.Main

open MicroBench in
/-- The first word chooses the program, which reads the others. -/
def main (args : List String) : IO UInt32 := do
  match args with
  | [] => Main.write ⟨2, "", "expected the name of a program, fannkuch or fib\n"⟩
  | name :: rest =>
    match Program.ofName? name with
    | some program =>
      Main.runProgram program (.ofString name :: rest.map .ofString)
    | none => Main.write ⟨2, "", s!"no program has the name {name}\n"⟩
