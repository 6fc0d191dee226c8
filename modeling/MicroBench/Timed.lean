import MicroBench.Console

namespace MicroBench

structure Timed (α : Type) where
  value : α
  elapsed : Elapsed
  deriving DecidableEq, Repr

namespace Timed

variable {m : Type → Type} [Monad m] {α : Type}

/-- Runs a task once, between two looks at the clock. -/
def measure (console : Console m) (task : Unit → m α) : m (Timed α) := do
  let start ← console.now
  let value ← task ()
  let stop ← console.now
  let elapsed := start.since stop
  console.say (.finished elapsed)
  return ⟨value, elapsed⟩

def fields (t : Timed Nat) : List (String × Inspect) :=
  [("value", .ofNat t.value), ("elapsed", .atom t.elapsed.exact)]

def oneLine (t : Timed Nat) : String := Inspect.recordOneLine "Timed" t.fields

def indented (t : Timed Nat) : String := Inspect.recordIndented "Timed" t.fields

end Timed

end MicroBench
