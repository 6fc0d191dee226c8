import MicroBench.Log

namespace MicroBench

/-- What a benchmark asks of the world: a steady clock and a place for messages. -/
structure Console (m : Type → Type) where
  now : m Elapsed
  say : Message → m Unit

namespace Console

variable {m n : Type → Type}

def upTo [Monad m] (limit : Level) (console : Console m) : Console m where
  now := console.now
  say message := if message.within limit then console.say message else pure ()

def map (f : {α : Type} → m α → n α) (console : Console m) : Console n where
  now := f console.now
  say message := f (console.say message)

end Console

structure Tape where
  readings : Nat := 0
  said : List Message := []
  deriving DecidableEq, Repr

abbrev Recorded : Type → Type := StateT Tape (Except Fault)

namespace Recorded

/-- The console of a recorded run, whose `i`-th look at the clock shows `clock i`. -/
def console (clock : Nat → Elapsed) : Console Recorded where
  now tape := .ok (clock tape.readings, { tape with readings := tape.readings + 1 })
  say message tape := .ok ((), { tape with said := tape.said ++ [message] })

def result {α : Type} (run : Recorded α) : Except Fault (α × Tape) := run {}

end Recorded

end MicroBench
