import MicroBench.Report

namespace MicroBench

variable {ε : Type}

/-- How a sink answers when it can take nothing: by taking nothing, or with an error of its own. -/
inductive Refusal (ε : Type) where
  | takesNothing
  | fails (error : ε)
  deriving DecidableEq, Repr

inductive WriteError (ε : Type) where
  | wroteNothing
  | given (error : ε)
  deriving DecidableEq, Repr

def WriteError.message (wording : ε → String) : WriteError ε → String
  | wroteNothing => "failed to write whole buffer"
  | given error => wording error

def Refusal.error : Refusal ε → WriteError ε
  | takesNothing => .wroteNothing
  | fails error => .given error

/-- A place that takes at most `cap` bytes in all and `chunk` bytes at a time. A nervous one is
interrupted at every other call, the first one included. -/
structure Sink (ε : Type) where
  cap : Nat
  chunk : Nat
  nervous : Bool
  refusal : Refusal ε
  calls : Nat := 0
  taken : List UInt8 := []
  deriving DecidableEq, Repr

namespace Sink

inductive Answer (ε : Type) where
  | interrupted
  | took (count : Nat)
  | refused (error : WriteError ε)
  deriving DecidableEq, Repr

def interrupts (s : Sink ε) : Bool := s.nervous && s.calls % 2 == 0

def room (s : Sink ε) : Nat := min s.chunk (s.cap - s.taken.length)

/-- Offers bytes once. Taking none of them is an answer too. -/
def write (bytes : List UInt8) (s : Sink ε) : Answer ε × Sink ε :=
  let called := { s with calls := s.calls + 1 }
  if s.interrupts then (.interrupted, called)
  else
    match min bytes.length s.room, s.refusal with
    | 0, .takesNothing => (.took 0, called)
    | 0, refusal => (.refused refusal.error, called)
    | count, _ => (.took count, { called with taken := s.taken ++ bytes.take count })

theorem write_interrupted {bytes : List UInt8} {s t : Sink ε}
    (h : s.write bytes = (.interrupted, t)) :
    s.interrupts = true ∧ t.interrupts = false := by
  unfold write at h
  split at h
  · rename_i hs
    obtain ⟨-, rfl⟩ := Prod.mk.inj h
    refine ⟨hs, ?_⟩
    simp only [interrupts, Bool.and_eq_true, beq_iff_eq] at hs
    simp [interrupts]
    omega
  · split at h <;> simp at h

theorem write_took {bytes : List UInt8} {s t : Sink ε} {count : Nat}
    (h : s.write bytes = (.took count, t)) : count ≤ bytes.length := by
  unfold write at h
  split at h
  · simp at h
  · split at h
    · simp at h
      omega
    · simp at h
    · simp only [Prod.mk.injEq, Answer.took.injEq] at h
      omega

/-- The bytes still to offer, weighed so that an interrupted call counts as progress. -/
def pending (bytes : List UInt8) (s : Sink ε) : Nat := 2 * bytes.length + s.interrupts.toNat

def writeAll (bytes : List UInt8) (s : Sink ε) : Except (WriteError ε) Unit × Sink ε :=
  if bytes.isEmpty then (.ok (), s)
  else
    match h : s.write bytes with
    | (.interrupted, t) => writeAll bytes t
    | (.refused error, t) => (.error error, t)
    | (.took 0, t) => (.error .wroteNothing, t)
    | (.took (count + 1), t) => writeAll (bytes.drop (count + 1)) t
termination_by s.pending bytes
decreasing_by
  · have hi := write_interrupted h
    simp [pending, hi]
  · have ht := write_took h
    have hs := s.interrupts.toNat_le
    have hb := t.interrupts.toNat_le
    simp only [pending, List.length_drop]
    omega

def writeLines : List (List UInt8) → Sink ε → Except (WriteError ε) Unit × Sink ε
  | [], s => (.ok (), s)
  | line :: lines, s =>
    match s.writeAll line with
    | (.ok (), t) => writeLines lines t
    | (.error error, t) => (.error error, t)

end Sink

structure Delivery (ε : Type) where
  outcome : Except (WriteError ε) Unit
  written : List UInt8

namespace Report

def deliver (r : Report) (s : Sink ε) : Delivery ε × Sink ε :=
  let result := s.writeLines r.lineBytes
  (⟨result.1, result.2.taken.drop s.taken.length⟩, result.2)

/-- Writes report after report and goes on after an error. -/
def deliverAll : List Report → Sink ε → List (Delivery ε) × Sink ε
  | [], s => ([], s)
  | r :: rs, s =>
    let first := r.deliver s
    let rest := deliverAll rs first.2
    (first.1 :: rest.1, rest.2)

end Report

end MicroBench
