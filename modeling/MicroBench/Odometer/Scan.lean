import MicroBench.Flip
import MicroBench.Odometer

namespace MicroBench

structure Sighting where
  index : Nat
  even : Bool
  flips : Nat
  order : List Nat
  deriving DecidableEq, Repr

structure Scan where
  seen : List Sighting
  ended : Bool
  index : Nat
  deriving DecidableEq, Repr

namespace Odometer

def sight (s : Odometer) (index : Nat) : Except Fault Sighting :=
  match Flip.count .checked s.order with
  | .error fault => .error fault
  | .ok flips => .ok ⟨index, s.even, flips, s.order⟩

/-- Steps on from step `index` until `wanted` more of the selected steps are noted. The step
after the last note is still made. -/
def scanFrom (selected : Nat → Bool) (index wanted : Nat) (seen : List Sighting)
    (s : Odometer) : Except Fault Scan :=
  if wanted = 0 then .ok ⟨seen.reverse, false, index⟩
  else
    match (if selected index then (s.sight index).map some else .ok none) with
    | .error fault => .error fault
    | .ok note =>
      let seen := note.toList ++ seen
      match h : s.advance with
      | (false, _) => .ok ⟨seen.reverse, true, index⟩
      | (true, t) =>
        have := remaining_lt_of_advance h
        scanFrom selected (index + 1) (wanted - note.toList.length) seen t
termination_by s.remaining

/-- Notes up to `take` steps, every `stride`-th from step `skip` on. -/
def scan (skip stride take : Nat) (s : Odometer) : Except Fault Scan :=
  s.scanFrom (fun i ↦ skip ≤ i && (i - skip) % stride == 0) 0 take []

end Odometer

end MicroBench
