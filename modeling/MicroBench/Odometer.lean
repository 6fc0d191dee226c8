import MicroBench.Fault

namespace MicroBench

/-- An arrangement of `0, …, n - 1` with the wheels that decide which turn comes next.
The two wheels of the shortest turns never move and are not kept: passing the first one kept
turns four entries, passing each later one turns one entry more. -/
structure Odometer where
  order : List Nat
  wheels : List Nat
  even : Bool
  deriving DecidableEq, Repr

namespace Odometer

/-- Moves the first entry behind the `m - 1` that follow it. -/
def turn {α : Type} (m : Nat) : List α → List α
  | [] => []
  | x :: xs => xs.take (m - 1) ++ x :: xs.drop (m - 1)

def start (n : Nat) : Odometer where
  order := List.range n
  wheels := (List.range n).drop 2
  even := true

/-- From this size on an arrangement has no room in memory. -/
def sizeLimit : Nat := 1 <<< 60

def create (n : Nat) : Except Fault Odometer :=
  if n < sizeLimit then .ok (start n) else .error .capacity

/-- Lowers the first wheel that is not at 0, and turns the arrangement once for each wheel
passed on the way, which goes back to its top. Answers whether a wheel was lowered. -/
def carry : Nat → List Nat → List Nat → Bool × List Nat × List Nat
  | _, order, [] => (false, order, [])
  | _, order, (w + 1) :: wheels => (true, order, w :: wheels)
  | _, order, [0] => (false, order, [0])
  | r, order, 0 :: wheels =>
    let passed := carry (r + 1) (turn (r + 2) order) wheels
    (passed.1, passed.2.1, r :: passed.2.2)

/-- Steps to the next arrangement and answers whether there was one. The step past the last
arrangement still changes the odometer. -/
def advance (s : Odometer) : Bool × Odometer :=
  match s.even, s.order with
  | true, a :: b :: rest => (true, { s with order := b :: a :: rest, even := false })
  | false, a :: b :: c :: rest =>
    let passed := carry 2 (a :: c :: b :: rest) s.wheels
    (passed.1, ⟨passed.2.1, passed.2.2, true⟩)
  | _, _ => (false, s)

def next (s : Odometer) : Odometer := s.advance.2

def after : Nat → Odometer → Odometer
  | 0, s => s
  | k + 1, s => after k s.next

/-- How often the wheels from wheel `r` on can still be lowered. -/
def lowerings : Nat → List Nat → Nat
  | _, [] => 0
  | r, w :: wheels => w + (r + 1) * lowerings (r + 1) wheels

def remaining (s : Odometer) : Nat := 2 * lowerings 2 s.wheels + s.even.toNat

theorem lowerings_carry {r : Nat} {order wheels : List Nat}
    (h : (carry r order wheels).1 = true) :
    lowerings r (carry r order wheels).2.2 + 1 = lowerings r wheels := by
  induction wheels generalizing r order with
  | nil => simp [carry] at h
  | cons w wheels ih =>
    cases w with
    | succ w => simp only [carry, lowerings]; omega
    | zero =>
      cases wheels with
      | nil => simp [carry] at h
      | cons v wheels =>
        have hs := @ih (r + 1) (turn (r + 2) order) h
        simp only [carry, lowerings] at hs ⊢
        rw [← hs, Nat.mul_add]
        omega

theorem remaining_advance {s : Odometer} (h : s.advance.1 = true) :
    s.next.remaining + 1 = s.remaining := by
  obtain ⟨order, wheels, even⟩ := s
  match even, order with
  | true, [] | true, [_] | false, [] | false, [_] | false, [_, _] => simp [advance] at h
  | true, a :: b :: rest => simp [next, advance, remaining]
  | false, a :: b :: c :: rest =>
    have hs := @lowerings_carry 2 (a :: c :: b :: rest) wheels h
    simp only [next, advance, remaining, Bool.toNat_true, Bool.toNat_false]
    omega

theorem remaining_lt_of_advance {s t : Odometer} (h : s.advance = (true, t)) :
    t.remaining < s.remaining := by
  have hr := remaining_advance (s := s) (by rw [h])
  simp only [next, h] at hr
  omega

/-- Combines the arrangements from `s` to the last one, in the order of their visit. -/
def fold {β : Type} (visit : β → Odometer → Except Fault β) (acc : β) (s : Odometer) :
    Except Fault β :=
  match visit acc s with
  | .error fault => .error fault
  | .ok acc =>
    match h : s.advance with
    | (true, t) =>
      have := remaining_lt_of_advance h
      fold visit acc t
    | (false, _) => .ok acc
termination_by s.remaining

/-- The wheels as displayed, with the two that never move in front. -/
def counters (s : Odometer) : List Nat := [0, 1].take s.order.length ++ s.wheels

end Odometer

end MicroBench
