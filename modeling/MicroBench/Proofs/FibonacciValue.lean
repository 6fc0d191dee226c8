import Mathlib.Data.Nat.Fib.Basic
import MicroBench.Fibonacci

namespace MicroBench.Proofs.FibonacciValue

open Fibonacci

variable {n : ℕ}

theorem naive_add_two {a b : ℕ} (ha : naive (n + 1) = .ok a) (hb : naive n = .ok b) :
    naive (n + 2) = if a + b < wordLimit then .ok (a + b) else .error .additionOverflow := by
  rw [naive, ha, hb]

/-- The double recursion gives the Fibonacci number wherever that fits into a word, since all sums
on the way are smaller. -/
theorem naive_of_fib_lt (h : Nat.fib n < wordLimit) : naive n = .ok (Nat.fib n) := by
  induction n using Nat.twoStepInduction with
  | zero => rfl
  | one => rfl
  | more n ihb iha =>
    have hfib : Nat.fib (n + 2) = Nat.fib (n + 1) + Nat.fib n := by
      rw [Nat.fib_add_two, Nat.add_comm]
    rw [naive_add_two (iha (by omega)) (ihb (by omega)), ← hfib, if_pos h]

/-- A number too large for a word is not reached: its greater summand is too large already, or
the sum of the two runs over. -/
theorem naive_of_le_fib (h : wordLimit ≤ Nat.fib n) : naive n = .error .additionOverflow := by
  induction n using Nat.twoStepInduction with
  | zero => exact absurd h (by decide)
  | one => exact absurd h (by decide)
  | more n _ iha =>
    rcases Nat.lt_or_ge (Nat.fib (n + 1)) wordLimit with hlt | hge
    · have hmono : Nat.fib n ≤ Nat.fib (n + 1) := Nat.fib_le_fib_succ
      have hsum : ¬ Nat.fib (n + 1) + Nat.fib n < wordLimit := by
        rwa [Nat.add_comm, ← Nat.fib_add_two, Nat.not_lt]
      rw [naive_add_two (naive_of_fib_lt hlt) (naive_of_fib_lt (hmono.trans_lt hlt)), if_neg hsum]
    · rw [naive, iha hge]

theorem naive_eq_ok_iff {v : ℕ} :
    naive n = .ok v ↔ v = Nat.fib n ∧ Nat.fib n < wordLimit := by
  rcases Nat.lt_or_ge (Nat.fib n) wordLimit with hlt | hge
  · rw [naive_of_fib_lt hlt, Except.ok.injEq, eq_comm]
    exact ⟨fun h ↦ ⟨h, hlt⟩, And.left⟩
  · rw [naive_of_le_fib hge]
    constructor
    · intro h
      cases h
    · rintro ⟨-, hlt⟩
      omega

end MicroBench.Proofs.FibonacciValue
