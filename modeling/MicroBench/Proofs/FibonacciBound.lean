import MicroBench.Proofs.FibonacciValue
import MicroBench.Proofs.FlipRounds
import MicroBench.Proofs.SurveyBounds

namespace MicroBench.Proofs.FibonacciBound

open Odometer Flip FlipCount FlipRun FlipRounds FibonacciValue SurveyTotals SurveyBounds
open scoped Nat

variable {registers : Registers} {c n i k : ℕ} {p q : List ℕ}

theorem top_lt_length (hp : p.Perm (List.range n))
    (hq : afterFlips registers id i (0, p) = some (c, q)) (hk : q.head? = some k) :
    k < q.length := by
  have hperm : q.Perm (List.range n) := (afterFlips_perm hq).trans hp
  have hmem := hperm.subset (List.mem_of_head? hk)
  rwa [hperm.length_eq, List.length_range, ← List.mem_range]

theorem afterFlips_at_end (hp : p.Perm (List.range n)) :
    (∃ q, afterFlips .unlimited id (flips p) (0, p) = some (flips p, q)) ∧
      afterFlips .unlimited id (flips p + 1) (0, p) = none := by
  obtain ⟨f, q, hq, hsettled⟩ := exists_settled_of_count (count_of_perm .unlimited hp)
  obtain rfl : f = flips p := Except.ok.inj (afterFlips_eq_some_iff.1 hq).1
  exact ⟨⟨q, hq⟩, afterFlips_eq_none hq (halted_of_settled hsettled) (Nat.lt_succ_self _)⟩

/-- Every arrangement of `0, …, n - 1` takes fewer flips than the Fibonacci number with index
`n + 1`, which is what the double recursion gives wherever that fits into a word. None of the
flips reaches beyond the list; the maximum of a survey has the same bound; and up to 46 entries
no register of 32 bits runs over while the flips are counted. -/
theorem flips_stay_below_fibonacci (n : ℕ) :
    (∀ p : List ℕ, p.Perm (List.range n) → ∃ f, count .unlimited p = .ok f ∧
      f + 1 ≤ Nat.fib (n + 1) ∧ (∃ q, afterFlips .unlimited id f (0, p) = some (f, q)) ∧
      afterFlips .unlimited id (f + 1) (0, p) = none ∧
      (∀ registers i c q k, afterFlips registers id i (0, p) = some (c, q) →
        q.head? = some k → k < q.length) ∧
      (∀ registers, count registers p = registers.put 32 f) ∧
      (n ≤ 46 → ∀ registers, ∃ q, settle registers p = .ok (f, q))) ∧
    (∀ v, Fibonacci.naive (n + 1) = .ok v ↔
      v = Nat.fib (n + 1) ∧ Nat.fib (n + 1) < Fibonacci.wordLimit) ∧
    (n < sizeLimit → ∃ survey, Survey.run .unlimited n = .ok survey ∧
      survey.tally.maxFlips + 1 ≤ Nat.fib (n + 1)) := by
  refine ⟨fun p hp ↦ ?_, fun v ↦ naive_eq_ok_iff, fun hn ↦ ?_⟩
  · obtain ⟨hlast, hnone⟩ := afterFlips_at_end hp
    obtain ⟨q, hq, -⟩ := settle_of_perm hp
    refine ⟨flips p, count_of_perm .unlimited hp, flips_lt_fib hp, hlast, hnone,
      fun registers i c q k hq hk ↦ top_lt_length hp hq hk,
      fun registers ↦ count_of_perm registers hp, fun hn registers ↦ ⟨q, ?_⟩⟩
    rw [settle_registers registers hq, put_flips_of_le registers hn hp]
    rfl
  · exact ⟨surveyAfter n n !, run_eq_surveyAfter hn, maxFlips_lt_fib n n !⟩

/-- With five entries the bound is met. -/
theorem flips_stay_below_fibonacci_five : [2, 0, 3, 4, 1].Perm (List.range 5) ∧ 5 ≤ 46 ∧
    5 < sizeLimit ∧ count .unlimited [2, 0, 3, 4, 1] = .ok 7 ∧ Fibonacci.naive 6 = .ok 8 ∧
    (∃ q, settle .checked [2, 0, 3, 4, 1] = .ok (7, q)) ∧
    ∃ survey, Survey.run .unlimited 5 = .ok survey ∧ survey.tally.maxFlips + 1 ≤ 8 := by
  have hp : [2, 0, 3, 4, 1].Perm (List.range 5) := by decide
  have hn : 5 ≤ 46 := by decide
  have hsize : 5 < sizeLimit := by decide
  have hcount : count .unlimited [2, 0, 3, 4, 1] = .ok 7 := by cbv
  obtain ⟨harrangement, hnaive, hsurvey⟩ := flips_stay_below_fibonacci 5
  obtain ⟨f, hf, -, -, -, -, -, hregisters⟩ := harrangement _ hp
  obtain rfl : f = 7 := Except.ok.inj (hf.symm.trans hcount)
  exact ⟨hp, hn, hsize, hcount, (hnaive 8).2 (by decide), hregisters hn _, hsurvey hsize⟩

end MicroBench.Proofs.FibonacciBound
