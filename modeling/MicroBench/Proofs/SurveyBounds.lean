import Mathlib.Algebra.Order.Ring.Int
import Mathlib.Tactic.Linarith
import MicroBench.Proofs.FlipRun
import MicroBench.Proofs.SurveyCourse

namespace MicroBench.Proofs.SurveyBounds

open Odometer Arrangement FlipCount FlipRun SurveyTotals SurveyCourse
open scoped Nat BigOperators

variable {n i : ℕ}

theorem maxFlips_lt_fib (n i : ℕ) : (surveyAfter n i).tally.maxFlips < Nat.fib (n + 1) := by
  cases i with
  | zero => exact Nat.fib_pos.2 n.succ_pos
  | succ i =>
    obtain ⟨j, -, hj⟩ := exists_flips_eq_maxFlips n i
    rw [← hj]
    exact flips_lt_fib (arrangement_perm n j)

theorem alternating_sum_bounds {f : ℕ → ℕ} {m : ℕ} (i : ℕ) (hf : ∀ j < i, f j ≤ m) :
    -(((i / 2 : ℕ) : ℤ) * m) ≤ ∑ j ∈ Finset.range i, (-1) ^ j * (f j : ℤ) ∧
      ∑ j ∈ Finset.range i, (-1) ^ j * (f j : ℤ) ≤ (((i + 1) / 2 : ℕ) : ℤ) * m := by
  induction i with
  | zero => simp
  | succ i ih =>
    obtain ⟨hlow, hhigh⟩ := ih fun j hj ↦ hf j (by omega)
    have hlast : (f i : ℤ) ≤ m := Int.ofNat_le.2 (hf i i.lt_succ_self)
    have hpos : (0 : ℤ) ≤ f i := Int.natCast_nonneg _
    rw [Finset.sum_range_succ]
    obtain ⟨k, rfl | rfl⟩ := i.even_or_odd'
    · have hsign : (-1 : ℤ) ^ (2 * k) = 1 := (even_two_mul k).neg_one_pow
      have h₀ : 2 * k / 2 = k := by omega
      have h₁ : (2 * k + 1) / 2 = k := by omega
      have h₂ : (2 * k + 1 + 1) / 2 = k + 1 := by omega
      rw [h₀] at hlow
      rw [h₁] at hhigh
      rw [hsign, h₁, h₂]
      push_cast
      constructor <;> linarith
    · have hsign : (-1 : ℤ) ^ (2 * k + 1) = -1 := (odd_two_mul_add_one k).neg_one_pow
      have h₀ : (2 * k + 1) / 2 = k := by omega
      have h₁ : (2 * k + 1 + 1) / 2 = k + 1 := by omega
      have h₂ : (2 * k + 1 + 1 + 1) / 2 = k + 1 := by omega
      rw [h₀] at hlow
      rw [h₁] at hhigh
      rw [hsign, h₁, h₂]
      push_cast at hhigh ⊢
      constructor <;> linarith

theorem abs_checksum_le (n i : ℕ) :
    |(surveyAfter n i).tally.checksum| ≤
      (((i + 1) / 2 * (surveyAfter n i).tally.maxFlips : ℕ) : ℤ) := by
  have hf : ∀ j < i, flips (arrangement n j) ≤ (surveyAfter n i).tally.maxFlips := by
    intro j hj
    exact flips_le_maxFlips hj
  have hhalf : ((i / 2 * (surveyAfter n i).tally.maxFlips : ℕ) : ℤ) ≤
      (((i + 1) / 2 * (surveyAfter n i).tally.maxFlips : ℕ) : ℤ) :=
    Int.ofNat_le.2 (Nat.mul_le_mul_right _ (by omega))
  obtain ⟨hlow, hhigh⟩ := alternating_sum_bounds i hf
  rw [← surveyAfter_checksum, ← Nat.cast_mul] at hlow hhigh
  exact abs_le.2 ⟨by linarith, hhigh⟩

theorem putSigned_of_abs_lt (registers : Registers) (overflow : Fault) {x : ℤ}
    (h : |x| < 2 ^ 63) : registers.putSigned 64 overflow x = .ok x := by
  obtain ⟨hlow, hhigh⟩ := abs_lt.1 h
  cases registers with
  | unlimited => rfl
  | checked => exact if_pos ⟨hlow.le, hhigh⟩
  | wrapping =>
    have hmod : x.bmod (1 <<< 64) = x := Int.bmod_eq_of_le hlow.le hhigh
    rw [Registers.putSigned, hmod]

theorem holds_of_le (registers : Registers) (hn : n ≤ 17) (hi : i < n !) :
    Holds registers n i := by
  have hfib : Nat.fib (n + 1) ≤ 2584 := Nat.fib_mono (Nat.succ_le_succ hn)
  have hfactorial : n ! ≤ 355687428096000 := Nat.factorial_le hn
  have hmax := maxFlips_lt_fib n (i + 1)
  refine ⟨?_, ?_, fun overflow ↦ ?_⟩
  · have hflips := flips_lt_fib (arrangement_perm n i)
    have hroom : 2584 < 1 <<< 32 := by decide
    exact registers.put_of_lt (by omega)
  · have hroom : 355687428096000 < 1 <<< 64 := by decide
    exact registers.put_of_lt (by omega)
  · -- the narrowest of the three: with 18 entries this bound would need 64 bits and a sign
    have hhalf : (i + 1 + 1) / 2 ≤ 177843714048000 := by omega
    have hproduct : (i + 1 + 1) / 2 * (surveyAfter n (i + 1)).tally.maxFlips ≤
        177843714048000 * 2583 := Nat.mul_le_mul hhalf (by omega)
    have habs := abs_checksum_le n (i + 1)
    exact putSigned_of_abs_lt registers overflow (by omega)

/-- After every visit the number visited is known, the maximum is below a Fibonacci number, and
the sum is bounded by the maximum times half the visits, the greater half. Up to 17 entries these
bounds keep every register from running over, at every visit, so that the survey is the same in
registers of any kind. -/
theorem counters_stay_in_range (n limit : ℕ) :
    (n < sizeLimit → ∃ survey, Survey.runUpTo .unlimited n limit = .ok survey ∧
      survey.tally.visited = min limit n ! ∧
      survey.tally.maxFlips + 1 ≤ Nat.fib (n + 1) ∧
      |survey.tally.checksum| ≤
        (((survey.tally.visited + 1) / 2 * survey.tally.maxFlips : ℕ) : ℤ)) ∧
    (sizeLimit ≤ n → ∀ registers, Survey.runUpTo registers n limit = .error .capacity) ∧
    (∀ registers, Survey.runUpTo registers n n ! = Survey.run registers n) ∧
    (n ≤ 17 → ∃ survey, ∀ registers, Survey.runUpTo registers n limit = .ok survey) := by
  refine ⟨fun hn ↦ ?_, fun hn registers ↦ runUpTo_of_capacity registers hn limit,
    fun registers ↦ runUpTo_factorial registers n, fun hn ↦ ?_⟩
  · have hbound := abs_checksum_le n (min limit n !)
    refine ⟨_, runUpTo_eq_surveyAfter hn limit, surveyAfter_visited n _, maxFlips_lt_fib n _, ?_⟩
    rwa [surveyAfter_visited]
  · have hsize : n < sizeLimit := lt_of_le_of_lt hn (by decide)
    refine ⟨surveyAfter n (min limit n !), fun registers ↦ ?_⟩
    exact runUpTo_of_holds hsize (fun i hi ↦ holds_of_le registers hn hi) limit

theorem counters_stay_in_range_seventeen : 17 < sizeLimit ∧ 17 ≤ 17 ∧
    ∃ survey, Survey.run .unlimited 17 = .ok survey ∧ survey.tally.visited = 17 ! ∧
      survey.tally.maxFlips ≤ 2583 ∧
      Survey.run .checked 17 = .ok survey ∧ Survey.run .wrapping 17 = .ok survey := by
  have hsize : 17 < sizeLimit := by decide
  have hn : 17 ≤ 17 := le_rfl
  obtain ⟨hin, -, hrun, hall⟩ := counters_stay_in_range 17 17 !
  obtain ⟨survey, hsurvey, hvisited, hmax, -⟩ := hin hsize
  obtain ⟨survey', hregisters⟩ := hall hn
  obtain rfl : survey' = survey := Except.ok.inj ((hregisters .unlimited).symm.trans hsurvey)
  have hfib : Nat.fib (17 + 1) = 2584 := by decide
  have hsame : ∀ registers, Survey.run registers 17 = .ok survey' := by
    intro registers
    rw [← hrun, hregisters]
  refine ⟨hsize, hn, survey', hsame _, ?_, by omega, hsame _, hsame _⟩
  rw [hvisited, Nat.min_self]

end MicroBench.Proofs.SurveyBounds
