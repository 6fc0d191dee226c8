import MicroBench.Proofs.FlipExtension
import MicroBench.Proofs.SurveyCourse

namespace MicroBench.Proofs.SurveyGrowth

open Odometer FlipCount FlipExtension SurveyTotals SurveyCourse
open scoped Nat

variable {m n : ℕ}

theorem maxFlips_add_one_le (hn : 1 ≤ n) :
    (surveyAfter n n !).tally.maxFlips + 1 ≤ (surveyAfter (n + 1) (n + 1)!).tally.maxFlips := by
  obtain ⟨⟨p, hp, hmax⟩, -⟩ := isGreatest_maxFlips n
  obtain ⟨c, rfl⟩ := Nat.exists_eq_add_of_le' hn
  rw [← hmax, ← flips_raise hp]
  exact (isGreatest_maxFlips (c + 2)).2 ⟨_, raise_perm hp, rfl⟩

theorem maxFlips_add_le (hm : 1 ≤ m) (hmn : m ≤ n) :
    (surveyAfter m m !).tally.maxFlips + (n - m) ≤ (surveyAfter n n !).tally.maxFlips := by
  induction n, hmn using Nat.le_induction with
  | base => rw [Nat.sub_self, Nat.add_zero]
  | succ n hmn ih =>
    have hstep := maxFlips_add_one_le (hm.trans hmn)
    omega

/-- From one entry on each further entry raises the maximum, by one at least, for as long as there
is room to enumerate the arrangements at all. -/
theorem maximum_grows_with_size (hm : 1 ≤ m) (hmn : m ≤ n) :
    (n < sizeLimit → ∃ small large, Survey.run .unlimited m = .ok small ∧
      Survey.run .unlimited n = .ok large ∧
      small.tally.maxFlips + (n - m) ≤ large.tally.maxFlips ∧
      (m < n → small.tally.maxFlips < large.tally.maxFlips) ∧
      m - 1 ≤ small.tally.maxFlips ∧ n - 1 ≤ large.tally.maxFlips) ∧
    (sizeLimit ≤ n → ∀ registers, Survey.run registers n = .error .capacity) := by
  refine ⟨fun hn ↦ ?_, fun hn registers ↦ run_of_capacity registers hn⟩
  have hgrowth := maxFlips_add_le hm hmn
  have hsmall := maxFlips_add_le le_rfl hm
  refine ⟨surveyAfter m m !, surveyAfter n n !, run_eq_surveyAfter (hmn.trans_lt hn),
    run_eq_surveyAfter hn, hgrowth, fun hlt ↦ ?_, ?_, ?_⟩ <;> omega

theorem maximum_grows_with_size_four_twelve : 1 ≤ 4 ∧ 4 ≤ 12 ∧ 12 < sizeLimit ∧
    ∃ large, Survey.run .unlimited 12 = .ok large ∧ 12 ≤ large.tally.maxFlips := by
  have hm : 1 ≤ 4 := by decide
  have hmn : 4 ≤ 12 := by decide
  have hn : 12 < sizeLimit := by decide
  have hfour : (Survey.run .unlimited 4).map (fun survey ↦ survey.tally.maxFlips) = .ok 4 := by cbv
  obtain ⟨small, large, hsmall, hlarge, hgrowth, -⟩ := (maximum_grows_with_size hm hmn).1 hn
  rw [hsmall] at hfour
  have hmax : small.tally.maxFlips = 4 := Except.ok.inj hfour
  exact ⟨hm, hmn, hn, large, hlarge, by omega⟩

end MicroBench.Proofs.SurveyGrowth
