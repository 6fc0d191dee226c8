import MicroBench.Proofs.SurveyTotals
import MicroBench.Survey.Course

namespace MicroBench.Proofs.SurveyCourse

open Odometer Arrangement OdometerRun OdometerTour FlipCount SurveyTotals
open scoped Nat

variable {n : ℕ}

theorem foldUpTo_eq_foldlM {β : Type} (visit : β → Odometer → Except Fault β) (limit : ℕ)
    (acc : β) (s : Odometer) :
    s.foldUpTo visit limit acc = ((states s).take limit).foldlM visit acc := by
  induction limit generalizing acc s with
  | zero => rfl
  | succ limit ih =>
    cases h : s.advance with
    | mk answer t =>
      cases answer with
      | false =>
        rw [states_of_stop (by rw [h]), foldUpTo, List.take_of_length_le (by simp)]
        cases hv : visit acc s <;> simp [h, hv, bind, Except.bind, pure, Except.pure]
      | true =>
        have hnext : s.next = t := by rw [next, h]
        rw [states_of_advance (by rw [h]), foldUpTo, hnext, List.take_succ_cons, List.foldlM_cons]
        cases hv : visit acc s with
        | error fault => rfl
        | ok acc => simp [h, ih, bind, Except.bind]

theorem runUpTo_of_holds {registers : Registers} (hn : n < sizeLimit)
    (h : ∀ i < n !, Holds registers n i) (limit : ℕ) :
    Survey.runUpTo registers n limit = .ok (surveyAfter n (min limit n !)) := by
  obtain ⟨stack, -, hfold⟩ := foldlM_of_holds fun i (hi : i < min limit n !) ↦ h i (by omega)
  rw [Survey.runUpTo, create, if_pos hn]
  simp only [foldUpTo_eq_foldlM, states_start, ← List.map_take, List.take_range, hfold, Except.map]

theorem runUpTo_eq_surveyAfter (hn : n < sizeLimit) (limit : ℕ) :
    Survey.runUpTo .unlimited n limit = .ok (surveyAfter n (min limit n !)) :=
  runUpTo_of_holds hn (fun i _ ↦ holds_unlimited n i) limit

theorem runUpTo_of_capacity (registers : Registers) (hn : sizeLimit ≤ n) (limit : ℕ) :
    Survey.runUpTo registers n limit = .error .capacity := by
  rw [Survey.runUpTo, create, if_neg (by omega)]

theorem run_of_capacity (registers : Registers) (hn : sizeLimit ≤ n) :
    Survey.run registers n = .error .capacity := by
  rw [Survey.run, create, if_neg (by omega)]

theorem runUpTo_factorial (registers : Registers) (n : ℕ) :
    Survey.runUpTo registers n n ! = Survey.run registers n := by
  have hall : (states (start n)).take n ! = states (start n) := by
    rw [states_start]
    exact List.take_of_length_le (by simp)
  rcases Nat.lt_or_ge n sizeLimit with hn | hn
  · rw [Survey.runUpTo, Survey.run, create, if_pos hn]
    simp only [foldUpTo_eq_foldlM, fold_eq_foldlM, hall]
  · rw [runUpTo_of_capacity registers hn, run_of_capacity registers hn]

end MicroBench.Proofs.SurveyCourse
