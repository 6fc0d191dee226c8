import Mathlib.Algebra.BigOperators.Group.Finset.Basic
import Mathlib.Algebra.Ring.Parity
import Mathlib.Order.Bounds.Defs
import MicroBench.Proofs.FlipCount
import MicroBench.Proofs.OdometerTour
import MicroBench.Proofs.SurveyReport

namespace MicroBench.Proofs.SurveyTotals

open Odometer Arrangement OdometerRun OdometerTour FlipCount
open scoped Nat BigOperators

variable {n : ℕ}

/-- What a visit adds to a survey, whatever is on top and without a stack. -/
def note (survey : Survey) (s : Odometer) : Survey where
  tally := survey.tally.add s.even (flips s.order)
  peaks := if survey.tally.maxFlips < flips s.order
    then survey.peaks ++ [⟨flips s.order, s.order⟩] else survey.peaks

/-- The survey of size `n` after its first `i` visits. -/
def surveyAfter (n : ℕ) : ℕ → Survey
  | 0 => {}
  | i + 1 => note (surveyAfter n i) (stateAt n i)

theorem note_of_flips_eq_zero (survey : Survey) {s : Odometer} (h : flips s.order = 0) :
    note survey s =
      { survey with tally := { survey.tally with visited := survey.tally.visited + 1 } } := by
  simp [note, h, Tally.add]

theorem surveyAfter_visited (n i : ℕ) : (surveyAfter n i).tally.visited = i := by
  induction i with
  | zero => rfl
  | succ i ih => exact congrArg (· + 1) ih

/-- The registers take in whatever the visit with ordinal `i` puts into them. -/
structure Holds (registers : Registers) (n i : ℕ) : Prop where
  flips : registers.put 32 (flips (arrangement n i)) = .ok (flips (arrangement n i))
  visited : registers.increment 64 i = .ok (i + 1)
  checksum : ∀ overflow, registers.putSigned 64 overflow (surveyAfter n (i + 1)).tally.checksum =
    .ok (surveyAfter n (i + 1)).tally.checksum

theorem holds_unlimited (n i : ℕ) : Holds .unlimited n i := ⟨rfl, rfl, fun _ ↦ rfl⟩

theorem addTerm_eq_add {registers : Registers} (t : Tally) (even : Bool) (flips : ℕ)
    (h : ∀ overflow, registers.putSigned 64 overflow (t.add even flips).checksum =
      .ok (t.add even flips).checksum) :
    registers.addTerm t.checksum even flips = .ok (t.add even flips).checksum := by
  cases even with
  | true => exact h .additionOverflow
  | false => exact h .subtractionOverflow

/-- Neither the skipped arrangements nor the stack left by earlier visits make a difference. -/
theorem visit_of_holds {registers : Registers} {i : ℕ} {stack : List ℕ}
    (h : Holds registers n i) (hstack : stack.length = n) :
    ∃ stack', stack'.length = n ∧
      Bench.visit registers ⟨surveyAfter n i, stack⟩ (stateAt n i) =
        .ok ⟨surveyAfter n (i + 1), stack'⟩ := by
  have hnote : surveyAfter n (i + 1) = note (surveyAfter n i) (stateAt n i) := rfl
  have hvisited := h.visited
  rw [← surveyAfter_visited n i] at hvisited
  match ho : (stateAt n i).order with
  | [] =>
    rw [hnote, note_of_flips_eq_zero _ (by rw [ho, flips_nil])]
    refine ⟨stack, hstack, ?_⟩
    simp only [Bench.visit, ho, hvisited, bind, Except.bind]
    rfl
  | 0 :: rest =>
    rw [hnote, note_of_flips_eq_zero _ (by rw [ho, flips_zero])]
    refine ⟨stack, hstack, ?_⟩
    simp only [Bench.visit, ho, hvisited, bind, Except.bind]
    rfl
  | (k + 1) :: rest =>
    have hperm : (stateAt n i).order.Perm (List.range n) := arrangement_perm n i
    have hlen : (stateAt n i).order.length = n := length_arrangement n i
    obtain ⟨stack', hexact, hstack'⟩ := settle_of_perm hperm
    have hdeal : (Bench.mk (surveyAfter n i) stack).deal (stateAt n i).order =
        .ok (stateAt n i).order := if_pos (hlen.trans hstack.symm)
    have hput : registers.put 32 (flips (stateAt n i).order) =
        .ok (flips (stateAt n i).order) := h.flips
    have hsettle := settle_registers registers hexact
    rw [hput] at hsettle
    have hsum := addTerm_eq_add _ _ (flips (stateAt n i).order) h.checksum
    refine ⟨stack', hstack'.length_eq.trans hlen, ?_⟩
    rw [ho] at hdeal hsettle hsum
    rw [hnote, note, ho]
    simp only [Bench.visit, ho, hvisited, hdeal, hsettle, hsum, bind, Except.bind, Except.map]
    rfl

theorem foldlM_of_holds {registers : Registers} {m : ℕ} (h : ∀ i < m, Holds registers n i) :
    ∃ stack, stack.length = n ∧
      ((List.range m).map (stateAt n)).foldlM (Bench.visit registers)
        { stack := List.replicate n 0 } = .ok ⟨surveyAfter n m, stack⟩ := by
  induction m with
  | zero => exact ⟨List.replicate n 0, List.length_replicate, rfl⟩
  | succ m ih =>
    obtain ⟨stack, hstack, hfold⟩ := ih fun i hi ↦ h i (by omega)
    obtain ⟨stack', hstack', hvisit⟩ := visit_of_holds (h m (by omega)) hstack
    refine ⟨stack', hstack', ?_⟩
    rw [List.range_succ, List.map_append, List.foldlM_append, hfold]
    simp [hvisit, bind, Except.bind, pure, Except.pure]

theorem run_of_holds {registers : Registers} (hn : n < sizeLimit)
    (h : ∀ i < n !, Holds registers n i) : Survey.run registers n = .ok (surveyAfter n n !) := by
  obtain ⟨stack, -, hfold⟩ := foldlM_of_holds h
  rw [Survey.run, create, if_pos hn]
  simp only [fold_eq_foldlM, states_start, hfold, Except.map]

theorem run_eq_surveyAfter (hn : n < sizeLimit) :
    Survey.run .unlimited n = .ok (surveyAfter n n !) :=
  run_of_holds hn fun i _ ↦ holds_unlimited n i

theorem maxFlips_succ (n i : ℕ) : (surveyAfter n (i + 1)).tally.maxFlips =
    max (surveyAfter n i).tally.maxFlips (flips (arrangement n i)) := rfl

theorem peaks_succ (n i : ℕ) : (surveyAfter n (i + 1)).peaks =
    if (surveyAfter n i).tally.maxFlips < flips (arrangement n i)
    then (surveyAfter n i).peaks ++ [⟨flips (arrangement n i), arrangement n i⟩]
    else (surveyAfter n i).peaks := rfl

theorem surveyAfter_checksum (n i : ℕ) :
    (surveyAfter n i).tally.checksum =
      ∑ j ∈ Finset.range i, (-1) ^ j * (flips (arrangement n j) : ℤ) := by
  induction i with
  | zero => rfl
  | succ i ih =>
    have hstep : (surveyAfter n (i + 1)).tally.checksum =
        if (stateAt n i).even then (surveyAfter n i).tally.checksum + flips (arrangement n i)
        else (surveyAfter n i).tally.checksum - flips (arrangement n i) := rfl
    rw [Finset.sum_range_succ, ← ih, hstep]
    rcases Nat.even_or_odd i with he | ho
    · have hsign : (stateAt n i).even = true := decide_eq_true (Nat.even_iff.1 he)
      rw [if_pos hsign, he.neg_one_pow, one_mul]
    · have hsign : ¬ (stateAt n i).even = true := by
        have hodd := Nat.odd_iff.1 ho
        simp [stateAt, hodd]
      rw [if_neg hsign, ho.neg_one_pow, neg_one_mul, sub_eq_add_neg]

theorem flips_le_maxFlips {i j : ℕ} (hj : j < i) :
    flips (arrangement n j) ≤ (surveyAfter n i).tally.maxFlips := by
  induction i with
  | zero => omega
  | succ i ih =>
    rw [maxFlips_succ]
    rcases Nat.lt_succ_iff_lt_or_eq.1 hj with hlt | rfl
    · exact (ih hlt).trans (Nat.le_max_left _ _)
    · exact Nat.le_max_right _ _

theorem exists_flips_eq_maxFlips (n i : ℕ) :
    ∃ j < i + 1, flips (arrangement n j) = (surveyAfter n (i + 1)).tally.maxFlips := by
  induction i with
  | zero => exact ⟨0, by omega, (Nat.zero_max _).symm⟩
  | succ i ih =>
    obtain ⟨j, hj, hmax⟩ := ih
    rw [maxFlips_succ n (i + 1)]
    rcases Nat.le_total (flips (arrangement n (i + 1)))
      (surveyAfter n (i + 1)).tally.maxFlips with hle | hle
    · exact ⟨j, by omega, by rw [hmax, Nat.max_eq_left hle]⟩
    · exact ⟨i + 1, by omega, by rw [Nat.max_eq_right hle]⟩

theorem isGreatest_maxFlips (n : ℕ) :
    IsGreatest {f | ∃ p, p.Perm (List.range n) ∧ flips p = f}
      (surveyAfter n n !).tally.maxFlips := by
  constructor
  · obtain ⟨j, -, hj⟩ := exists_flips_eq_maxFlips n ((n !) - 1)
    rw [Nat.sub_add_cancel n.factorial_pos] at hj
    exact ⟨arrangement n j, arrangement_perm n j, hj⟩
  · rintro f ⟨p, hp, rfl⟩
    obtain ⟨k, hk, rfl⟩ := exists_arrange List.length_range hp
    exact flips_le_maxFlips hk

/-- A survey ends, for every size that fits into memory. It has visited `n !` arrangements; its
maximum is that over all arrangements, in whatever order; and its sum is the alternating one over
the ordinals, each arrangement being found from its ordinal alone and flipped afresh. Telling
about it on a console of any level does not change its tally. -/
theorem run_totals (hn : n < sizeLimit) :
    ∃ survey, Survey.run .unlimited n = .ok survey ∧
      (∀ p, p.Perm (List.range n) → Flip.count .unlimited p = .ok (flips p)) ∧
      survey.tally.visited = n ! ∧
      IsGreatest {f | ∃ p, p.Perm (List.range n) ∧ flips p = f} survey.tally.maxFlips ∧
      (∀ i, Flip.count .unlimited (arrangement n i) = .ok (flips (arrangement n i))) ∧
      survey.tally.checksum =
        ∑ i ∈ Finset.range n !, (-1) ^ i * (flips (arrangement n i) : ℤ) ∧
      ∀ clock level, ∃ tape,
        (Survey.report .unlimited ((Recorded.console clock).upTo level) n :
          Recorded Tally).result = .ok (survey.tally, tape) := by
  have hrun := run_eq_surveyAfter hn
  refine ⟨surveyAfter n n !, hrun, fun p ↦ count_of_perm .unlimited, surveyAfter_visited n n !,
    isGreatest_maxFlips n, fun i ↦ count_of_perm .unlimited (arrangement_perm n i),
    surveyAfter_checksum n n !, fun clock level ↦ ?_⟩
  rw [SurveyReport.result_report, hrun]
  exact ⟨_, rfl⟩

theorem run_totals_nine : 9 < sizeLimit ∧ ∃ survey, Survey.run .unlimited 9 = .ok survey ∧
    survey.tally.visited = 362880 ∧
    IsGreatest {f | ∃ p, p.Perm (List.range 9) ∧ flips p = f} survey.tally.maxFlips := by
  have h : 9 < sizeLimit := by decide
  obtain ⟨survey, hrun, -, hvisited, hmax, -⟩ := run_totals h
  exact ⟨h, survey, hrun, hvisited, hmax⟩

end MicroBench.Proofs.SurveyTotals
