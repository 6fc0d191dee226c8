import MicroBench.Proofs.SurveyCourse

namespace MicroBench.Proofs.SurveyPeaks

open Odometer Arrangement OdometerRun FlipCount SurveyTotals SurveyCourse
open scoped Nat

variable {n m f i : ℕ}

/-- The arrangement with ordinal `i` takes a flip, and more flips than any before it. -/
def IsRecord (n i : ℕ) : Prop :=
  0 < flips (arrangement n i) ∧ ∀ j < i, flips (arrangement n j) < flips (arrangement n i)

instance (n : ℕ) : DecidablePred (IsRecord n) := fun i ↦
  inferInstanceAs (Decidable (0 < flips (arrangement n i) ∧ ∀ j < i, _))

def records (n m : ℕ) : List ℕ := (List.range m).filter (IsRecord n)

theorem records_succ (n m : ℕ) :
    records n (m + 1) = if IsRecord n m then records n m ++ [m] else records n m := by
  rw [records, List.range_succ, List.filter_append, records]
  by_cases h : IsRecord n m <;> simp [h]

theorem maxFlips_lt_iff :
    (surveyAfter n m).tally.maxFlips < f ↔ 0 < f ∧ ∀ j < m, flips (arrangement n j) < f := by
  induction m with
  | zero => exact ⟨fun h ↦ ⟨h, fun j hj ↦ absurd hj j.not_lt_zero⟩, And.left⟩
  | succ m ih =>
    rw [maxFlips_succ, Nat.max_lt, ih, Nat.forall_lt_succ_right, and_assoc]

theorem peaks_eq_records (n m : ℕ) : (surveyAfter n m).peaks =
    (records n m).map fun i ↦ ⟨flips (arrangement n i), arrangement n i⟩ := by
  induction m with
  | zero => rfl
  | succ m ih =>
    have hrecord : (surveyAfter n m).tally.maxFlips < flips (arrangement n m) ↔ IsRecord n m :=
      maxFlips_lt_iff
    rw [peaks_succ, records_succ, ih]
    by_cases h : IsRecord n m
    · rw [if_pos (hrecord.2 h), if_pos h, List.map_append, List.map_singleton]
    · rw [if_neg (mt hrecord.1 h), if_neg h]

theorem records_increase (n m : ℕ) :
    ((records n m).map fun i ↦ flips (arrangement n i)).Pairwise (· < ·) := by
  rw [List.pairwise_map]
  refine (List.pairwise_lt_range.filter _).imp_of_mem fun _ hj hij ↦ ?_
  exact (of_decide_eq_true (List.mem_filter.1 hj).2).2 _ hij

theorem length_peaks_le (n m : ℕ) :
    (surveyAfter n m).peaks.length ≤ (surveyAfter n m).tally.maxFlips := by
  induction m with
  | zero => rfl
  | succ m ih =>
    rw [peaks_succ, maxFlips_succ]
    split
    · rw [List.length_append, List.length_singleton]
      omega
    · omega

theorem getLast?_peaks (n m : ℕ) : (surveyAfter n m).peaks.getLast?.map Peak.flips =
    if (surveyAfter n m).tally.maxFlips = 0 then none
    else some (surveyAfter n m).tally.maxFlips := by
  induction m with
  | zero => rfl
  | succ m ih =>
    rw [peaks_succ, maxFlips_succ]
    split
    · rename_i h
      have hmax := Nat.max_eq_right h.le
      rw [hmax, if_neg (by omega), List.getLast?_concat]
      rfl
    · rename_i h
      rw [Nat.max_eq_left (Nat.le_of_not_lt h), ih]

/-- What the survey of size `n` tells at each level. -/
def told (n : ℕ) (tally : Tally) : Level → List Message
  | .trace => (records n n !).map (fun i ↦ .peak (flips (arrangement n i)) (arrangement n i)) ++
      [.visited n tally]
  | .debug => [.visited n tally]
  | .info | .warn | .error => []

theorem filter_messages_eq_told (n : ℕ) (level : Level) :
    ((surveyAfter n n !).messages n).filter (·.within level) =
      told n (surveyAfter n n !).tally level := by
  rw [SurveyReport.filter_messages]
  cases level with
  | trace =>
    simp only [Survey.messages, told, peaks_eq_records, List.map_map]
    rfl
  | debug | info | warn | error => rfl

theorem map_told_trace (n : ℕ) (tally : Tally) (dial : Elapsed → String) :
    (told n tally .trace).map (fun m ↦ (m.level, m.surveySize, m.wording dial)) =
      (records n n !).map (fun i ↦ (.trace, some n,
        s!"New maximum of {flips (arrangement n i)} flips at " ++
          (Inspect.ofNats (arrangement n i)).oneLine)) ++
      [(.debug, some n, s!"Visited {tally.visited} permutations: checksum {tally.checksum}, " ++
        s!"max flips {tally.maxFlips}")] := by
  rw [told, List.map_append, List.map_map, List.map_singleton]
  refine congrArg (· ++ _) (List.map_congr_left fun i _ ↦ ?_)
  simp only [Function.comp_apply, Message.surveySize, length_arrangement]
  rfl

/-- At the finest level a survey tells of each record, in the order of their visit, and of its
tally at the end. The maxima told of increase up to the one of the tally, so there are no more of
them than that. One level above only the tally is told, and at the others nothing; the tally is
the same at all. -/
theorem report_tells_records (n : ℕ) :
    (n < sizeLimit → ∃ survey, Survey.run .unlimited n = .ok survey ∧ survey.tally.visited = n ! ∧
      (∀ i < n !, ((start n).after i).order = arrangement n i ∧
        Flip.count .unlimited (arrangement n i) = .ok (flips (arrangement n i))) ∧
      (∀ clock level, (Survey.report .unlimited ((Recorded.console clock).upTo level) n :
        Recorded Tally).result = .ok (survey.tally, { said := told n survey.tally level })) ∧
      (∀ dial, (told n survey.tally .trace).map (fun m ↦ (m.level, m.surveySize, m.wording dial)) =
        (records n n !).map (fun i ↦ (.trace, some n,
          s!"New maximum of {flips (arrangement n i)} flips at " ++
            (Inspect.ofNats (arrangement n i)).oneLine)) ++
        [(.debug, some n,
            s!"Visited {survey.tally.visited} permutations: checksum {survey.tally.checksum}, " ++
              s!"max flips {survey.tally.maxFlips}")]) ∧
      ((records n n !).map fun i ↦ flips (arrangement n i)).Pairwise (· < ·) ∧
      ((records n n !).map fun i ↦ flips (arrangement n i)).getLast? =
        (if survey.tally.maxFlips = 0 then none else some survey.tally.maxFlips) ∧
      (records n n !).length ≤ survey.tally.maxFlips) ∧
    (sizeLimit ≤ n → ∀ registers clock level,
      (Survey.report registers ((Recorded.console clock).upTo level) n : Recorded Tally).result =
        .error .capacity) := by
  constructor
  · intro hn
    have hrun := run_eq_surveyAfter hn
    refine ⟨surveyAfter n n !, hrun, surveyAfter_visited n n !, fun i hi ↦ ⟨?_, ?_⟩,
      fun clock level ↦ ?_, fun dial ↦ ?_, records_increase n n !, ?_, ?_⟩
    · rw [after_start_of_lt hi]
      rfl
    · exact count_of_perm .unlimited (arrangement_perm n i)
    · rw [SurveyReport.result_report, hrun, ← filter_messages_eq_told]
      rfl
    · exact map_told_trace n _ dial
    · have hlast := getLast?_peaks n n !
      rw [peaks_eq_records, ← List.getLast?_map, List.map_map] at hlast
      exact hlast
    · have hlen := length_peaks_le n n !
      rwa [peaks_eq_records, List.length_map] at hlen
  · intro hn registers clock level
    rw [SurveyReport.result_report, run_of_capacity registers hn]
    rfl

theorem report_tells_records_four : 4 < sizeLimit ∧ ∃ survey, Survey.run .unlimited 4 = .ok survey ∧
    survey.tally.visited = 24 ∧ ∀ clock,
      (Survey.report .unlimited ((Recorded.console clock).upTo .trace) 4 :
        Recorded Tally).result = .ok (survey.tally, { said := [.peak 1 [1, 0, 2, 3], .peak 2 [1, 2, 0, 3],
          .peak 3 [1, 2, 3, 0], .peak 4 [2, 0, 3, 1], .visited 4 survey.tally] }) := by
  have h : 4 < sizeLimit := by decide
  have hrecords : records 4 4 ! = [1, 2, 6, 17] := by cbv
  obtain ⟨survey, hrun, hvisited, -, hreport, -⟩ := (report_tells_records 4).1 h
  refine ⟨h, survey, hrun, hvisited, fun clock ↦ ?_⟩
  rw [hreport, told, hrecords]
  cbv

end MicroBench.Proofs.SurveyPeaks
