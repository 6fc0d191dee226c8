import MicroBench.Proofs.FlipExtension
import MicroBench.Proofs.SurveyCourse

namespace MicroBench.Proofs.SurveyPrefix

open Odometer Arrangement OdometerRun FlipCount FlipExtension SurveyTotals SurveyCourse
open scoped Nat

variable {m n i j k : ℕ}

/-- A peak of a survey of size `m` as one of size `n` has it, with the greater entries below. -/
def padded (m n : ℕ) (p : Peak) : Peak := ⟨p.flips, p.order ++ List.range' m (n - m)⟩

theorem digit_of_lt (hk : k < n !) : digit k (n + 1) = 0 := by
  rw [digit, Nat.add_sub_cancel, Nat.div_eq_of_lt hk, Nat.zero_mod]

theorem arrangement_of_le (hmn : m ≤ n) (hk : k < m !) :
    arrangement n k = arrangement m k ++ List.range' m (n - m) := by
  induction n, hmn using Nat.le_induction with
  | base => rw [Nat.sub_self, List.range'_zero, List.append_nil]
  | succ n hmn ih =>
    have hn : k < n ! := hk.trans_le (Nat.factorial_le hmn)
    have hgreatest : List.range' m (n + 1 - m) = List.range' m (n - m) ++ [n] := by
      rw [Nat.sub_add_comm hmn, List.range'_1_concat, Nat.add_sub_cancel' hmn]
    rw [hgreatest, ← List.append_assoc, ← ih, arrangement, arrange_succ, digit_of_lt hn,
      turnBy_zero, List.range_succ, arrange_append List.length_range.ge]
    rfl

theorem flips_arrangement_of_le (hmn : m ≤ n) (hk : k < m !) :
    flips (arrangement n k) = flips (arrangement m k) := by
  rw [arrangement_of_le hmn hk]
  cases m with
  | zero =>
    -- an empty arrangement takes no flips, and neither does one with 0 on top
    have hnil : arrangement 0 k = [] := List.eq_nil_of_length_eq_zero (length_arrangement 0 k)
    rw [hnil, List.nil_append, Nat.sub_zero, flips_nil]
    cases n with
    | zero => exact flips_nil
    | succ n => exact flips_zero _
  | succ m =>
    have hne := List.ne_nil_of_length_eq_add_one (length_arrangement (m + 1) k)
    exact flips_append (arrangement_perm (m + 1) k) hne _

theorem note_padded (survey : Survey) {s t : Odometer} (heven : t.even = s.even)
    (horder : t.order = s.order ++ List.range' m (n - m)) (hflips : flips t.order = flips s.order) :
    note ⟨survey.tally, survey.peaks.map (padded m n)⟩ t =
      ⟨(note survey s).tally, (note survey s).peaks.map (padded m n)⟩ := by
  rw [note, note, heven, hflips, horder]
  split
  · rw [List.map_append, List.map_singleton, padded]
  · rfl

theorem surveyAfter_of_le (hmn : m ≤ n) (hi : i ≤ m !) :
    surveyAfter n i = ⟨(surveyAfter m i).tally, (surveyAfter m i).peaks.map (padded m n)⟩ := by
  induction i with
  | zero => rfl
  | succ i ih =>
    rw [surveyAfter, ih (by omega), surveyAfter]
    exact note_padded _ rfl (arrangement_of_le hmn hi) (flips_arrangement_of_le hmn hi)

theorem peaks_prefix_succ (n i : ℕ) : (surveyAfter n i).peaks <+: (surveyAfter n (i + 1)).peaks := by
  rw [peaks_succ]
  split
  · exact List.prefix_append _ _
  · exact List.prefix_rfl

theorem peaks_prefix (hij : i ≤ j) : (surveyAfter n i).peaks <+: (surveyAfter n j).peaks := by
  induction j, hij using Nat.le_induction with
  | base => exact List.prefix_rfl
  | succ j hij ih => exact ih.trans (peaks_prefix_succ n j)

def tell (p : Peak) : Message := .peak p.flips p.order

theorem result_report_trace (hn : n < sizeLimit) (clock : ℕ → Elapsed) :
    (Survey.report .unlimited ((Recorded.console clock).upTo .trace) n : Recorded Tally).result =
      .ok ((surveyAfter n n !).tally, ⟨0, (surveyAfter n n !).messages n⟩) := by
  have hall := SurveyReport.filter_messages n (surveyAfter n n !) .trace
  rw [SurveyReport.result_report, run_eq_surveyAfter hn, Except.map, hall]

/-- A survey of size `n` begins with one of any smaller size `m`: after its first `m !` visits it
has the tally of that one, and has told of its peaks with the greater entries below each. -/
theorem first_visits_are_smaller_survey (hmn : m ≤ n) :
    (n < sizeLimit → ∃ small part whole later, Survey.run .unlimited m = .ok small ∧
      Survey.runUpTo .unlimited n m ! = .ok part ∧ Survey.run .unlimited n = .ok whole ∧
      part.tally = small.tally ∧
      part.peaks = small.peaks.map (fun p ↦ ⟨p.flips, p.order ++ List.range' m (n - m)⟩) ∧
      whole.peaks = part.peaks ++ later ∧
      ∀ clock,
        (Survey.report .unlimited ((Recorded.console clock).upTo .trace) m :
          Recorded Tally).result = .ok (small.tally, ⟨0, small.peaks.map tell ++ [.visited m small.tally]⟩) ∧
        (Survey.report .unlimited ((Recorded.console clock).upTo .trace) n :
          Recorded Tally).result = .ok (whole.tally,
            ⟨0, part.peaks.map tell ++ later.map tell ++ [.visited n whole.tally]⟩)) ∧
    (sizeLimit ≤ n → ∀ registers, Survey.runUpTo registers n m ! = .error .capacity) := by
  refine ⟨fun hn ↦ ?_, fun hn registers ↦ runUpTo_of_capacity registers hn m !⟩
  have hm : m < sizeLimit := hmn.trans_lt hn
  have hfactorial := Nat.factorial_le hmn
  have hpart := surveyAfter_of_le hmn (Nat.le_refl m !)
  obtain ⟨later, hlater⟩ := peaks_prefix (n := n) hfactorial
  refine ⟨surveyAfter m m !, surveyAfter n m !, surveyAfter n n !, later, run_eq_surveyAfter hm,
    ?_, run_eq_surveyAfter hn, ?_, ?_, hlater.symm, fun clock ↦ ⟨?_, ?_⟩⟩
  · rw [runUpTo_eq_surveyAfter hn, Nat.min_eq_left hfactorial]
  · rw [hpart]
  · rw [hpart]
    rfl
  · exact result_report_trace hm clock
  · rw [result_report_trace hn, Survey.messages, ← hlater, List.map_append]
    rfl

theorem first_visits_are_smaller_survey_three_five : 3 ≤ 5 ∧ 5 < sizeLimit ∧
    ∃ part, Survey.runUpTo .unlimited 5 6 = .ok part ∧ part.tally = ⟨2, 2, 6⟩ ∧
      part.peaks = [⟨1, [1, 0, 2, 3, 4]⟩, ⟨2, [1, 2, 0, 3, 4]⟩] := by
  have hmn : 3 ≤ 5 := by decide
  have hn : 5 < sizeLimit := by decide
  have hthree : Survey.run .unlimited 3 = .ok ⟨⟨2, 2, 6⟩, [⟨1, [1, 0, 2]⟩, ⟨2, [1, 2, 0]⟩]⟩ := by cbv
  obtain ⟨small, part, -, -, hsmall, hpart, -, htally, hpeaks, -⟩ :=
    (first_visits_are_smaller_survey hmn).1 hn
  obtain rfl := Except.ok.inj (hthree.symm.trans hsmall)
  exact ⟨hmn, hn, part, hpart, htally, hpeaks⟩

end MicroBench.Proofs.SurveyPrefix
