import MicroBench.Survey

namespace MicroBench.Proofs.SurveyReport

variable (registers : Registers) (clock : Nat → Elapsed) (level : Level)

theorem say_upTo (message : Message) (tape : Tape) :
    ((Recorded.console clock).upTo level).say message tape =
      .ok ((), { tape with said := tape.said ++ [message].filter (·.within level) }) := by
  by_cases h : message.within level
  · have hsaid : [message].filter (·.within level) = [message] := by simp [h]
    simp only [hsaid, Console.upTo, h, if_true]
    rfl
  · have hsaid : [message].filter (·.within level) = [] := by simp [h]
    simp only [hsaid, Console.upTo, h, Bool.false_eq_true, if_false, List.append_nil]
    rfl

theorem filter_within_cons (message : Message) (messages : List Message) :
    (message :: messages).filter (·.within level) =
      [message].filter (·.within level) ++ messages.filter (·.within level) := by
  rw [← List.filter_append, List.singleton_append]

/-- Telling messages leaves those on the tape that the level lets through. -/
theorem forM_say (messages : List Message) (tape : Tape) :
    messages.forM ((Recorded.console clock).upTo level).say tape =
      .ok ((), { tape with said := tape.said ++ messages.filter (·.within level) }) := by
  induction messages generalizing tape with
  | nil =>
    rw [List.filter_nil, List.append_nil]
    rfl
  | cons message messages ih =>
    simp only [List.forM_eq_forM] at ih
    rw [filter_within_cons]
    simp only [List.forM_eq_forM, List.forM_cons, bind, StateT.bind, say_upTo, Except.bind, ih,
      List.append_assoc]

theorem filter_messages (n : Nat) (survey : Survey) (level : Level) :
    (survey.messages n).filter (·.within level) =
      match level with
      | .trace => survey.messages n
      | .debug => [.visited n survey.tally]
      | .info | .warn | .error => [] := by
  cases level <;>
    simp [Survey.messages, Message.within, Message.level, Level.rank, List.filter_eq_nil_iff]

/-- The report of a survey is its tally, and what it tells never changes that. -/
theorem report_upTo (n : Nat) (tape : Tape) :
    (Survey.report registers ((Recorded.console clock).upTo level) n : Recorded Tally) tape =
      (Survey.run registers n).map fun survey ↦
        (survey.tally,
          { tape with said := tape.said ++ (survey.messages n).filter (·.within level) }) := by
  cases h : Survey.run registers n with
  | error fault =>
    simp only [Survey.report, h]
    rfl
  | ok survey =>
    have hsay := forM_say clock level (survey.messages n) tape
    simp only [Survey.report, h, liftExcept, bind, StateT.bind]
    change Except.bind ((survey.messages n).forM ((Recorded.console clock).upTo level).say tape) _ =
      _
    rw [hsay]
    rfl

theorem result_report (n : Nat) :
    (Survey.report registers ((Recorded.console clock).upTo level) n : Recorded Tally).result =
      (Survey.run registers n).map fun survey ↦
        (survey.tally, { said := (survey.messages n).filter (·.within level) }) :=
  report_upTo registers clock level n {}

end MicroBench.Proofs.SurveyReport
