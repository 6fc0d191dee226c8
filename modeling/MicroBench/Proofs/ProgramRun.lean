import MicroBench.Program
import MicroBench.Proofs.CommandGrammar
import MicroBench.Proofs.FibonacciValue
import MicroBench.Proofs.SurveyBounds

namespace MicroBench.Proofs.ProgramRun

open CommandLine CommandMachine CommandGrammar Fibonacci FibonacciValue SurveyReport SurveyTotals
  SurveyBounds
open scoped Nat

variable (clock : ℕ → Elapsed) (dial : Elapsed → String)

theorem work_flips (level : Level) (n : ℕ) (tape : Tape) :
    (Program.flips.work ((Recorded.console clock).upTo level) dial n : Recorded Report) tape =
      (Survey.run .checked n).map fun survey ↦ (.ofTally n survey.tally,
        { tape with said := tape.said ++
          (.counting n :: survey.messages n).filter (·.within level) }) := by
  cases h : Survey.run .checked n with
  | error fault =>
    simp only [Program.work, bind, StateT.bind, say_upTo, Except.bind, report_upTo, h]
    rfl
  | ok survey =>
    have hsaid := filter_within_cons level (.counting n) (survey.messages n)
    simp only [Program.work, bind, StateT.bind, say_upTo, Except.bind, report_upTo, h, Except.map,
      hsaid, ← List.append_assoc]
    rfl

theorem work_fibonacci (level : Level) (n : ℕ) (tape : Tape) :
    (Program.fibonacci.work ((Recorded.console clock).upTo level) dial n : Recorded Report) tape =
      (naive n).map fun value ↦
        let elapsed := (clock tape.readings).since (clock (tape.readings + 1))
        (.fibonacci value (dial elapsed),
          { readings := tape.readings + 2
            said := tape.said ++ [.computing n, .finished elapsed].filter (·.within level) }) := by
  cases h : naive n with
  | error fault =>
    simp only [Program.work, Timed.measure, bind, StateT.bind, say_upTo, Except.bind, h]
    rfl
  | ok value =>
    have hsaid := filter_within_cons level (.computing n)
      [.finished ((clock tape.readings).since (clock (tape.readings + 1)))]
    simp only [Program.work, Except.map, hsaid, ← List.append_assoc]
    simp only [Timed.measure, bind, StateT.bind, say_upTo, Except.bind, h]
    rfl

/-- The result a program prints, in which only the time read off the clock is left open. -/
def result (seconds : String) : Program → Report
  | .flips => .ofTally Program.flips.size
      (surveyAfter Program.flips.size (Program.flips.size)!).tally
  | .fibonacci => .fibonacci (Nat.fib Program.fibonacci.size) seconds

def log (elapsed : Elapsed) : Program → List Message
  | .flips => .counting Program.flips.size ::
      (surveyAfter Program.flips.size (Program.flips.size)!).messages Program.flips.size
  | .fibonacci => [.computing Program.fibonacci.size, .finished elapsed]

theorem work_size (program : Program) (level : Level) :
    ∃ readings, (program.work ((Recorded.console clock).upTo level) dial program.size).result =
      .ok (result (dial ((clock 0).since (clock 1))) program,
        ⟨readings, (log ((clock 0).since (clock 1)) program).filter (·.within level)⟩) := by
  cases program with
  | flips =>
    have hrun := run_of_holds (n := Program.flips.size) (by decide)
      fun i hi ↦ holds_of_le .checked (by decide) hi
    refine ⟨0, ?_⟩
    rw [Recorded.result, work_flips, hrun]
    rfl
  | fibonacci =>
    have hvalue := naive_of_fib_lt (n := Program.fibonacci.size) (by decide)
    refine ⟨2, ?_⟩
    rw [Recorded.result, work_fibonacci, hvalue]
    rfl

def told (face : ClockFace) (elapsed : Elapsed) (level : Level) (program : Program) : List String :=
  ((log elapsed program).filter (·.within level)).map (·.coloured face.stamp face.duration)

variable {program : Program} {level level' : Level} {words : List Word} (face : ClockFace)

theorem run_of_accepted (program : Program) (h : Accepted words.tail) :
    program.run face clock words =
      .ok ⟨0, (result (face.seconds ((clock 0).since (clock 1))) program).text,
        String.join (told face ((clock 0).since (clock 1))
          (.ofVerbosity (verbosity words.tail)) program)⟩ := by
  obtain ⟨readings, hwork⟩ :=
    work_size clock face.seconds program (.ofVerbosity (verbosity words.tail))
  rw [Program.run, parse_eq_ok_iff.2 ⟨h, rfl⟩]
  simp only [hwork]
  rfl

theorem run_of_parse_error {exit : Exit} (h : program.tool.parse words = .error exit) :
    program.run face clock words = .ok exit := by
  rw [Program.run, h]

theorem rank_ofVerbosity_le {v k : ℕ} (h : v ≤ k) :
    (Level.ofVerbosity v).rank ≤ (Level.ofVerbosity k).rank := by
  have hrank (j : ℕ) : (Level.ofVerbosity j).rank = min (j + 1) 4 := by
    match j with
    | 0 | 1 | 2 => rfl
    | j + 3 =>
      change 4 = min (j + 3 + 1) 4
      omega
  rw [hrank, hrank]
  omega

theorem told_sublist (elapsed : Elapsed) (h : level.rank ≤ level'.rank) :
    (told face elapsed level program).Sublist (told face elapsed level' program) := by
  refine List.Sublist.map _ (List.monotone_filter_right _ fun message hmessage ↦ ?_)
  rw [Message.within, decide_eq_true_eq] at hmessage ⊢
  exact hmessage.trans h

theorem told_warn (elapsed : Elapsed) (program : Program) :
    told face elapsed .warn program = [] := by
  cases program with
  | flips =>
    rw [told, log, filter_within_cons, filter_messages]
    rfl
  | fibonacci => rfl

/-- A clock face on which every time looks the same. -/
def masked (stamp duration seconds : String) : ClockFace :=
  ⟨stamp, fun _ ↦ duration, fun _ ↦ seconds⟩

theorem told_masked (stamp duration seconds : String) (elapsed elapsed' : Elapsed) :
    told (masked stamp duration seconds) elapsed level program =
      told (masked stamp duration seconds) elapsed' level program := by
  cases program with
  | flips => rfl
  | fibonacci => cases level <;> rfl

/-- The pieces of a text between its line feeds, of which the last ends no line. -/
def lines (text : String) : List (List Char) := text.toList.splitOn '\n'

theorem lines_append (front rest : String) :
    lines (front ++ "\n" ++ rest) = lines front ++ lines rest := by
  have hsplit : (front ++ "\n" ++ rest).toList = front.toList ++ '\n' :: rest.toList := by simp
  rw [lines, hsplit, List.splitOn_append_cons_self]
  rfl

theorem lines_join_sublist {texts texts' : List String} (h : texts.Sublist texts')
    (hfeed : ∀ text ∈ texts', ∃ front, text = front ++ "\n") :
    (lines (String.join texts)).Sublist (lines (String.join texts')) := by
  induction h with
  | slnil => exact .refl _
  | cons text h ih =>
    obtain ⟨front, rfl⟩ := hfeed text List.mem_cons_self
    rw [String.join_cons, lines_append]
    exact (ih fun text ht ↦ hfeed text (.tail _ ht)).trans (List.sublist_append_right _ _)
  | cons_cons text h ih =>
    obtain ⟨front, rfl⟩ := hfeed text List.mem_cons_self
    rw [String.join_cons, String.join_cons, lines_append, lines_append]
    exact (ih fun text ht ↦ hfeed text (.tail _ ht)).append_left _

theorem feed_of_mem_told {elapsed : Elapsed} {text : String}
    (h : text ∈ told face elapsed level program) : ∃ front, text = front ++ "\n" := by
  obtain ⟨message, -, rfl⟩ := List.mem_map.1 h
  exact ⟨_, rfl⟩

/-- How much a program tells never touches its result. What it tells under fewer letters is, line by
line, among what it tells under more, as long as the clock is masked. Words that are not accepted
leave the parser's answer alone, and no clock is looked at. -/
theorem verbosity_only_adds_lines (program : Program) (stamp duration seconds : String) :
    (∀ face clock words, Accepted words.tail → ∃ exit, program.run face clock words = .ok exit ∧
      exit.code = 0 ∧
      exit.stdout = (result (face.seconds ((clock 0).since (clock 1))) program).text ∧
      (verbosity words.tail = 0 → exit.stderr = "")) ∧
    (∀ clock clock' words words', Accepted words.tail → Accepted words'.tail → ∃ exit exit',
      program.run (masked stamp duration seconds) clock words = .ok exit ∧
      program.run (masked stamp duration seconds) clock' words' = .ok exit' ∧
      exit.stdout = exit'.stdout ∧
      (verbosity words.tail ≤ verbosity words'.tail →
        (lines exit.stderr).Sublist (lines exit'.stderr)) ∧
      (3 ≤ verbosity words.tail → 3 ≤ verbosity words'.tail → exit.stderr = exit'.stderr)) ∧
    (∀ words, ¬ Accepted words.tail → ∃ exit, program.tool.parse words = .error exit ∧
      Declines program.tool words exit ∧
      ∀ face clock, program.run face clock words = .ok exit) := by
  refine ⟨?_, ?_, ?_⟩
  · intro face clock words h
    refine ⟨_, run_of_accepted clock face program h, rfl, rfl, fun hv ↦ ?_⟩
    rw [hv]
    change String.join (told face _ .warn program) = ""
    rw [told_warn]
    rfl
  · intro clock clock' words words' h h'
    refine ⟨_, _, run_of_accepted clock _ program h, run_of_accepted clock' _ program h',
      rfl, fun hle ↦ ?_, fun hv hv' ↦ ?_⟩
    · -- masked, the second run may as well have used the clock of the first
      rw [told_masked stamp duration seconds ((clock' 0).since (clock' 1))
        ((clock 0).since (clock 1))]
      exact lines_join_sublist (told_sublist _ _ (rank_ofVerbosity_le hle))
        fun text ↦ feed_of_mem_told _
    · have htrace {k : ℕ} (hk : 3 ≤ k) : Level.trace = .ofVerbosity k :=
        eq_ofVerbosity_iff.2 (.inr (.inr (.inr ⟨hk, rfl⟩)))
      rw [← htrace hv, ← htrace hv']
      exact congrArg String.join (told_masked stamp duration seconds _ _)
  · intro words h
    obtain ⟨exit, hparse, hdeclines⟩ := exists_declines_iff.2 h
    exact ⟨exit, hparse, hdeclines, fun face clock ↦ run_of_parse_error clock face hparse⟩

theorem verbosity_only_adds_lines_fibonacci : ∃ exit exit',
    Program.fibonacci.run (masked "[--m --s]" "-ns" "-") (fun i ↦ ⟨i * i⟩)
      (["fib", "--"].map .ofString) = .ok exit ∧
    Program.fibonacci.run (masked "[--m --s]" "-ns" "-") (fun i ↦ ⟨5 * i⟩)
      (["fib", "-v", "-vv"].map .ofString) = .ok exit' ∧
    exit.stdout = exit'.stdout ∧ (lines exit.stderr).Sublist (lines exit'.stderr) := by
  have haccepted : Accepted [ending] := ⟨[], by simp, .inr rfl⟩
  have haccepted' : Accepted (["-v", "-vv"].map .ofString) := by
    refine ⟨_, fun w hw ↦ ?_, .inl rfl⟩
    simp only [List.map_cons, List.map_nil, List.mem_cons, List.not_mem_nil, or_false] at hw
    obtain rfl | rfl := hw
    · exact ⟨0, by decide⟩
    · exact ⟨1, by decide⟩
  obtain ⟨exit, exit', hrun, hrun', hstdout, hlines, -⟩ :=
    (verbosity_only_adds_lines .fibonacci "[--m --s]" "-ns" "-").2.1 (fun i ↦ ⟨i * i⟩)
      (fun i ↦ ⟨5 * i⟩) (["fib", "--"].map .ofString) (["fib", "-v", "-vv"].map .ofString)
      haccepted haccepted'
  exact ⟨exit, exit', hrun, hrun', hstdout, hlines (by decide)⟩

end MicroBench.Proofs.ProgramRun
