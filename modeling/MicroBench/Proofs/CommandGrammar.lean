import MicroBench.CommandLine.Exit
import MicroBench.Proofs.CommandMachine

namespace MicroBench.Proofs.CommandGrammar

open CommandLine CommandMachine CommandMachine.Progress

variable {tool : Tool} {ws words : List Word} {v k : ℕ}

/-- Words that raise the verbosity, and behind them at most the two dashes that end the flags. -/
def Accepted (ws : List Word) : Prop :=
  ∃ flags, (∀ w ∈ flags, Raises w) ∧ (ws = flags ∨ ws = flags ++ [ending])

theorem readFrom_eq_run_iff : readFrom v ws = .run k ↔ Accepted ws ∧ k = v + verbosity ws := by
  rw [readFrom_eq_request]
  constructor
  · intro h
    cases hafter : after v ws with
    | reading j =>
      rw [hafter] at h
      cases h
      obtain ⟨hws, hk⟩ := after_eq_reading_iff.1 hafter
      exact ⟨⟨ws, hws, .inl rfl⟩, hk⟩
    | ended j =>
      rw [hafter] at h
      cases h
      obtain ⟨flags, rfl, hflags, hk⟩ := after_eq_ended_iff.1 hafter
      exact ⟨⟨flags, hflags, .inr rfl⟩, hk⟩
    | decided r =>
      rw [hafter] at h
      exact absurd h (ne_run_of_after hafter k)
  · rintro ⟨⟨flags, hflags, rfl | rfl⟩, rfl⟩
    · rw [after_eq_reading_iff.2 ⟨hflags, rfl⟩]
      rfl
    · rw [after_eq_ended_iff.2 ⟨flags, rfl, hflags, rfl⟩]
      rfl

theorem read_eq_run_iff :
    CommandLine.read words = .run k ↔ Accepted words.tail ∧ k = verbosity words.tail := by
  rw [CommandLine.read, readFrom_eq_run_iff, Nat.zero_add]

theorem parse_eq_ok_iff {level : Level} : tool.parse words = .ok level ↔
    Accepted words.tail ∧ level = .ofVerbosity (verbosity words.tail) := by
  have hread := @read_eq_run_iff words
  rw [Tool.parse]
  cases h : CommandLine.read words with
  | run k =>
    obtain ⟨haccepted, rfl⟩ := hread.1 h
    simp [haccepted, eq_comm]
  | help | version | unexpected shown meant raised =>
    have hrejected : ¬ Accepted words.tail := by
      intro haccepted
      have hrun := hread.2 ⟨haccepted, rfl⟩
      rw [h] at hrun
      cases hrun
    simp [hrejected]

/-- How a program ends at once: it prints one of two pages, or complains of a word. -/
def Declines (tool : Tool) (words : List Word) (exit : Exit) : Prop :=
  (exit.code = 0 ∧ exit.stderr = "" ∧ exit.stdout ≠ "" ∧
    (exit.stdout = tool.helpText words ∨ exit.stdout = tool.versionText words)) ∨
  (exit.code = 1 ∧ exit.stdout = "" ∧ exit.stderr ≠ "" ∧
    ∃ shown meant raised, exit.stderr = tool.errorText words shown meant raised)

theorem append_ne_empty {s t : String} (h : t ≠ "") : s ++ t ≠ "" := by
  intro happend
  exact h (String.append_eq_empty_iff.1 happend).2

theorem helpText_ne_empty (tool : Tool) (words : List Word) : tool.helpText words ≠ "" :=
  append_ne_empty (by simp)

theorem versionText_ne_empty (tool : Tool) (words : List Word) : tool.versionText words ≠ "" :=
  append_ne_empty (by simp)

theorem errorText_ne_empty (tool : Tool) (words : List Word) (shown : String)
    (meant : Option String) (raised : Bool) : tool.errorText words shown meant raised ≠ "" :=
  append_ne_empty (by simp)

theorem declines_of_parse {exit : Exit} (h : tool.parse words = .error exit) :
    Declines tool words exit := by
  rw [Tool.parse] at h
  cases hread : CommandLine.read words with
  | run k =>
    rw [hread] at h
    cases h
  | help =>
    rw [hread] at h
    cases h
    exact .inl ⟨rfl, rfl, helpText_ne_empty tool words, .inl rfl⟩
  | version =>
    rw [hread] at h
    cases h
    exact .inl ⟨rfl, rfl, versionText_ne_empty tool words, .inr rfl⟩
  | unexpected shown meant raised =>
    rw [hread] at h
    cases h
    exact .inr ⟨rfl, rfl, errorText_ne_empty tool words shown meant raised, _, _, _, rfl⟩

theorem exists_declines_iff : (∃ exit, tool.parse words = .error exit ∧
    Declines tool words exit) ↔ ¬ Accepted words.tail := by
  constructor
  · rintro ⟨exit, hparse, -⟩ haccepted
    rw [parse_eq_ok_iff.2 ⟨haccepted, rfl⟩] at hparse
    cases hparse
  · intro hrejected
    cases h : tool.parse words with
    | ok level => exact absurd (parse_eq_ok_iff.1 h).1 hrejected
    | error exit => exact ⟨exit, rfl, declines_of_parse h⟩

theorem eq_ofVerbosity_iff {level : Level} : level = .ofVerbosity k ↔
    (k = 0 ∧ level = .warn) ∨ (k = 1 ∧ level = .info) ∨ (k = 2 ∧ level = .debug) ∨
      (3 ≤ k ∧ level = .trace) := by
  match k with
  | 0 | 1 | 2 => simp [Level.ofVerbosity]
  | k + 3 => simp [Level.ofVerbosity]

/-- One grammar is accepted, whatever the name and the purpose of the tool: behind the first word
only dashes with the letter v behind them, and two dashes at the very end. The number of letters
decides the level, not their grouping. Whatever else is read ends the program at once, with a page
on the output alone or a complaint on the error stream alone. -/
theorem command_line_grammar (tool : Tool) (words : List Word) :
    (∀ level, tool.parse words = .ok level ↔ Accepted words.tail ∧
      ((verbosity words.tail = 0 ∧ level = .warn) ∨ (verbosity words.tail = 1 ∧ level = .info) ∨
        (verbosity words.tail = 2 ∧ level = .debug) ∨
        (3 ≤ verbosity words.tail ∧ level = .trace))) ∧
    ((∃ level, tool.parse words = .ok level) ↔ Accepted words.tail) ∧
    ((∃ exit, tool.parse words = .error exit ∧ Declines tool words exit) ↔
      ¬ Accepted words.tail) := by
  refine ⟨fun level ↦ ?_, ?_, exists_declines_iff⟩
  · rw [parse_eq_ok_iff, eq_ofVerbosity_iff]
  · simp only [parse_eq_ok_iff, exists_and_left, exists_eq, and_true]

example : (Tool.mk "fib" "").parse (["-v", "-vv", "-v", "--"].map .ofString) = .ok .trace :=
  rfl

end MicroBench.Proofs.CommandGrammar
