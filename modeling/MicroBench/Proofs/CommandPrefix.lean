import Mathlib.Data.List.Basic
import MicroBench.Proofs.CommandGrammar

namespace MicroBench.Proofs.CommandPrefix

open CommandLine CommandMachine CommandMachine.Progress CommandGrammar

variable {tool : Tool} {a a' t words words' ws : List Word} {v : ℕ}

theorem after_append (v : ℕ) (ws t : List Word) :
    after v (ws ++ t) = t.foldl step (after v ws) := List.foldl_append

/-- Once a word has decided, those behind it are not looked at. -/
theorem readFrom_append_of_decided (h : ∀ k, readFrom v ws ≠ .run k) (t : List Word) :
    readFrom v (ws ++ t) = readFrom v ws := by
  simp only [readFrom_eq_request] at h ⊢
  cases hafter : after v ws with
  | reading k | ended k =>
    rw [hafter] at h
    exact absurd rfl (h k)
  | decided r => rw [after_append, hafter, foldl_decided]

theorem readFrom_append_of_raises (h : ∀ w ∈ ws, Raises w) (v : ℕ) (t : List Word) :
    readFrom v (ws ++ t) = readFrom (v + verbosity ws) t := by
  rw [readFrom_eq_request, readFrom_eq_request, after_append, after_eq_reading_iff.2 ⟨h, rfl⟩,
    after]

theorem raises_of_accepted (h : Accepted ws) (hending : ending ∉ ws) : ∀ w ∈ ws, Raises w := by
  obtain ⟨flags, hflags, rfl | rfl⟩ := h
  · exact hflags
  · simp at hending

/-- Of the words themselves only the first one is shown, which names the program. -/
theorem parse_congr (hhead : words.head? = words'.head?)
    (hread : CommandLine.read words = CommandLine.read words') :
    tool.parse words = tool.parse words' := by
  have hcalled : Tool.calledAs words = Tool.calledAs words' := by
    rw [Tool.calledAs, hhead, Tool.calledAs]
  have hjoined : Tool.joinedName words = Tool.joinedName words' := by
    rw [Tool.joinedName, hcalled, Tool.joinedName]
  have husage : tool.usageName words = tool.usageName words' := by
    rw [Tool.usageName, hcalled, Tool.usageName]
  have hhelp : tool.helpText words = tool.helpText words' := by
    unfold Tool.helpText
    rw [hjoined, husage]
  have hversion : tool.versionText words = tool.versionText words' := by
    rw [Tool.versionText, hjoined, Tool.versionText]
  have herror (shown : String) (meant : Option String) (raised : Bool) :
      tool.errorText words shown meant raised = tool.errorText words' shown meant raised := by
    unfold Tool.errorText
    rw [husage]
  rw [Tool.parse, Tool.parse, hread]
  cases CommandLine.read words' with
  | run k => rfl
  | help => simp only [hhelp]
  | version => simp only [hversion]
  | unexpected shown meant raised => simp only [herror]

theorem read_append (ha : a ≠ []) (t : List Word) :
    CommandLine.read (a ++ t) = readFrom 0 (a.tail ++ t) := by
  rw [CommandLine.read, List.tail_append_of_ne_nil ha]

/-- Words behind a command line that is not accepted change nothing of how it ends the program.
Behind one that is accepted and does not end the flags they are read as behind any other that names
the program alike and has as many letters v, in whatever words. -/
theorem parse_depends_on_count (tool : Tool) {a : List Word} (ha : a ≠ []) (t : List Word) :
    (∀ exit, tool.parse a = .error exit →
      tool.parse (a ++ t) = .error exit ∧ tool.respond (a ++ t) = exit) ∧
    ∀ a', a'.head? = a.head? → ending ∉ a.tail → ending ∉ a'.tail →
      (∃ level, tool.parse a = .ok level) → (∃ level, tool.parse a' = .ok level) →
      verbosity a'.tail = verbosity a.tail →
      tool.parse (a' ++ t) = tool.parse (a ++ t) ∧
        tool.respond (a' ++ t) = tool.respond (a ++ t) := by
  constructor
  · intro exit hexit
    have hrejected : ∀ k, readFrom 0 a.tail ≠ .run k := by
      intro k hrun
      obtain ⟨haccepted, -⟩ := readFrom_eq_run_iff.1 hrun
      rw [parse_eq_ok_iff.2 ⟨haccepted, rfl⟩] at hexit
      cases hexit
    have hparse : tool.parse (a ++ t) = .error exit := by
      rw [← hexit]
      refine parse_congr (List.head?_append_of_ne_nil a ha) ?_
      rw [read_append ha, readFrom_append_of_decided hrejected, CommandLine.read]
    exact ⟨hparse, by rw [Tool.respond, hparse]⟩
  · rintro a' hhead hending hending' ⟨level, hlevel⟩ ⟨level', hlevel'⟩ hcount
    have ha' : a' ≠ [] := by
      rintro rfl
      exact ha (List.head?_eq_none_iff.1 hhead.symm)
    have hraises := raises_of_accepted (parse_eq_ok_iff.1 hlevel).1 hending
    have hraises' := raises_of_accepted (parse_eq_ok_iff.1 hlevel').1 hending'
    have hparse : tool.parse (a' ++ t) = tool.parse (a ++ t) := by
      refine parse_congr ?_ ?_
      · rw [List.head?_append_of_ne_nil a' ha', List.head?_append_of_ne_nil a ha, hhead]
      · rw [read_append ha', read_append ha, readFrom_append_of_raises hraises',
          readFrom_append_of_raises hraises, hcount]
    exact ⟨hparse, by rw [Tool.respond, hparse, Tool.respond]⟩

theorem parse_depends_on_count_two : ["fib", "-vv"].map Word.ofString ≠ [] ∧
    ∃ exit, Tool.parse ⟨"fib", ""⟩ (["fib", "-v", "-v", "-x"].map .ofString) = .error exit ∧
      Tool.parse ⟨"fib", ""⟩ (["fib", "-vv", "-x", "--help"].map .ofString) = .error exit ∧
      exit.code = 1 := by
  have hgrouped : ["fib", "-vv"].map Word.ofString ≠ [] := by simp
  have hdecided : ["fib", "-vv", "-x"].map Word.ofString ≠ [] := by simp
  obtain ⟨exit, hexit, hcode⟩ : ∃ exit,
      Tool.parse ⟨"fib", ""⟩ (["fib", "-vv", "-x"].map .ofString) = .error exit ∧ exit.code = 1 :=
    ⟨_, rfl, rfl⟩
  have hregroup := (parse_depends_on_count ⟨"fib", ""⟩ hgrouped (["-x"].map .ofString)).2
    (["fib", "-v", "-v"].map .ofString) rfl (by decide) (by decide) ⟨.debug, rfl⟩
    ⟨.debug, rfl⟩ (by decide)
  have hcut := (parse_depends_on_count ⟨"fib", ""⟩ hdecided (["--help"].map .ofString)).1 exit hexit
  exact ⟨hgrouped, exit, hregroup.1.trans hexit, hcut.1, hcode⟩

end MicroBench.Proofs.CommandPrefix
