import Mathlib.Data.List.Induction
import Mathlib.Data.Nat.Notation
import MicroBench.CommandLine.Reader

namespace MicroBench.Proofs.CommandMachine

open CommandLine

variable {w : Word} {ws : List Word} {v k : ℕ} {r : Request}

/-- How far a command line has been read: flags are still counted, or two dashes have ended them,
or a word has decided the request. -/
inductive Progress where
  | reading (verbosity : ℕ)
  | ended (verbosity : ℕ)
  | decided (request : Request)
  deriving DecidableEq, Repr

/-- Two dashes, which end the flags. -/
def ending : Word := [some '-', some '-']

/-- A dash and behind it the letter v, once or more. -/
def Raises (w : Word) : Prop := ∃ n, w = some '-' :: List.replicate (n + 1) (some 'v')

def verbosity (ws : List Word) : ℕ := ws.flatten.count (some 'v')

namespace Progress

def step : Progress → Word → Progress
  | reading v, w =>
    if w = ending then ended v
    else
      match readWord v w with
      | .goOn v => reading v
      | .decided r => decided r
  | ended v, w => decided (.unexpected w.shown none (0 < v))
  | decided r, _ => decided r

def request : Progress → Request
  | reading v | ended v => .run v
  | decided r => r

/-- How far words have been read that stand behind others with `v` letters v in them. -/
def after (v : ℕ) (ws : List Word) : Progress := ws.foldl step (reading v)

theorem after_concat (v : ℕ) (ws : List Word) (w : Word) :
    after v (ws ++ [w]) = (after v ws).step w := by
  rw [after, List.foldl_append]
  rfl

theorem foldl_decided (r : Request) (ws : List Word) : ws.foldl step (decided r) = decided r := by
  induction ws with
  | nil => rfl
  | cons w ws ih => exact ih

end Progress

open Progress

theorem readFrom_of_ne (hw : w ≠ ending) (v : ℕ) (ws : List Word) :
    readFrom v (w :: ws) =
      match readWord v w with
      | .goOn v => readFrom v ws
      | .decided r => r := by
  rw [readFrom.eq_def]
  exact if_neg hw

/-- A command line is read by a machine that takes in one word after the other. -/
theorem readFrom_eq_request (v : ℕ) (ws : List Word) :
    readFrom v ws = (after v ws).request := by
  induction ws generalizing v with
  | nil => rfl
  | cons w ws ih =>
    rw [after, List.foldl_cons, step]
    by_cases hw : w = ending
    · rw [if_pos hw, hw]
      cases ws with
      | nil => rfl
      | cons x xs =>
        rw [List.foldl_cons, step, foldl_decided]
        rfl
    · rw [if_neg hw, readFrom_of_ne hw]
      cases readWord v w with
      | goOn v => exact ih v
      | decided r =>
        rw [foldl_decided]
        rfl

theorem readCluster_eq_goOn_iff :
    readCluster v w = .goOn k ↔ w = List.replicate w.length (some 'v') ∧ k = v + w.length := by
  induction w generalizing v with
  | nil => simp [readCluster, eq_comm]
  | cons c cs ih =>
    rw [readCluster, List.length_cons, List.replicate_succ, List.cons.injEq]
    by_cases hv : c = some 'v'
    · rw [if_pos hv, ih, Nat.add_right_comm, Nat.add_assoc]
      simp [hv]
    · rw [if_neg hv]
      split
      · simp [hv]
      split <;> simp [hv]

theorem readLong_ne_goOn (v : ℕ) (w : Word) (k : ℕ) : readLong v w ≠ .goOn k := by
  rw [readLong]
  split
  · simp
  split <;> simp

theorem count_of_raises {n : ℕ} (h : w = some '-' :: List.replicate (n + 1) (some 'v')) :
    w.count (some 'v') = n + 1 := by
  rw [h, List.count_cons_of_ne (by decide), List.count_replicate_self]

/-- The words that a command line goes on after are those that only raise the verbosity. -/
theorem readWord_eq_goOn_iff :
    readWord v w = .goOn k ↔ Raises w ∧ k = v + w.count (some 'v') := by
  constructor
  · intro h
    unfold readWord at h
    split at h
    · exact absurd h (readLong_ne_goOn _ _ _)
    · rename_i c cs _
      obtain ⟨hletters, hk⟩ := readCluster_eq_goOn_iff.1 h
      have hw : some '-' :: c :: cs = some '-' :: List.replicate (cs.length + 1) (some 'v') := by
        rw [hletters]
        simp
      exact ⟨⟨cs.length, hw⟩, by rw [count_of_raises hw, hk]; rfl⟩
    · cases h
  · rintro ⟨⟨n, hw⟩, rfl⟩
    have hcluster : readCluster v (List.replicate (n + 1) (some 'v')) = .goOn (v + (n + 1)) :=
      readCluster_eq_goOn_iff.2 (by simp)
    rw [count_of_raises hw, ← hcluster, hw, List.replicate_succ]
    rfl

theorem ne_run_of_readCluster (h : readCluster v w = .decided r) (k : ℕ) : r ≠ .run k := by
  induction w generalizing v with
  | nil => cases h
  | cons c cs ih =>
    rw [readCluster] at h
    split at h
    · exact ih h
    split at h
    · cases h
      simp
    split at h <;> cases h <;> simp

theorem ne_run_of_readLong (h : readLong v w = .decided r) (k : ℕ) : r ≠ .run k := by
  rw [readLong] at h
  split at h
  · cases h
    simp
  split at h <;> cases h <;> simp

theorem ne_run_of_readWord (h : readWord v w = .decided r) (k : ℕ) : r ≠ .run k := by
  unfold readWord at h
  split at h
  · exact ne_run_of_readLong h k
  · exact ne_run_of_readCluster h k
  · cases h
    simp

theorem not_raises_ending : ¬ Raises ending := by
  rintro ⟨n, h⟩
  simp [ending, List.replicate_succ] at h

theorem step_eq_reading_iff {s : Progress} :
    s.step w = reading k ↔ ∃ v, s = reading v ∧ Raises w ∧ k = v + w.count (some 'v') := by
  cases s with
  | reading v =>
    rw [step]
    by_cases hw : w = ending
    · simp [hw, not_raises_ending]
    · rw [if_neg hw]
      have hword := @readWord_eq_goOn_iff w v k
      cases hread : readWord v w with
      | goOn j => simp_all
      | decided r => simp_all
  | ended v => simp [step]
  | decided r => simp [step]

theorem step_eq_ended_iff {s : Progress} : s.step w = ended k ↔ s = reading k ∧ w = ending := by
  cases s with
  | reading v =>
    rw [step]
    by_cases hw : w = ending
    · simp [hw]
    · rw [if_neg hw]
      cases readWord v w <;> simp [hw]
  | ended v => simp [step]
  | decided r => simp [step]

theorem verbosity_concat (ws : List Word) (w : Word) :
    verbosity (ws ++ [w]) = verbosity ws + w.count (some 'v') := by
  simp [verbosity]

theorem after_eq_reading_iff :
    after v ws = reading k ↔ (∀ w ∈ ws, Raises w) ∧ k = v + verbosity ws := by
  induction ws using List.reverseRecOn generalizing k with
  | nil => simp [after, verbosity, eq_comm]
  | append_singleton ws w ih =>
    rw [after_concat, step_eq_reading_iff, verbosity_concat]
    simp only [ih, List.forall_mem_append, List.forall_mem_singleton]
    constructor
    · rintro ⟨j, ⟨hws, rfl⟩, hw, rfl⟩
      exact ⟨⟨hws, hw⟩, Nat.add_assoc _ _ _⟩
    · rintro ⟨⟨hws, hw⟩, rfl⟩
      exact ⟨_, ⟨hws, rfl⟩, hw, (Nat.add_assoc _ _ _).symm⟩

theorem after_eq_ended_iff : after v ws = ended k ↔
    ∃ flags, ws = flags ++ [ending] ∧ (∀ w ∈ flags, Raises w) ∧ k = v + verbosity ws := by
  induction ws using List.reverseRecOn with
  | nil => simp [after]
  | append_singleton ws w ih =>
    rw [after_concat, step_eq_ended_iff, after_eq_reading_iff, verbosity_concat]
    constructor
    · rintro ⟨⟨hws, rfl⟩, rfl⟩
      exact ⟨ws, rfl, hws, rfl⟩
    · rintro ⟨flags, hconcat, hflags, rfl⟩
      obtain ⟨rfl, hw⟩ := List.append_inj' hconcat rfl
      obtain rfl := List.singleton_inj.1 hw
      exact ⟨⟨hflags, rfl⟩, rfl⟩

theorem ne_run_of_after (h : after v ws = decided r) (k : ℕ) : r ≠ .run k := by
  induction ws using List.reverseRecOn generalizing r with
  | nil => cases h
  | append_singleton ws w ih =>
    rw [after_concat] at h
    cases hws : after v ws with
    | reading j =>
      rw [hws, step] at h
      split at h
      · cases h
      cases hread : readWord j w with
      | goOn j => rw [hread] at h; cases h
      | decided r' =>
        rw [hread] at h
        cases h
        exact ne_run_of_readWord hread k
    | ended j =>
      rw [hws] at h
      cases h
      simp
    | decided r' =>
      rw [hws] at h
      cases h
      exact ih hws

end MicroBench.Proofs.CommandMachine
