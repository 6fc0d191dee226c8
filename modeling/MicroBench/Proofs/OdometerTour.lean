import MicroBench.Proofs.OdometerRun

namespace MicroBench.Proofs.OdometerTour

open Odometer Arrangement OdometerRun
open scoped Nat

/-- The odometer at `s` and after each further step, up to the last one that succeeds. -/
def states (s : Odometer) : List Odometer :=
  match h : s.advance with
  | (true, t) =>
    have := remaining_lt_of_advance h
    s :: states t
  | (false, _) => [s]
termination_by s.remaining

/-- The arrangements of `0, …, n - 1` in the order of their visit. -/
def tour (n : ℕ) : List (List ℕ) := (states (start n)).map Odometer.order

theorem states_of_advance {s : Odometer} (h : s.advance.1 = true) :
    states s = s :: states s.next := by
  rw [states]
  split
  · rename_i t ht
    have hnext : s.next = t := congrArg Prod.snd ht
    simp only [hnext]
  · simp_all

theorem states_of_stop {s : Odometer} (h : s.advance.1 = false) : states s = [s] := by
  rw [states]
  split <;> simp_all

theorem fold_eq_foldlM {β : Type} (visit : β → Odometer → Except Fault β) (acc : β)
    (s : Odometer) : s.fold visit acc = (states s).foldlM visit acc := by
  fun_induction states s generalizing acc with
  | case1 s t h this ih =>
    rw [fold, List.foldlM_cons]
    cases visit acc s with
    | error fault => rfl
    | ok acc =>
      simp only
      split
      · rename_i u hu
        obtain rfl : t = u := congrArg Prod.snd (h.symm.trans hu)
        exact ih acc
      · simp_all
  | case2 s t h =>
    rw [fold, List.foldlM_cons]
    cases visit acc s with
    | error fault => rfl
    | ok acc =>
      simp only
      split <;> simp_all [pure, Except.pure, bind, Except.bind]

theorem states_eq_map {s : Odometer} {m : ℕ} (h : ∀ j < m, (s.after j).advance.1 = true)
    (hm : (s.after m).advance.1 = false) :
    states s = (List.range (m + 1)).map fun j ↦ s.after j := by
  induction m generalizing s with
  | zero => exact states_of_stop hm
  | succ m ih =>
    have hfirst : s.advance.1 = true := h 0 (by omega)
    have hrest := ih (s := s.next) (fun j hj ↦ h (j + 1) (by omega)) hm
    rw [states_of_advance hfirst, hrest, List.range_succ_eq_map (n := m + 1), List.map_cons,
      List.map_map]
    rfl

theorem states_start (n : ℕ) : states (start n) = (List.range n !).map (stateAt n) := by
  have hpos := n.factorial_pos
  have h := states_eq_map (s := start n) (m := (n !) - 1)
    (fun j hj ↦ advance_of_lt (by omega)) (advance_at_end n)
  rw [h, Nat.sub_add_cancel hpos]
  exact List.map_congr_left (fun k hk ↦ after_start_of_lt (List.mem_range.1 hk))

theorem tour_eq_map (n : ℕ) : tour n = (List.range n !).map (arrangement n) := by
  rw [tour, states_start, List.map_map]
  rfl

theorem answers_until_end (n : ℕ) :
    ((List.range n !).map fun k ↦ ((start n).after k).advance.1) =
      List.replicate ((n !) - 1) true ++ [false] := by
  obtain ⟨m, hm⟩ := Nat.exists_eq_add_of_lt n.factorial_pos
  have hend := advance_at_end n
  rw [Nat.zero_add] at hm
  rw [hm, Nat.add_sub_cancel] at hend ⊢
  rw [List.range_succ, List.map_append, List.map_singleton, hend]
  refine congrArg (· ++ [false]) (List.eq_replicate_iff.2 ⟨by simp, ?_⟩)
  intro answer hanswer
  obtain ⟨k, hk, rfl⟩ := List.mem_map.1 hanswer
  exact advance_of_lt (by rw [hm]; exact Nat.succ_lt_succ (List.mem_range.1 hk))

/-- The odometer goes through all arrangements of `0, …, n - 1` and through none twice, and its
steps succeed until the last of them is reached. -/
theorem tour_visits_each_once (n : ℕ) :
    (tour n).length = n ! ∧ (tour n).Nodup ∧ (∀ p, p ∈ tour n ↔ p.Perm (List.range n)) ∧
      ((List.range n !).map fun k ↦ ((start n).after k).advance.1) =
        List.replicate ((n !) - 1) true ++ [false] := by
  refine ⟨?_, ?_, fun p ↦ ?_, answers_until_end n⟩
  · rw [tour_eq_map, List.length_map, List.length_range]
  · rw [tour_eq_map]
    exact nodup_arrangements n
  · rw [tour_eq_map, (arrangements_perm n).mem_iff, List.mem_permutations]

end MicroBench.Proofs.OdometerTour
