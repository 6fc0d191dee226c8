import MicroBench.Odometer.Cells
import MicroBench.Proofs.OdometerRun

namespace MicroBench.Proofs.OdometerCells

open Odometer Cells Arrangement OdometerRun
open scoped Nat

variable {n : ℕ}

/-- Each entry but the first two has its wheel. -/
def Fits (s : Odometer) : Prop := s.wheels.length = s.order.length - 2

theorem length_turn (m : ℕ) (p : List ℕ) : (turn (m + 1) p).length = p.length := by
  rw [turn_eq_turnBy]
  exact (turnBy_perm (m + 1) 1 p).length_eq

theorem length_carry (r : ℕ) (order wheels : List ℕ) :
    (carry r order wheels).2.1.length = order.length ∧
      (carry r order wheels).2.2.length = wheels.length := by
  induction wheels generalizing r order with
  | nil => exact ⟨rfl, rfl⟩
  | cons w wheels ih =>
    cases w with
    | succ w => exact ⟨rfl, rfl⟩
    | zero =>
      cases wheels with
      | nil => exact ⟨rfl, rfl⟩
      | cons v wheels =>
        obtain ⟨ho, hw⟩ := ih (r + 1) (turn (r + 2) order)
        rw [length_turn] at ho
        exact ⟨ho, congrArg (· + 1) hw⟩

theorem lower_append (order low wheels : List ℕ) (w : ℕ) (even : Bool) :
    (Cells.mk order (low ++ (w + 1) :: wheels) even).lower low.length =
      some (true, ⟨order, low ++ w :: wheels, even⟩) := by
  simp [lower, write, subtract]

theorem write_append (low wheels : List ℕ) (w x : ℕ) :
    write (low ++ w :: wheels) low.length x = some (low ++ x :: wheels) := by
  simp [write]

theorem turnTo_of_lt {r : ℕ} {order : List ℕ} (h : r < order.length) :
    turnTo order r = some (turn (r + 1) order) := if_pos h

/-- Going over the counters from position `r` on does what passing the wheels from `r` on does. -/
theorem pass_append {r c : ℕ} {order low wheels : List ℕ} (hlow : low.length = r)
    (hw : wheels.length = c + 1) (ho : order.length = r + c + 1) (even : Bool) :
    Cells.pass (r + c) ⟨order, low ++ wheels, even⟩ (List.range' r c) =
      some ((carry r order wheels).1,
        ⟨(carry r order wheels).2.1, low ++ (carry r order wheels).2.2, even⟩) := by
  induction c generalizing r order low wheels with
  | zero =>
    obtain ⟨w, rfl⟩ := List.length_eq_one_iff.1 hw
    subst hlow
    cases w with
    | zero => simp [Cells.pass, carry]
    | succ w => simp [Cells.pass, carry, lower_append]
  | succ c ih =>
    obtain ⟨w, wheels, rfl⟩ := List.exists_cons_of_length_eq_add_one hw
    have hw' : wheels.length = c + 1 := by simpa using hw
    have hne : wheels ≠ [] := List.ne_nil_of_length_eq_add_one hw'
    cases w with
    | succ w =>
      subst hlow
      simp [Cells.pass, List.range'_succ, carry, lower_append]
    | zero =>
      have hturn : turnTo order (r + 1) = some (turn (r + 2) order) := turnTo_of_lt (by omega)
      have hturned : (turn (r + 2) order).length = r + 1 + c + 1 := by
        rw [length_turn, ho]
        omega
      have hlow' : (low ++ [r]).length = r + 1 := by simp [hlow]
      have hrest := ih hlow' hw' hturned
      have hlast : r + 1 + c = r + (c + 1) := by omega
      simp only [hlast, List.append_assoc, List.singleton_append] at hrest
      have hread : (low ++ 0 :: wheels)[r]? = some 0 := by simp [← hlow]
      have hwrite : write (low ++ 0 :: wheels) r r = some (low ++ r :: wheels) := by
        subst hlow
        exact write_append low wheels 0 low.length
      rw [List.range'_succ, carry_zero _ _ hne]
      simpa [Cells.pass, hread, hwrite, hturn] using hrest

theorem exchange_front (a b : ℕ) (rest : List ℕ) :
    exchange (a :: b :: rest) 0 1 = some (b :: a :: rest) := rfl

theorem exchange_second (a b d : ℕ) (rest : List ℕ) :
    exchange (a :: b :: d :: rest) 1 2 = some (a :: d :: b :: rest) := rfl

theorem counters_of_le {s : Odometer} (h : 2 ≤ s.order.length) :
    s.counters = [0, 1] ++ s.wheels := by
  rw [Odometer.counters, List.take_of_length_le (by simpa using h)]

theorem step_odd (a b d : ℕ) (rest wheels : List ℕ) :
    (ofOdometer ⟨a :: b :: d :: rest, wheels, false⟩).step =
      Cells.pass (2 + rest.length) ⟨a :: d :: b :: rest, [0, 1] ++ wheels, true⟩
        (List.range' 2 rest.length) := by
  have hlast : subtract (a :: b :: d :: rest).length 1 = some (2 + rest.length) := by
    simp [subtract]
    omega
  have hsize : ¬ (a :: b :: d :: rest).length < 3 := by simp
  have hcounters : (Odometer.mk (a :: b :: d :: rest) wheels false).counters = [0, 1] ++ wheels :=
    counters_of_le (by simp)
  simp only [step, ofOdometer, hcounters, exchange_second, hlast, hsize, Bool.false_eq_true,
    if_false, Option.bind_eq_bind, Option.bind_some, Nat.add_sub_cancel_left]

/-- Through cells the odometer makes the same steps, and none of them fails. -/
theorem step_ofOdometer {s : Odometer} (h : Fits s) :
    (ofOdometer s).step = some (s.advance.1, ofOdometer s.next) := by
  obtain ⟨order, wheels, even⟩ := s
  match even, order with
  | true, [] | true, [_] | false, [] | false, [_] | false, [_, _] => rfl
  | true, a :: b :: rest => simp [step, ofOdometer, exchange_front, advance, next, counters_of_le]
  | false, a :: b :: d :: rest =>
    have hw : wheels.length = rest.length + 1 := h
    have ho : (a :: d :: b :: rest).length = 2 + rest.length + 1 := by
      simp only [List.length_cons]
      omega
    have hpassed : 2 ≤ (carry 2 (a :: d :: b :: rest) wheels).2.1.length := by
      rw [(length_carry 2 (a :: d :: b :: rest) wheels).1]
      simp
    have hnext : (Odometer.mk (a :: b :: d :: rest) wheels false).next.counters =
        [0, 1] ++ (carry 2 (a :: d :: b :: rest) wheels).2.2 := counters_of_le hpassed
    have hlow : [0, 1].length = 2 := rfl
    rw [step_odd, pass_append hlow hw ho true, ofOdometer, hnext]
    rfl

theorem fits_next {s : Odometer} (h : Fits s) : Fits s.next := by
  obtain ⟨order, wheels, even⟩ := s
  match even, order with
  | true, [] | true, [_] | false, [] | false, [_] | false, [_, _] => exact h
  | true, a :: b :: rest => exact h
  | false, a :: b :: d :: rest =>
    obtain ⟨ho, hw⟩ := length_carry 2 (a :: d :: b :: rest) wheels
    have hcarried : (carry 2 (a :: d :: b :: rest) wheels).2.2.length =
        (carry 2 (a :: d :: b :: rest) wheels).2.1.length - 2 := by
      rw [ho, hw]
      exact h
    exact hcarried

theorem fits_start (n : ℕ) : Fits (start n) := by
  simp [Fits, start]

theorem fits_after (n k : ℕ) : Fits ((start n).after k) := by
  induction k with
  | zero => exact fits_start n
  | succ k ih =>
    rw [after_succ]
    exact fits_next ih

theorem steps_succ (k : ℕ) (s : Cells) :
    s.steps (k + 1) = (s.steps k).bind fun t ↦ t.step.map Prod.snd := by
  induction k generalizing s with
  | zero =>
    rw [steps]
    cases h : s.step with
    | none => simp [steps, h]
    | some answer => simp [steps, h]
  | succ k ih =>
    rw [steps]
    cases h : s.step with
    | none => simp [steps, h]
    | some answer => simp [steps, h, ← ih]

theorem counters_start (n : ℕ) : (start n).counters = List.range n := by
  have h : [0, 1].take n = (List.range n).take 2 := by
    rw [List.take_range, Nat.min_comm, ← List.take_range]
    rfl
  rw [Odometer.counters, start, List.length_range, h, List.take_append_drop]

theorem create_eq_ofOdometer (n : ℕ) : Cells.create n = ofOdometer (start n) := by
  rw [Cells.create, ofOdometer, counters_start]
  rfl

theorem steps_create (n k : ℕ) :
    (Cells.create n).steps k = some (ofOdometer ((start n).after k)) := by
  induction k with
  | zero => rw [create_eq_ofOdometer]; rfl
  | succ k ih =>
    rw [steps_succ, ih, Option.bind_some, step_ofOdometer (fits_after n k), after_succ]
    rfl

/-- Counter `r` of `n` after `k` steps. The first two never move. -/
def counterAt (n k r : ℕ) : ℕ := if r < 2 then r else wheelAt n k r

theorem counters_stateAt (hn : 3 ≤ n) (k : ℕ) :
    (stateAt n k).counters = (List.range n).map (counterAt n k) := by
  obtain ⟨c, rfl⟩ := Nat.exists_eq_add_of_le' hn
  have hlen : 2 ≤ (stateAt (c + 3) k).order.length := by
    rw [stateAt, length_arrangement]
    omega
  have htail : (List.range' 2 (c + 1)).map (counterAt (c + 3) k) =
      wheelsAt (c + 3) k 2 (c + 1) := by
    apply List.map_congr_left
    intro i hi
    have hr := (List.mem_range'_1.1 hi).1
    exact if_neg (by omega)
  rw [counters_of_le hlen, List.range_eq_range', List.range'_succ, List.range'_succ, List.map_cons,
    List.map_cons, htail]
  rfl

theorem counters_after_of_le_two (hn : n ≤ 2) (k : ℕ) :
    ((start n).after k).counters = List.range n := by
  rw [after_start_of_le_two hn, stateAt, Odometer.counters, length_arrangement]
  interval_cases n <;> rfl

theorem getElem?_counters {r : ℕ} (hn : 3 ≤ n) (k : ℕ) (hr : r < n) :
    ((start n).after k).counters[r]? = some (counterAt n k r) := by
  rw [after_start hn, counters_stateAt hn, List.getElem?_map, List.getElem?_range hr,
    Option.map_some]

/-- Through cells any number of steps succeeds, and one more does. From three entries on the
counters go round but for the last, which stays at 0, so that after the last arrangement every
`(n - 1)!`-th step fails again. Up to two entries no counter ever moves. -/
theorem counters_after_steps (n k : ℕ) :
    ∃ cells answer next, (Cells.create n).steps k = some cells ∧
      cells.step = some (answer, next) ∧
      cells = ofOdometer ((start n).after k) ∧ answer = ((start n).after k).advance.1 ∧
      (3 ≤ n →
        (answer = false ↔ n ! ≤ k + 1 ∧ (n - 1)! ∣ k + 1) ∧
        cells.counters.length = n ∧ cells.counters[0]? = some 0 ∧ cells.counters[1]? = some 1 ∧
        (∀ r, 2 ≤ r → r ≤ n - 2 → cells.counters[r]? = some (r - k / r ! % (r + 1))) ∧
        cells.counters[n - 1]? = some (n - 1 - min (n - 1) (k / (n - 1)!))) ∧
      (n ≤ 2 → (answer = true ↔ k + 1 < n !) ∧ cells.counters = List.range n) := by
  refine ⟨_, _, _, steps_create n k, step_ofOdometer (fits_after n k), rfl, rfl, ?_, ?_⟩
  · intro hn
    refine ⟨?_, ?_, ?_, ?_, ?_, ?_⟩
    · rw [advance_after_start hn, Bool.not_eq_false', decide_eq_true_iff]
    · change ((start n).after k).counters.length = n
      rw [after_start hn, counters_stateAt hn, List.length_map, List.length_range]
    · exact getElem?_counters hn k (by omega)
    · exact getElem?_counters hn k (by omega)
    · intro r hr hr'
      have h := getElem?_counters hn k (r := r) (by omega)
      rwa [counterAt, if_neg (by omega), wheelAt_inner (by omega)] at h
    · have h := getElem?_counters hn k (r := n - 1) (by omega)
      rwa [counterAt, if_neg (by omega), wheelAt, if_pos (by omega)] at h
  · intro hn
    rw [advance_after_start_of_le_two hn, decide_eq_true_iff]
    exact ⟨Iff.rfl, counters_after_of_le_two hn k⟩

theorem counters_after_steps_four : 3 ≤ 4 ∧ ∃ cells next,
    (Cells.create 4).steps 29 = some cells ∧ cells.step = some (false, next) ∧
      cells.counters[2]? = some 0 ∧ cells.counters[3]? = some 0 := by
  have hn : 3 ≤ 4 := by decide
  obtain ⟨cells, answer, next, hcells, hstep, -, -, hbig, -⟩ := counters_after_steps 4 29
  obtain ⟨hanswer, -, -, -, hinner, hlast⟩ := hbig hn
  obtain rfl : answer = false := hanswer.2 (by decide)
  exact ⟨hn, cells, next, hcells, hstep, hinner 2 le_rfl le_rfl, hlast⟩

end MicroBench.Proofs.OdometerCells
