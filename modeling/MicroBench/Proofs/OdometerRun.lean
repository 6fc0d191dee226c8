import Mathlib.Tactic.IntervalCases
import MicroBench.Proofs.Arrangement

namespace MicroBench.Proofs.OdometerRun

open Odometer Arrangement
open scoped Nat

variable {n k r c : ℕ}

theorem after_succ (s : Odometer) (k : ℕ) : s.after (k + 1) = (s.after k).next := by
  induction k generalizing s with
  | zero => rfl
  | succ k ih => exact ih s.next

/-- Where wheel `r` of `n` stands after `k` steps. The last one stays at 0 once it is there, the
others go round. -/
def wheelAt (n k r : ℕ) : ℕ :=
  if r + 1 = n then r - min r (k / r !) else r - k / r ! % (r + 1)

def wheelsAt (n k r c : ℕ) : List ℕ := (List.range' r c).map (wheelAt n k)

/-- The odometer of size `n` after `k` steps. -/
def stateAt (n k : ℕ) : Odometer where
  order := arrangement n k
  wheels := wheelsAt n k 2 (n - 2)
  even := k % 2 = 0

theorem wheelsAt_succ (n k r c : ℕ) :
    wheelsAt n k r (c + 1) = wheelAt n k r :: wheelsAt n k (r + 1) c := by
  simp [wheelsAt, List.range'_succ]

theorem wheelAt_zero (n r : ℕ) : wheelAt n 0 r = r := by
  simp [wheelAt]

theorem wheelAt_inner (h : r + 1 ≠ n) : wheelAt n k r = r - digit k (r + 1) := if_neg h

theorem wheelsAt_succ_of_not_dvd (n c : ℕ) (h : ¬ r ! ∣ k + 1) :
    wheelsAt n (k + 1) r c = wheelsAt n k r c := by
  apply List.map_congr_left
  intro i hi
  have hd := not_factorial_dvd_of_le (List.mem_range'_1.1 hi).1 h
  rw [wheelAt, wheelAt, Nat.succ_div_of_not_dvd hd]

theorem factorial_succ_le_iff (h : r ! ∣ k + 1) : (r + 1)! ≤ k + 1 ↔ r ≤ k / r ! := by
  rw [Nat.factorial_succ, ← Nat.le_div_iff_mul_le r.factorial_pos, Nat.succ_div_of_dvd h]
  omega

theorem digit_succ_of_lt (h : r ! ∣ k + 1) (hlt : digit k (r + 1) < r) :
    digit (k + 1) (r + 1) = digit k (r + 1) + 1 := by
  rw [digit_succ_of_dvd h, Nat.mod_eq_of_lt (by omega)]

theorem digit_succ_of_eq (h : r ! ∣ k + 1) (hd : digit k (r + 1) = r) :
    digit (k + 1) (r + 1) = 0 := by
  rw [digit_succ_of_dvd h, hd, Nat.mod_self]

/-- A digit at its top is the sign that the next longer prefix has its turn. -/
theorem factorial_succ_dvd_iff (h : r ! ∣ k + 1) : (r + 1)! ∣ k + 1 ↔ digit k (r + 1) = r := by
  have htop : digit k (r + 1) < r + 1 := digit_lt k r.succ_pos
  rw [Nat.factorial_succ, Nat.mul_comm, ← Nat.dvd_div_iff_mul_dvd h, Nat.dvd_iff_mod_eq_zero]
  change digit (k + 1) (r + 1) = 0 ↔ _
  constructor
  · intro hzero
    by_contra hne
    rw [digit_succ_of_lt h (by omega)] at hzero
    omega
  · exact digit_succ_of_eq h

theorem wheelAt_last_lower (h : r ! ∣ k + 1) (hlast : ¬ (r + 1)! ≤ k + 1) :
    wheelAt (r + 1) k r = wheelAt (r + 1) (k + 1) r + 1 := by
  rw [factorial_succ_le_iff h] at hlast
  rw [wheelAt, wheelAt, if_pos rfl, if_pos rfl, Nat.succ_div_of_dvd h]
  omega

theorem wheelAt_last_down (hlast : (r + 1)! ≤ k) : wheelAt (r + 1) k r = 0 := by
  have hle : r + 1 ≤ k / r ! := by
    rwa [Nat.le_div_iff_mul_le r.factorial_pos, ← Nat.factorial_succ]
  rw [wheelAt, if_pos rfl]
  omega

theorem wheelAt_last_top (h : r ! ∣ k + 1) (hlast : (r + 1)! ≤ k + 1) :
    wheelAt (r + 1) k r = 0 := by
  rw [wheelAt, if_pos rfl, Nat.min_eq_left ((factorial_succ_le_iff h).1 hlast), Nat.sub_self]

theorem wheelAt_inner_lower (hn : r + 1 ≠ n) (h : r ! ∣ k + 1) (hlt : digit k (r + 1) < r) :
    wheelAt n k r = wheelAt n (k + 1) r + 1 := by
  rw [wheelAt_inner hn, wheelAt_inner hn, digit_succ_of_lt h hlt]
  omega

theorem carry_zero (r : ℕ) (order : List ℕ) {wheels : List ℕ} (h : wheels ≠ []) :
    carry r order (0 :: wheels) =
      let passed := carry (r + 1) (turn (r + 2) order) wheels
      (passed.1, passed.2.1, r :: passed.2.2) := by
  cases wheels with
  | nil => exact absurd rfl h
  | cons w wheels => rfl

theorem carry_last {p : List ℕ} (hp : p.length = r + 1) (h : r ! ∣ k + 1) :
    carry r (turnBy (r + 1) 1 (turnsDown k (r + 1) 1 p)) (wheelsAt (r + 1) k r 1) =
      (!decide ((r + 1)! ≤ k + 1), turnsDown (k + 1) (r + 1) 1 p,
        wheelsAt (r + 1) (k + 1) r 1) := by
  have hturn : turnBy (r + 1) 1 (turnsDown k (r + 1) 1 p) = turnsDown (k + 1) (r + 1) 1 p := by
    rw [turnsDown_succ, turnsDown_zero, turnBy_turnBy, turnsDown_succ, turnsDown_zero,
      digit_succ_of_dvd h, turnBy_mod _ hp.ge]
  rw [hturn]
  by_cases hlast : (r + 1)! ≤ k + 1
  · simp [wheelAt_last_top h hlast, wheelAt_last_down hlast, hlast, wheelsAt, carry]
  · simp [wheelAt_last_lower h hlast, hlast, wheelsAt, carry]

theorem carry_lowered (p : List ℕ) (hn : r + 1 ≠ n) (h : r ! ∣ k + 1) (hd : ¬ (r + 1)! ∣ k + 1) :
    carry r (turnBy (r + 1) 1 (turnsDown k (r + 1) (c + 1) p)) (wheelsAt n k r (c + 1)) =
      (true, turnsDown (k + 1) (r + 1) (c + 1) p, wheelsAt n (k + 1) r (c + 1)) := by
  have hlt : digit k (r + 1) < r := by
    have htop : digit k (r + 1) < r + 1 := digit_lt k r.succ_pos
    have hne := mt (factorial_succ_dvd_iff h).2 hd
    omega
  rw [wheelsAt_succ n k, wheelAt_inner_lower hn h hlt, carry, turnsDown_succ k, turnBy_turnBy,
    turnsDown_succ (k + 1), digit_succ_of_lt h hlt, turnsDown_succ_ordinal _ p hd,
    wheelsAt_succ n (k + 1), wheelsAt_succ_of_not_dvd _ _ hd]

theorem carry_passed {p : List ℕ} (hp : r + 1 ≤ p.length) (hn : r + 1 ≠ n) (h : r ! ∣ k + 1)
    (hd : (r + 1)! ∣ k + 1) :
    carry r (turnBy (r + 1) 1 (turnsDown k (r + 1) (c + 2) p)) (wheelsAt n k r (c + 2)) =
      let passed := carry (r + 1) (turnBy (r + 2) 1 (turnsDown k (r + 2) (c + 1) p))
        (wheelsAt n k (r + 1) (c + 1))
      (passed.1, passed.2.1, r :: passed.2.2) := by
  have hfull := (factorial_succ_dvd_iff h).1 hd
  have hlen : r + 1 ≤ (turnsDown k (r + 2) (c + 1) p).length := by
    rwa [length_turnsDown]
  have hw : wheelAt n k r = 0 := by
    rw [wheelAt_inner hn, hfull, Nat.sub_self]
  have hrest : wheelsAt n k (r + 1) (c + 1) ≠ [] := by
    rw [wheelsAt_succ]
    exact List.cons_ne_nil _ _
  rw [turnsDown_succ, turnBy_turnBy, hfull, turnBy_self hlen, wheelsAt_succ, hw,
    carry_zero _ _ hrest, turn_eq_turnBy]

/-- Passing from wheel `r` on, with the first `r + 1` entries turned once more than the digits of
`k` have it, makes all the turns that the digits of `k + 1` ask for. -/
theorem carry_turnsDown {p : List ℕ} (hn : n = r + c + 1) (hp : p.length = n) (h : r ! ∣ k + 1) :
    carry r (turnBy (r + 1) 1 (turnsDown k (r + 1) (c + 1) p)) (wheelsAt n k r (c + 1)) =
      (!decide (n ! ≤ k + 1 ∧ (n - 1)! ∣ k + 1), turnsDown (k + 1) (r + 1) (c + 1) p,
        wheelsAt n (k + 1) r (c + 1)) := by
  -- on the wheels above: a wheel at 0 has turned its entries full circle and hands on
  induction c generalizing r with
  | zero =>
    subst hn
    simp only [Nat.add_zero, Nat.add_sub_cancel, h, and_true]
    exact carry_last hp h
  | succ c ih =>
    have hne : r + 1 ≠ n := by omega
    by_cases hd : (r + 1)! ∣ k + 1
    · have hzero := digit_succ_of_eq h ((factorial_succ_dvd_iff h).1 hd)
      have hw : wheelAt n (k + 1) r = r := by
        rw [wheelAt_inner hne, hzero, Nat.sub_zero]
      rw [carry_passed (by omega) hne h hd, ih (by omega) hd, turnsDown_succ (k + 1) (r + 1), hzero,
        turnBy_zero, wheelsAt_succ n (k + 1) r, hw]
    · have hlast : ¬ (n - 1)! ∣ k + 1 := not_factorial_dvd_of_le (by omega) hd
      rw [carry_lowered p hne h hd]
      simp [hlast]

theorem advance_even {p : List ℕ} (hp : 2 ≤ p.length) (wheels : List ℕ) :
    (Odometer.mk p wheels true).advance = (true, ⟨turnBy 2 1 p, wheels, false⟩) := by
  match p, hp with
  | a :: b :: rest, _ => simp [advance, turnBy]

/-- On odd turns the second exchange makes one turn of three entries out of the turn of two. -/
theorem advance_odd {p : List ℕ} (hp : 3 ≤ p.length) (wheels : List ℕ) :
    (Odometer.mk (turnBy 2 1 p) wheels false).advance =
      ((carry 2 (turnBy 3 1 p) wheels).1,
        ⟨(carry 2 (turnBy 3 1 p) wheels).2.1, (carry 2 (turnBy 3 1 p) wheels).2.2, true⟩) := by
  match p, hp with
  | a :: b :: c :: rest, _ => simp [advance, turnBy]

theorem arrangement_eq_turnBy (c k : ℕ) :
    arrangement (c + 3) k = turnBy 2 (k % 2) (turnsDown k 3 (c + 1) (List.range (c + 3))) := by
  have h : c + 3 - 1 = c + 1 + 1 := rfl
  rw [arrangement, arrange, h, turnsDown_succ]
  simp [digit]

theorem advance_stateAt (hn : 3 ≤ n) (k : ℕ) :
    (stateAt n k).advance =
      (!decide (n ! ≤ k + 1 ∧ (n - 1)! ∣ k + 1), stateAt n (k + 1)) := by
  obtain ⟨c, rfl⟩ := Nat.exists_eq_add_of_le' hn
  have hc : c + 3 - 2 = c + 1 := rfl
  have hl : (turnsDown k 3 (c + 1) (List.range (c + 3))).length = c + 3 := by
    rw [length_turnsDown, List.length_range]
  rw [stateAt, stateAt, arrangement_eq_turnBy, arrangement_eq_turnBy, hc]
  rcases Nat.mod_two_eq_zero_or_one k with he | ho
  · have hs : (k + 1) % 2 = 1 := by omega
    have hd : ¬ 2 ! ∣ k + 1 := by
      rw [Nat.factorial_two]
      omega
    have hlast : ¬ (c + 2)! ∣ k + 1 := not_factorial_dvd_of_le (by omega) hd
    have hadvance := advance_even (hl.ge.trans' (by omega)) (wheelsAt (c + 3) k 2 (c + 1))
    rw [he, hs, turnBy_zero, turnsDown_succ_ordinal _ _ hd, wheelsAt_succ_of_not_dvd _ _ hd]
    simpa [hlast] using hadvance
  · have hs : (k + 1) % 2 = 0 := by omega
    have hd : 2 ! ∣ k + 1 := by
      rw [Nat.factorial_two]
      omega
    have hadvance := advance_odd (hl.ge.trans' (by omega)) (wheelsAt (c + 3) k 2 (c + 1))
    rw [carry_turnsDown (by omega) List.length_range hd] at hadvance
    rw [ho, hs, turnBy_zero]
    exact hadvance

theorem start_eq_stateAt (n : ℕ) : start n = stateAt n 0 := by
  have hw : (List.range n).drop 2 = wheelsAt n 0 2 (n - 2) := by
    apply List.ext_getElem (by simp [wheelsAt])
    intro i hi hi'
    simp [wheelsAt, wheelAt_zero]
  rw [start, stateAt, arrangement_zero, hw]
  simp

theorem after_start (hn : 3 ≤ n) (k : ℕ) : (start n).after k = stateAt n k := by
  induction k with
  | zero => exact start_eq_stateAt n
  | succ k ih => rw [after_succ, ih, next, advance_stateAt hn]

theorem advance_after_start (hn : 3 ≤ n) (k : ℕ) :
    ((start n).after k).advance.1 = !decide (n ! ≤ k + 1 ∧ (n - 1)! ∣ k + 1) := by
  rw [after_start hn, advance_stateAt hn]

theorem advance_stateAt_of_le_two (hn : n ≤ 2) (hk : k < n !) :
    (stateAt n k).advance = (decide (k + 1 < n !), stateAt n (min (k + 1) ((n !) - 1))) := by
  interval_cases n
  · obtain rfl : k = 0 := by simpa using hk
    decide
  · obtain rfl : k = 0 := by simpa using hk
    decide
  · rw [Nat.factorial_two] at hk
    interval_cases k <;> decide

theorem after_start_of_le_two (hn : n ≤ 2) (k : ℕ) :
    (start n).after k = stateAt n (min k ((n !) - 1)) := by
  have hpos := n.factorial_pos
  induction k with
  | zero => exact start_eq_stateAt n
  | succ k ih =>
    have hmin : min (min k ((n !) - 1) + 1) ((n !) - 1) = min (k + 1) ((n !) - 1) := by omega
    rw [after_succ, ih, next, advance_stateAt_of_le_two hn (by omega), hmin]

theorem advance_after_start_of_le_two (hn : n ≤ 2) (k : ℕ) :
    ((start n).after k).advance = (decide (k + 1 < n !), (start n).after (k + 1)) := by
  have hpos := n.factorial_pos
  have hlt : min k ((n !) - 1) + 1 < n ! ↔ k + 1 < n ! := by omega
  have hfst : ((start n).after k).advance.1 = decide (k + 1 < n !) := by
    rw [after_start_of_le_two hn, advance_stateAt_of_le_two hn (by omega), decide_eq_decide.2 hlt]
  rw [← hfst, after_succ]
  rfl

theorem after_start_of_lt (hk : k < n !) : (start n).after k = stateAt n k := by
  rcases Nat.lt_or_ge n 3 with hn | hn
  · rw [after_start_of_le_two (by omega), Nat.min_eq_left (by omega)]
  · exact after_start hn k

theorem advance_of_lt (hk : k + 1 < n !) : ((start n).after k).advance.1 = true := by
  rcases Nat.lt_or_ge n 3 with hn | hn
  · rw [advance_after_start_of_le_two (by omega)]
    exact decide_eq_true hk
  · have hlt : ¬ n ! ≤ k + 1 := by omega
    simp [advance_after_start hn, hlt]

theorem advance_at_end (n : ℕ) : ((start n).after ((n !) - 1)).advance.1 = false := by
  have hpos := n.factorial_pos
  have hk : (n !) - 1 + 1 = n ! := by omega
  rcases Nat.lt_or_ge n 3 with hn | hn
  · simp [advance_after_start_of_le_two (by omega : n ≤ 2), hk]
  · have hd : (n - 1)! ∣ n ! := Nat.factorial_dvd_factorial (by omega)
    simp [advance_after_start hn, hk, hd]

/-- The state after any number of steps, those past the last arrangement included, is found from
the digits of that number. From three entries on the arrangements come round every `n !` steps,
and the first step that fails is the one that leads back to the start. Up to two entries that
step and all later ones change nothing. -/
theorem after_start_eq_arrangement (n k : ℕ) :
    (3 ≤ n →
      ((start n).after k).order = arrangement n k ∧
      ((start n).after k).even = decide (k % 2 = 0) ∧
      (∀ j, ((start n).after j).order = ((start n).after k).order ↔ j % n ! = k % n !) ∧
      (k + 1 < n ! → ((start n).after k).advance.1 = true) ∧
      ((start n).after ((n !) - 1)).advance.1 = false ∧
      ((start n).after n !).order = List.range n ∧ ((start n).after n !).even = true) ∧
    (n ≤ 2 →
      (k < n ! → ((start n).after k).order = arrangement n k ∧
        ((start n).after k).even = decide (k % 2 = 0)) ∧
      (n ! ≤ k + 1 → (start n).after (k + 1) = (start n).after k)) := by
  constructor
  · intro hn
    have heven : n ! % 2 = 0 := Nat.mod_eq_zero_of_dvd (Nat.dvd_factorial (by omega) (by omega))
    refine ⟨?_, ?_, ?_, advance_of_lt, advance_at_end n, ?_, ?_⟩
    · rw [after_start hn]
      rfl
    · rw [after_start hn]
      rfl
    · intro j
      rw [after_start hn, after_start hn]
      exact arrangement_eq_iff
    · rw [after_start hn, stateAt, ← arrangement_mod, Nat.mod_self, arrangement_zero]
    · rw [after_start hn, stateAt, heven]
      rfl
  · intro hn
    constructor
    · intro hk
      rw [after_start_of_lt hk]
      exact ⟨rfl, rfl⟩
    · intro hk
      have hmin : min (k + 1) ((n !) - 1) = min k ((n !) - 1) := by omega
      rw [after_start_of_le_two hn, after_start_of_le_two hn, hmin]

theorem after_start_eq_arrangement_four : 3 ≤ 4 ∧
    ((start 4).after 30).order = [1, 2, 3, 0] ∧ ((start 4).after 30).even = true := by
  have hn : 3 ≤ 4 := by decide
  obtain ⟨horder, heven, -⟩ := (after_start_eq_arrangement 4 30).1 hn
  exact ⟨hn, horder.trans (by decide), heven⟩

end MicroBench.Proofs.OdometerRun
