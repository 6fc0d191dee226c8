import Mathlib.Data.List.Permutation
import Mathlib.Data.List.Rotate
import Mathlib.Data.Nat.Factorial.Basic
import MicroBench.Odometer

namespace MicroBench.Proofs.Arrangement

open scoped Nat

variable {α β : Type}

/-- Rotates the first `m` entries to the left by `d` places. -/
def turnBy (m d : ℕ) (p : List α) : List α := (p.take m).rotate d ++ p.drop m

/-- The digit of `k` in the factorial number system that tells how far the first `j` entries
are turned. -/
def digit (k j : ℕ) : ℕ := k / (j - 1)! % j

/-- The turns of the `c` prefixes that end with the one of `j` entries, the longest first. -/
def turnsDown (k j c : ℕ) (p : List α) : List α :=
  (List.range' j c).reverse.foldl (fun q i ↦ turnBy i (digit k i) q) p

/-- Turns the first `m`, then `m - 1`, and so on down to 2 entries by the digits of `k`. -/
def arrange (k m : ℕ) (p : List α) : List α := turnsDown k 2 (m - 1) p

/-- The arrangement of `0, …, n - 1` with ordinal `k`, found without those before it. -/
def arrangement (n k : ℕ) : List ℕ := arrange k n (List.range n)

theorem turnBy_zero (m : ℕ) (p : List α) : turnBy m 0 p = p := by
  simp [turnBy]

theorem turnBy_turnBy (m a b : ℕ) (p : List α) :
    turnBy m b (turnBy m a p) = turnBy m (a + b) p := by
  by_cases h : m ≤ p.length
  · have hl : ((p.take m).rotate a).length = m := by simp [h]
    rw [turnBy, turnBy, List.take_left' hl, List.drop_left' hl, List.rotate_rotate, turnBy]
  · have hl : p.length ≤ m := by omega
    simp [turnBy, List.take_of_length_le, List.drop_of_length_le, hl, List.rotate_rotate]

theorem turnBy_perm (m d : ℕ) (p : List α) : (turnBy m d p).Perm p := by
  have h := ((p.take m).rotate_perm d).append_right (p.drop m)
  rwa [List.take_append_drop] at h

theorem turnBy_mod {m : ℕ} (d : ℕ) {p : List α} (hm : m ≤ p.length) :
    turnBy m (d % m) p = turnBy m d p := by
  have h := (p.take m).rotate_mod d
  rw [List.length_take_of_le hm] at h
  rw [turnBy, h, turnBy]

theorem turnBy_self {m : ℕ} {p : List α} (hm : m ≤ p.length) : turnBy m m p = p := by
  rw [← turnBy_mod m hm, Nat.mod_self, turnBy_zero]

theorem turnBy_append {m : ℕ} (d : ℕ) {p : List α} (hm : m ≤ p.length) (q : List α) :
    turnBy m d (p ++ q) = turnBy m d p ++ q := by
  rw [turnBy, List.take_append_of_le_length hm, List.drop_append_of_le_length hm, turnBy,
    List.append_assoc]

theorem turnBy_map (g : α → β) (m d : ℕ) (p : List α) :
    turnBy m d (p.map g) = (turnBy m d p).map g := by
  rw [turnBy, turnBy, List.map_append, List.map_rotate, List.map_take, List.map_drop]

theorem turn_eq_turnBy (m : ℕ) (p : List α) : Odometer.turn (m + 1) p = turnBy (m + 1) 1 p := by
  cases p with
  | nil => simp [Odometer.turn, turnBy]
  | cons x xs => simp [Odometer.turn, turnBy]

theorem digit_zero (j : ℕ) : digit 0 j = 0 := by
  simp [digit]

theorem digit_lt (k : ℕ) {j : ℕ} (hj : 0 < j) : digit k j < j := Nat.mod_lt _ hj

theorem not_factorial_dvd_of_le {i j k : ℕ} (hij : i ≤ j) (h : ¬ i ! ∣ k) : ¬ j ! ∣ k := by
  intro hj
  exact h (Nat.dvd_trans (Nat.factorial_dvd_factorial hij) hj)

theorem digit_succ_of_not_dvd {k j : ℕ} (h : ¬ (j - 1)! ∣ k + 1) :
    digit (k + 1) j = digit k j := by
  rw [digit, Nat.succ_div_of_not_dvd h, digit]

theorem digit_succ_of_dvd {k j : ℕ} (h : (j - 1)! ∣ k + 1) :
    digit (k + 1) j = (digit k j + 1) % j := by
  rw [digit, Nat.succ_div_of_dvd h, digit, Nat.mod_add_mod]

theorem digit_mod_factorial (k : ℕ) {j m : ℕ} (hj : 0 < j) (hm : j ≤ m) :
    digit (k % m !) j = digit k j := by
  obtain ⟨c, hc⟩ := Nat.factorial_dvd_factorial hm
  have hf : m ! = (j - 1)! * (j * c) := by
    rw [hc, ← Nat.mul_factorial_pred hj.ne', Nat.mul_comm j, Nat.mul_assoc]
  rw [digit, hf, Nat.mod_mul_right_div_self, Nat.mod_mul_right_mod, digit]

theorem turnsDown_zero (k j : ℕ) (p : List α) : turnsDown k j 0 p = p := rfl

theorem turnsDown_succ (k j c : ℕ) (p : List α) :
    turnsDown k j (c + 1) p = turnBy j (digit k j) (turnsDown k (j + 1) c p) := by
  simp [turnsDown, List.range'_succ]

theorem turnsDown_concat (k j c : ℕ) (p : List α) :
    turnsDown k j (c + 1) p = turnsDown k j c (turnBy (j + c) (digit k (j + c)) p) := by
  simp [turnsDown, List.range'_1_concat]

theorem turnsDown_map (g : α → β) (k j c : ℕ) (p : List α) :
    turnsDown k j c (p.map g) = (turnsDown k j c p).map g := by
  induction c generalizing j with
  | zero => rfl
  | succ c ih => rw [turnsDown_succ, ih, turnBy_map, turnsDown_succ]

theorem turnsDown_add (k j a b : ℕ) (p : List α) :
    turnsDown k j (a + b) p = turnsDown k j a (turnsDown k (j + a) b p) := by
  induction a generalizing j with
  | zero => rw [Nat.zero_add, Nat.add_zero, turnsDown_zero]
  | succ a ih =>
    rw [Nat.add_right_comm, turnsDown_succ, ih, turnsDown_succ, Nat.add_right_comm j 1 a,
      Nat.add_assoc j a 1]

theorem turnsDown_perm (k j c : ℕ) (p : List α) : (turnsDown k j c p).Perm p := by
  induction c generalizing j with
  | zero => rfl
  | succ c ih =>
    rw [turnsDown_succ]
    exact (turnBy_perm _ _ _).trans (ih (j + 1))

theorem length_turnsDown (k j c : ℕ) (p : List α) : (turnsDown k j c p).length = p.length :=
  (turnsDown_perm k j c p).length_eq

theorem turnsDown_congr {k l j c : ℕ} (p : List α)
    (h : ∀ i, j ≤ i → i < j + c → digit k i = digit l i) :
    turnsDown k j c p = turnsDown l j c p := by
  induction c generalizing j with
  | zero => rfl
  | succ c ih =>
    have hd : digit k j = digit l j := h j (by omega) (by omega)
    have hr : turnsDown k (j + 1) c p = turnsDown l (j + 1) c p := by
      apply ih
      intro i hi hc
      exact h i (by omega) (by omega)
    rw [turnsDown_succ, turnsDown_succ, hd, hr]

theorem turnsDown_ordinal_zero (j c : ℕ) (p : List α) : turnsDown 0 j c p = p := by
  induction c generalizing j with
  | zero => rfl
  | succ c ih => rw [turnsDown_succ, ih, digit_zero, turnBy_zero]

theorem turnsDown_append {k j c : ℕ} {p : List α} (hc : j + c ≤ p.length + 1) (q : List α) :
    turnsDown k j c (p ++ q) = turnsDown k j c p ++ q := by
  induction c generalizing j with
  | zero => rfl
  | succ c ih =>
    have hl : j ≤ (turnsDown k (j + 1) c p).length := by
      rw [length_turnsDown]
      omega
    rw [turnsDown_succ, ih (by omega), turnBy_append _ hl, turnsDown_succ]

theorem turnsDown_succ_ordinal {k j : ℕ} (c : ℕ) (p : List α) (h : ¬ (j - 1)! ∣ k + 1) :
    turnsDown (k + 1) j c p = turnsDown k j c p := by
  apply turnsDown_congr
  intro i hi _
  exact digit_succ_of_not_dvd (not_factorial_dvd_of_le (Nat.sub_le_sub_right hi 1) h)

theorem arrange_succ (k m : ℕ) (p : List α) :
    arrange k (m + 1) p = arrange k m (turnBy (m + 1) (digit k (m + 1)) p) := by
  cases m with
  | zero =>
    have hd : digit k 1 = 0 := Nat.mod_one _
    simp [arrange, turnsDown_zero, hd, turnBy_zero]
  | succ m =>
    have h := turnsDown_concat k 2 m p
    rw [Nat.add_comm 2 m] at h
    exact h

theorem arrange_perm (k m : ℕ) (p : List α) : (arrange k m p).Perm p :=
  turnsDown_perm k 2 (m - 1) p

theorem arrange_append {k m : ℕ} {p : List α} (hm : m ≤ p.length) (q : List α) :
    arrange k m (p ++ q) = arrange k m p ++ q := by
  cases m with
  | zero => rfl
  | succ m => exact turnsDown_append (by omega) q

theorem arrange_mod_factorial (k m : ℕ) (p : List α) : arrange (k % m !) m p = arrange k m p := by
  apply turnsDown_congr
  intro j hj hm
  exact digit_mod_factorial k (by omega) (by omega)

theorem exists_turnBy_concat {m : ℕ} {p q : List α} {x : α} (hp : p.length = m)
    (h : (q ++ [x]).Perm p) : ∃ d < m, ∃ r, turnBy m d p = r ++ [x] ∧ q.Perm r := by
  obtain ⟨a, b, rfl⟩ := List.append_of_mem (h.subset (by simp : x ∈ q ++ [x]))
  have hpos : 0 < m := by
    rw [← hp, List.length_append, List.length_cons]
    omega
  have ht : turnBy m ((a.length + 1) % m) (a ++ x :: b) = b ++ a ++ [x] := by
    have hr := List.rotate_append_length_eq (a ++ [x]) b
    rw [turnBy_mod _ hp.ge, turnBy, ← hp, List.take_length, List.drop_length, List.append_nil]
    simpa using hr
  refine ⟨(a.length + 1) % m, Nat.mod_lt _ hpos, b ++ a, ht, ?_⟩
  have hx : (a ++ x :: b).Perm (b ++ a ++ [x]) := ht ▸ (turnBy_perm _ _ _).symm
  exact (List.perm_append_right_iff [x]).1 (h.trans hx)

theorem digit_add_mul {k m d : ℕ} (hk : k < m !) (hd : d < m + 1) :
    digit (k + m ! * d) (m + 1) = d := by
  rw [digit, Nat.add_sub_cancel, Nat.add_mul_div_left _ _ m.factorial_pos, Nat.div_eq_of_lt hk,
    Nat.zero_add, Nat.mod_eq_of_lt hd]

theorem add_mul_lt_factorial {k m d : ℕ} (hk : k < m !) (hd : d < m + 1) :
    k + m ! * d < (m + 1)! := by
  have hle := Nat.mul_le_mul_left (m !) (Nat.lt_succ_iff.1 hd)
  rw [Nat.factorial_succ, Nat.succ_mul, Nat.mul_comm m]
  omega

/-- Every order of the entries is reached by some ordinal below the factorial of their number. -/
theorem exists_arrange {m : ℕ} {p q : List α} (hp : p.length = m) (h : q.Perm p) :
    ∃ k < m !, arrange k m p = q := by
  -- the last digit brings the wanted entry to the end, the others order those in front of it
  induction m generalizing p q with
  | zero =>
    obtain rfl := List.length_eq_zero_iff.1 hp
    exact ⟨0, by simp, h.eq_nil.symm⟩
  | succ m ih =>
    rcases q.eq_nil_or_concat with rfl | ⟨q, x, rfl⟩
    · simp [← h.length_eq] at hp
    rw [List.concat_eq_append] at h ⊢
    obtain ⟨d, hd, r, ht, hr⟩ := exists_turnBy_concat hp h
    have hm : r.length = m := by
      have hl := (turnBy_perm (m + 1) d p).length_eq
      rw [ht, hp, List.length_append, List.length_singleton] at hl
      omega
    obtain ⟨k, hk, rfl⟩ := ih hm hr
    refine ⟨k + m ! * d, add_mul_lt_factorial hk hd, ?_⟩
    rw [arrange_succ, digit_add_mul hk hd, ht, arrange_append hm.ge, ← arrange_mod_factorial,
      Nat.add_mul_mod_self_left, Nat.mod_eq_of_lt hk]

theorem arrangement_perm (n k : ℕ) : (arrangement n k).Perm (List.range n) :=
  arrange_perm k n (List.range n)

theorem length_arrangement (n k : ℕ) : (arrangement n k).length = n := by
  rw [(arrangement_perm n k).length_eq, List.length_range]

theorem arrangement_zero (n : ℕ) : arrangement n 0 = List.range n :=
  turnsDown_ordinal_zero 2 (n - 1) (List.range n)

theorem arrangement_mod (n k : ℕ) : arrangement n (k % n !) = arrangement n k :=
  arrange_mod_factorial k n (List.range n)

/-- The ordinals below `n !` meet every order, hence each of them once. -/
theorem arrangements_perm (n : ℕ) :
    ((List.range n !).map (arrangement n)).Perm (List.range n).permutations := by
  have hsub : (List.range n).permutations ⊆ (List.range n !).map (arrangement n) := by
    intro q hq
    obtain ⟨k, hk, rfl⟩ := exists_arrange List.length_range (List.mem_permutations.1 hq)
    exact List.mem_map_of_mem (List.mem_range.2 hk)
  have hnodup := List.nodup_permutations _ (List.nodup_range (n := n))
  refine ((List.subperm_of_subset hnodup hsub).perm_of_length_le ?_).symm
  simp [List.length_permutations]

theorem nodup_arrangements (n : ℕ) : ((List.range n !).map (arrangement n)).Nodup :=
  (arrangements_perm n).nodup_iff.2 (List.nodup_permutations _ List.nodup_range)

theorem arrangement_eq_iff {n j k : ℕ} :
    arrangement n j = arrangement n k ↔ j % n ! = k % n ! := by
  constructor
  · intro h
    have hlt (i : ℕ) : i % n ! ∈ List.range n ! := List.mem_range.2 (Nat.mod_lt _ n.factorial_pos)
    apply List.inj_on_of_nodup_map (nodup_arrangements n) (hlt j) (hlt k)
    rw [arrangement_mod, arrangement_mod, h]
  · intro h
    rw [← arrangement_mod, h, arrangement_mod]

end MicroBench.Proofs.Arrangement
