import Mathlib.Data.Nat.ModEq
import MicroBench.Proofs.OdometerRun

namespace MicroBench.Proofs.OdometerBlocks

open Odometer Arrangement OdometerRun
open scoped Nat

variable {α : Type} {m n i j q x : ℕ}

/-- The arrangement that `k` steps from the start lead to, whatever these answer. -/
def orderAfter (n k : ℕ) : List ℕ := ((start n).after k).order

/-- The turns of more than `m` entries come first. -/
theorem arrange_of_le (hm : 1 ≤ m) (hmn : m ≤ n) (k : ℕ) (p : List α) :
    arrange k n p = arrange k m (turnsDown k (m + 1) (n - m) p) := by
  have hsplit : n - 1 = (m - 1) + (n - m) := by omega
  have hnext : 2 + (m - 1) = m + 1 := by omega
  rw [arrange, hsplit, turnsDown_add, hnext, arrange]

/-- Within a block the digits of the longer turns stay as they are. -/
theorem digit_block (hi : i < m !) (hj : m < j) :
    digit (q * m ! + i) j = digit (q * m !) j := by
  obtain ⟨c, hc⟩ := Nat.factorial_dvd_factorial (Nat.le_sub_one_of_lt hj)
  have hdiv : (q * m ! + i) / m ! = q * m ! / m ! := by
    rw [Nat.mul_comm, Nat.mul_add_div m.factorial_pos, Nat.div_eq_of_lt hi, Nat.add_zero,
      Nat.mul_div_cancel_left _ m.factorial_pos]
  rw [digit, digit, hc, ← Nat.div_div_eq_div_mul, hdiv, Nat.div_div_eq_div_mul]

theorem arrange_block (hm : 1 ≤ m) (hmn : m ≤ n) (hi : i < m !) (p : List α) :
    arrange (q * m ! + i) n p = arrange i m (arrange (q * m !) n p) := by
  have hlonger : turnsDown (q * m ! + i) (m + 1) (n - m) p =
      turnsDown (q * m !) (m + 1) (n - m) p := by
    apply turnsDown_congr
    intro j hj _
    exact digit_block hi hj
  -- the longer turns are over at the start of the block, the shorter ones have not begun
  have hshorter (r : List α) : arrange (q * m ! + i) m r = arrange i m r := by
    rw [← arrange_mod_factorial, Nat.mul_add_mod', arrange_mod_factorial]
  have hnone (r : List α) : arrange (q * m !) m r = r := by
    rw [← arrange_mod_factorial, Nat.mul_mod_left]
    exact turnsDown_ordinal_zero 2 (m - 1) r
  rw [arrange_of_le hm hmn, hlonger, hshorter, arrange_of_le hm hmn (q * m !), hnone]

theorem orderAfter_eq_arrangement (hn : 3 ≤ n) (k : ℕ) : orderAfter n k = arrangement n k := by
  rw [orderAfter, after_start hn]
  rfl

theorem orderAfter_of_lt (hi : i < m !) : orderAfter m i = arrangement m i := by
  rw [orderAfter, after_start_of_lt hi]
  rfl

theorem length_orderAfter (hn : 3 ≤ n) (k : ℕ) : (orderAfter n k).length = n := by
  rw [orderAfter_eq_arrangement hn, length_arrangement]

theorem orderAfter_block (hn : 3 ≤ n) (hm : 1 ≤ m) (hmn : m ≤ n) (hi : i < m !) :
    orderAfter n (q * m ! + i) =
      arrange i m ((orderAfter n (q * m !)).take m) ++ (orderAfter n (q * m !)).drop m := by
  have hlen : ((orderAfter n (q * m !)).take m).length = m := by
    rw [List.length_take, length_orderAfter hn, Nat.min_eq_left hmn]
  rw [← arrange_append hlen.ge, List.take_append_drop, orderAfter_eq_arrangement hn,
    orderAfter_eq_arrangement hn, arrangement, arrange_block hm hmn hi]
  rfl

/-- To arrange a list is to look its entries up in the order of an arrangement of their places. -/
theorem getElem?_arrange {p : List ℕ} (hp : p.length = m) (i : ℕ) (hx : x < m) :
    ∃ y < m, (arrangement m i)[x]? = some y ∧ (arrange i m p)[x]? = p[y]? := by
  have hplaces : (List.range m).map (fun y ↦ p.getD y 0) = p := by
    apply List.ext_getElem
    · rw [List.length_map, List.length_range, hp]
    · intro y hy hy'
      simp [hy']
  have hlookup : arrange i m p = (arrangement m i).map fun y ↦ p.getD y 0 := by
    rw [arrangement, arrange, arrange, ← turnsDown_map, hplaces]
  have hlt : x < (arrangement m i).length := by rwa [length_arrangement]
  have hplace := List.getElem?_eq_getElem hlt
  have hy : (arrangement m i)[x] < m :=
    List.mem_range.1 ((arrangement_perm m i).subset (List.getElem_mem hlt))
  refine ⟨_, hy, hplace, ?_⟩
  rw [hlookup, List.getElem?_map, hplace, Option.map_some, List.getD_eq_getElem?_getD,
    List.getElem?_eq_getElem (hp.symm ▸ hy), Option.getD_some]

theorem orderAfter_block_inj (hn : 3 ≤ n) (hmn : m ≤ n) (hi : i < m !) (hj : j < m !)
    (h : orderAfter n (q * m ! + i) = orderAfter n (q * m ! + j)) : i = j := by
  rw [orderAfter_eq_arrangement hn, orderAfter_eq_arrangement hn, arrangement_eq_iff] at h
  have hle := Nat.factorial_le hmn
  exact (Nat.ModEq.add_left_cancel' _ h).eq_of_lt_of_lt (hi.trans_le hle) (hj.trans_le hle)

/-- Any `m !` steps from a multiple of `m !` on repeat the odometer of size `m`, its places read
as those of the first `m` entries found there, whatever these are, and leave the entries behind
them alone. So they go through all orders of these entries, through none twice. -/
theorem blocks_follow_smaller_odometer (hn : 3 ≤ n) (hm : 1 ≤ m) (hmn : m ≤ n) (q : ℕ) :
    (orderAfter n (q * m !)).length = n ∧
    (∀ i < m !,
      (∀ x < m, ∃ y < m, (orderAfter m i)[x]? = some y ∧
        (orderAfter n (q * m ! + i))[x]? = (orderAfter n (q * m !))[y]?) ∧
      ∀ x, m ≤ x → (orderAfter n (q * m ! + i))[x]? = (orderAfter n (q * m !))[x]?) ∧
    ((List.range m !).map fun i ↦ orderAfter n (q * m ! + i)).Nodup ∧
    ∀ r, r ∈ (List.range m !).map (fun i ↦ orderAfter n (q * m ! + i)) ↔
      (r.take m).Perm ((orderAfter n (q * m !)).take m) ∧
        r.drop m = (orderAfter n (q * m !)).drop m := by
  have hlen : ((orderAfter n (q * m !)).take m).length = m := by
    rw [List.length_take, length_orderAfter hn, Nat.min_eq_left hmn]
  have hlen' (i : ℕ) : (arrange i m ((orderAfter n (q * m !)).take m)).length = m := by
    rw [(arrange_perm i m _).length_eq, hlen]
  refine ⟨length_orderAfter hn _, fun i hi ↦ ⟨fun x hx ↦ ?_, fun x hx ↦ ?_⟩, ?_, fun r ↦ ?_⟩
  · obtain ⟨y, hy, hplace, hentry⟩ := getElem?_arrange hlen i hx
    refine ⟨y, hy, by rwa [orderAfter_of_lt hi], ?_⟩
    rw [orderAfter_block hn hm hmn hi, List.getElem?_append_left (by rwa [hlen']), hentry,
      List.getElem?_take_of_lt hy]
  · rw [orderAfter_block hn hm hmn hi, List.getElem?_append_right (by rwa [hlen']), hlen',
      List.getElem?_drop, Nat.add_sub_cancel' hx]
  · refine List.Nodup.map_on (fun i hi j hj ↦ ?_) List.nodup_range
    exact orderAfter_block_inj hn hmn (List.mem_range.1 hi) (List.mem_range.1 hj)
  · rw [List.mem_map]
    constructor
    · rintro ⟨i, hi, rfl⟩
      rw [orderAfter_block hn hm hmn (List.mem_range.1 hi), List.take_left' (hlen' i),
        List.drop_left' (hlen' i)]
      exact ⟨arrange_perm i m _, rfl⟩
    · rintro ⟨hperm, hdrop⟩
      obtain ⟨i, hi, harrange⟩ := exists_arrange hlen hperm
      refine ⟨i, List.mem_range.2 hi, ?_⟩
      rw [orderAfter_block hn hm hmn hi, harrange, ← hdrop, List.take_append_drop]

theorem blocks_follow_smaller_odometer_four : 3 ≤ 4 ∧ 1 ≤ 3 ∧ 4 < 3 ! ∧
    orderAfter 4 (5 * 3 !) = [1, 2, 3, 0] ∧ orderAfter 3 4 = [2, 0, 1] ∧
    (orderAfter 4 (5 * 3 ! + 4))[0]? = some 3 ∧ (orderAfter 4 (5 * 3 ! + 4))[3]? = some 0 ∧
    [3, 2, 1, 0] ∈ (List.range 3 !).map fun i ↦ orderAfter 4 (5 * 3 ! + i) := by
  have hn : 3 ≤ 4 := by decide
  have hm : 1 ≤ 3 := by decide
  have hi : 4 < 3 ! := by decide
  have hlarge : orderAfter 4 (5 * 3 !) = [1, 2, 3, 0] := by decide
  have hsmall : orderAfter 3 4 = [2, 0, 1] := by decide
  obtain ⟨-, hblock, -, hall⟩ := blocks_follow_smaller_odometer hn hm hn 5
  obtain ⟨hfront, hback⟩ := hblock 4 hi
  obtain ⟨y, -, hplace, hentry⟩ := hfront 0 hm
  obtain rfl : y = 2 := by
    rw [hsmall] at hplace
    exact (Option.some.inj hplace).symm
  rw [hlarge] at hentry hback hall
  exact ⟨hn, hm, hi, hlarge, hsmall, hentry, hback 3 le_rfl, (hall _).2 (by decide)⟩

end MicroBench.Proofs.OdometerBlocks
