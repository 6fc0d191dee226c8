import MicroBench.Proofs.FlipRounds

namespace MicroBench.Proofs.FlipHalting

open Flip FlipCount FlipRun FlipRounds

variable {registers : Registers} {fault : Fault} {c f i k : ℕ} {p : List ℕ} {s : ℕ × List ℕ}

/-- However many flips are asked for, so many are made. -/
def Forever (registers : Registers) (p : List ℕ) : Prop :=
  ∀ i, ∃ s, afterFlips registers id i (0, p) = some s

/-- Some number of flips leads to a state that is stuck. -/
def Sticks (registers : Registers) (p : List ℕ) : Prop :=
  ∃ i c q k, afterFlips registers id i (0, p) = some (c, q) ∧ Stuck k q

theorem not_forever (hs : afterFlips registers id i (0, p) = some s)
    (hhalted : Halted registers id s) : ¬ Forever registers p := by
  intro h
  obtain ⟨t, ht⟩ := h (i + 1)
  rw [afterFlips_eq_none hs hhalted i.lt_succ_self] at ht
  cases ht

theorem exists_afterFlips_iff : (∃ s, afterFlips registers id i (0, p) = some s) ↔
    (registers = .checked → i < 1 <<< 32) ∧
      ∃ q, afterFlips .unlimited id i (0, p) = some (i, q) := by
  rw [← Registers.exists_put_iff]
  constructor
  · rintro ⟨⟨c, q⟩, hs⟩
    obtain ⟨hput, hexact⟩ := afterFlips_eq_some_iff.1 hs
    exact ⟨⟨c, hput⟩, q, hexact⟩
  · rintro ⟨⟨c, hput⟩, q, hexact⟩
    exact ⟨(c, q), afterFlips_eq_some_iff.2 ⟨hput, hexact⟩⟩

theorem Sticks.exact (h : Sticks registers p) (i : ℕ) :
    ∃ q, afterFlips .unlimited id i (0, p) = some (i, q) := by
  obtain ⟨j, c, q, k, hj, hk⟩ := h
  obtain ⟨-, hexact⟩ := afterFlips_eq_some_iff.1 hj
  obtain ⟨s, hs⟩ := hk.forever j i
  rw [← afterFlips_add hexact] at hs
  exact (exists_afterFlips_iff.1 (exists_afterFlips_of_le hs (Nat.le_add_left i j))).2

theorem exists_last_of_not_sticks (h : ¬ Sticks registers p) :
    ∃ f c q, f ≤ 2 ^ (p.length - 1) - 1 ∧ afterFlips registers id f (0, p) = some (c, q) ∧
      Halted registers id (c, q) := by
  obtain ⟨f, s, hs, hle, ⟨hend, -⟩ | ⟨fault, hend, -⟩ | ⟨k, hk, -⟩⟩ := count_cases registers p
  · exact ⟨f, s.1, s.2, hle, hs, halted_of_settled hend⟩
  · exact ⟨f, s.1, s.2, hle, hs, halted_of_fault hend⟩
  · exact absurd ⟨f, s.1, s.2, k, hs, hk⟩ h

theorem forever_iff : Forever registers p ↔ registers ≠ .checked ∧ Sticks registers p := by
  constructor
  · intro h
    constructor
    · intro hchecked
      exact absurd ((exists_afterFlips_iff.1 (h (1 <<< 32))).1 hchecked) (Nat.lt_irrefl _)
    · by_contra hnot
      obtain ⟨f, c, q, -, hs, hhalted⟩ := exists_last_of_not_sticks hnot
      exact not_forever hs hhalted h
  · rintro ⟨hne, hsticks⟩ i
    exact exists_afterFlips_iff.2 ⟨fun h ↦ absurd h hne, hsticks.exact i⟩

/-- The flip that would bring a checked register to `2 ^ 32` is the last one begun. -/
theorem Sticks.exists_afterFlips_iff_lt (h : Sticks .checked p) (i : ℕ) :
    (∃ s, afterFlips .checked id i (0, p) = some s) ↔ i < 2 ^ 32 := by
  rw [exists_afterFlips_iff]
  exact ⟨fun hi ↦ hi.1 rfl, fun hi ↦ ⟨fun _ ↦ hi, h.exact i⟩⟩

theorem count_of_sticks (h : Sticks registers p) :
    ∃ k, count registers p = .error (endless registers k) := by
  obtain ⟨j, d, r, k, hj, hk⟩ := h
  obtain ⟨i, s, hs, -, ⟨hend, -⟩ | ⟨fault, hend, hcount⟩ | ⟨e, -, hcount⟩⟩ :=
    count_cases registers p
  · exact absurd hend (Stuck.of_halted hk hj hs (halted_of_settled hend)).not_settled
  · rw [(Stuck.of_halted hk hj hs (halted_of_fault hend)).fault_eq hend] at hcount
    exact ⟨k, hcount⟩
  · exact ⟨e, hcount⟩

section Ends

variable {q : List ℕ} (hs : afterFlips registers id f (0, p) = some (c, q))

include hs

theorem count_eq_ok_iff (hhalted : Halted registers id (c, q)) :
    count registers p = .ok c ↔ q = [] ∨ q.head? = some 0 := by
  have hsettled : Round.of registers id (c, q) = .settled ↔ q = [] ∨ q.head? = some 0 := by
    rw [Round.of_eq_settled_iff]
    cases q <;> simp
  rw [← hsettled]
  rcases count_of_halted hs hhalted with ⟨hround, hcount⟩ | ⟨cause, hround, hcount⟩ <;>
    simp [hround, hcount]

theorem count_eq_error_iff (hhalted : Halted registers id (c, q)) :
    count registers p = .error fault ↔ ∃ k, q.head? = some k ∧
      (p.length ≤ k ∧ fault = .outOfRange k p.length ∨
        1 ≤ k ∧ k < p.length ∧ registers.put 32 (f + 1) = .error fault) := by
  have hlen : q.length = p.length := length_afterFlips hs
  have hnext := registers.put_succ 32 f
  rw [(afterFlips_eq_some_iff.1 hs).1] at hnext
  have hfault : Round.of registers id (c, q) = .fault fault ↔ ∃ k, q.head? = some k ∧
      (p.length ≤ k ∧ fault = .outOfRange k p.length ∨
        1 ≤ k ∧ k < p.length ∧ registers.put 32 (f + 1) = .error fault) := by
    simp only [Round.of_eq_fault_iff, hlen, hnext, Nat.one_le_iff_ne_zero, id_eq, Except.bind]
  rw [← hfault]
  rcases count_of_halted hs hhalted with ⟨hround, hcount⟩ | ⟨cause, hround, hcount⟩ <;>
    simp [hround, hcount]

theorem count_eq_outOfRange_iff (hhalted : Halted registers id (c, q)) :
    count registers p = .error (.outOfRange k p.length) ↔ q.head? = some k ∧ p.length ≤ k := by
  rw [count_eq_error_iff hs hhalted]
  constructor
  · rintro ⟨x, hx, ⟨hle, hfault⟩ | ⟨-, -, hover⟩⟩
    · obtain ⟨rfl, -⟩ := Fault.outOfRange.inj hfault
      exact ⟨hx, hle⟩
    · obtain ⟨-, -, hfault⟩ := Registers.put_eq_error_iff.1 hover
      cases hfault
  · rintro ⟨hk, hle⟩
    exact ⟨k, hk, .inl ⟨hle, rfl⟩⟩

theorem count_eq_overflow_iff (hhalted : Halted registers id (c, q)) :
    count registers p = .error .additionOverflow ↔
      registers = .checked ∧ f + 1 = 2 ^ 32 ∧ ∃ k, q.head? = some k ∧ 1 ≤ k ∧ k < p.length := by
  rw [count_eq_error_iff hs hhalted]
  constructor
  · rintro ⟨k, hk, ⟨-, hfault⟩ | ⟨hpos, hlt, hover⟩⟩
    · cases hfault
    · obtain ⟨hchecked, hroom, -⟩ := Registers.put_eq_error_iff.1 hover
      have hfits : f < 1 <<< 32 := (exists_afterFlips_iff.1 ⟨_, hs⟩).1 hchecked
      exact ⟨hchecked, Nat.le_antisymm hfits hroom, k, hk, hpos, hlt⟩
  · rintro ⟨hchecked, hfull, k, hk, hpos, hlt⟩
    have hover : registers.put 32 (f + 1) = .error .additionOverflow :=
      Registers.put_eq_error_iff.2 ⟨hchecked, hfull.ge, rfl⟩
    exact ⟨k, hk, .inr ⟨hpos, hlt, hover⟩⟩

theorem count_eq_of_halted (hhalted : Halted registers id (c, q)) :
    count registers p = .ok c ∨ (∃ k, count registers p = .error (.outOfRange k p.length)) ∨
      count registers p = .error .additionOverflow := by
  rcases count_of_halted hs hhalted with ⟨-, hcount⟩ | ⟨cause, -, hcount⟩
  · exact .inl hcount
  · obtain ⟨k, -, ⟨-, rfl⟩ | ⟨-, -, hover⟩⟩ := (count_eq_error_iff hs hhalted).1 hcount
    · exact .inr (.inl ⟨k, hcount⟩)
    · obtain ⟨-, -, rfl⟩ := Registers.put_eq_error_iff.1 hover
      exact .inr (.inr hcount)

end Ends

theorem not_sticks_of_nodup (registers : Registers) (h : p.Nodup) : ¬ Sticks registers p := by
  rintro ⟨i, c, q, k, hi, hk⟩
  have hq : q.Nodup := (afterFlips_perm hi).nodup_iff.2 h
  obtain ⟨e, rfl⟩ := Nat.exists_eq_add_of_le' hk.pos
  obtain ⟨rest, rfl⟩ := List.head?_eq_some_iff.1 hk.top
  exact (List.nodup_cons.1 hq).1 (List.mem_of_getElem? hk.below)

/-- Whatever the entries are, flipping goes on for ever just where it comes to a state in which
the entry on top lies in the place that it names as well, and the register of the count lets it: a
checked one runs over with the flip that would bring it to `2 ^ 32`. Elsewhere `n` entries allow
fewer than `2 ^ (n - 1)` flips. They end with a count where nothing or 0 is on top, and with a
fault where the entry on top names a place that is not there or the register is full. -/
theorem flipping_ends_unless_stuck (registers : Registers) (p : List ℕ) :
    (Forever registers p ↔ registers ≠ .checked ∧ Sticks registers p) ∧
    (Sticks registers p → (∃ k, count registers p = .error (endless registers k)) ∧
      (registers = .checked → count registers p = .error .additionOverflow ∧
        ∀ i, (∃ s, afterFlips registers id i (0, p) = some s) ↔ i < 2 ^ 32)) ∧
    (¬ Sticks registers p → ∃ f c q, f ≤ 2 ^ (p.length - 1) - 1 ∧
      afterFlips registers id f (0, p) = some (c, q) ∧
      afterFlips registers id (f + 1) (0, p) = none ∧ registers.put 32 f = .ok c ∧
      (count registers p = .ok c ↔ q = [] ∨ q.head? = some 0) ∧
      (∀ k, count registers p = .error (.outOfRange k p.length) ↔
        q.head? = some k ∧ p.length ≤ k) ∧
      (count registers p = .error .additionOverflow ↔
        registers = .checked ∧ f + 1 = 2 ^ 32 ∧ ∃ k, q.head? = some k ∧ 1 ≤ k ∧ k < p.length) ∧
      (count registers p = .ok c ∨ (∃ k, count registers p = .error (.outOfRange k p.length)) ∨
        count registers p = .error .additionOverflow)) ∧
    (p.Nodup → ¬ Sticks registers p ∧ ¬ Forever registers p) ∧
    (p.Perm (List.range p.length) → ∃ f, count .unlimited p = .ok f ∧
      count registers p = registers.put 32 f ∧ (p.length ≤ 46 → count registers p = .ok f)) := by
  refine ⟨forever_iff, fun h ↦ ?_, fun h ↦ ?_, fun h ↦ ?_, fun h ↦ ?_⟩
  · obtain ⟨k, hk⟩ := count_of_sticks h
    refine ⟨⟨k, hk⟩, ?_⟩
    rintro rfl
    exact ⟨hk, h.exists_afterFlips_iff_lt⟩
  · obtain ⟨f, c, q, hle, hs, hhalted⟩ := exists_last_of_not_sticks h
    exact ⟨f, c, q, hle, hs, afterFlips_eq_none hs hhalted f.lt_succ_self,
      (afterFlips_eq_some_iff.1 hs).1, count_eq_ok_iff hs hhalted,
      fun k ↦ count_eq_outOfRange_iff hs hhalted, count_eq_overflow_iff hs hhalted,
      count_eq_of_halted hs hhalted⟩
  · have hnot := not_sticks_of_nodup registers h
    exact ⟨hnot, fun hforever ↦ hnot (forever_iff.1 hforever).2⟩
  · refine ⟨flips p, count_of_perm .unlimited h, count_of_perm registers h, fun hn ↦ ?_⟩
    rw [count_of_perm registers h, put_flips_of_le registers hn h]

theorem flipping_ends_unless_stuck_five : Registers.wrapping ≠ .checked ∧
    Sticks .wrapping [1, 1] ∧ Forever .wrapping [1, 1] ∧ ¬ Sticks .checked [4, 2, 7, 2, 1] ∧
    (∃ f c q, f ≤ 15 ∧ afterFlips .checked id f (0, [4, 2, 7, 2, 1]) = some (c, q) ∧
      q.head? = some 7) ∧
    [3, 9, 5, 0].Nodup ∧ ¬ Forever .unlimited [3, 9, 5, 0] ∧
    [3, 1, 2, 0].Perm (List.range 4) ∧ ∃ f, count .checked [3, 1, 2, 0] = .ok f := by
  have hne : Registers.wrapping ≠ .checked := by decide
  have hsticks : Sticks .wrapping [1, 1] := ⟨0, 0, [1, 1], 1, rfl, rfl, le_rfl, rfl⟩
  have hcount : count .checked [4, 2, 7, 2, 1] = .error (.outOfRange 7 5) := by cbv
  obtain ⟨-, hstuck, hend, -, -⟩ := flipping_ends_unless_stuck .checked [4, 2, 7, 2, 1]
  have hnot : ¬ Sticks .checked [4, 2, 7, 2, 1] := by
    intro h
    obtain ⟨⟨k, hk⟩, -⟩ := hstuck h
    cases hcount.symm.trans hk
  obtain ⟨f, c, q, hf, hq, -, -, -, hfault, -⟩ := hend hnot
  have htop : q.head? = some 7 := ((hfault 7).1 hcount).1
  have hnodup : [3, 9, 5, 0].Nodup := by decide
  have hperm : [3, 1, 2, 0].Perm (List.range 4) := by decide
  obtain ⟨g, -, -, hg⟩ := (flipping_ends_unless_stuck .checked [3, 1, 2, 0]).2.2.2.2 hperm
  exact ⟨hne, hsticks, (flipping_ends_unless_stuck .wrapping [1, 1]).1.2 ⟨hne, hsticks⟩, hnot,
    ⟨f, c, q, hf, hq, htop⟩, hnodup,
    ((flipping_ends_unless_stuck .unlimited [3, 9, 5, 0]).2.2.2.1 hnodup).2, hperm,
    g, hg (by decide)⟩

/-- The entry on top lies in its place from the start, and yet a checked register brings the flips
to an end. -/
theorem checked_flips_of_ones_end : Sticks .checked [1, 1] ∧ ¬ Forever .checked [1, 1] ∧
    (∀ i, (∃ s, afterFlips .checked id i (0, [1, 1]) = some s) ↔ i < 2 ^ 32) ∧
    count .checked [1, 1] = .error .additionOverflow := by
  have hsticks : Sticks .checked [1, 1] := ⟨0, 0, [1, 1], 1, rfl, rfl, le_rfl, rfl⟩
  obtain ⟨k, hcount⟩ := count_of_sticks hsticks
  exact ⟨hsticks, fun h ↦ (forever_iff.1 h).1 rfl, hsticks.exists_afterFlips_iff_lt, hcount⟩

end MicroBench.Proofs.FlipHalting
