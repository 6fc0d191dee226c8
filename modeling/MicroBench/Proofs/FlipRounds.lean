import MicroBench.Flip.Round
import MicroBench.Proofs.FlipRun

namespace MicroBench.Proofs.FlipRounds

open Flip FlipRun

variable {α : Type} {registers : Registers} {name : α → ℕ} {fault : Fault} {c f i j k more : ℕ}
  {p : List ℕ}

def Halted (registers : Registers) (name : α → ℕ) (s : ℕ × List α) : Prop :=
  ∀ t, Round.of registers name s ≠ .flipped t

/-- The entry on top lies in the place that it names as well. -/
structure Stuck (k : ℕ) (p : List ℕ) : Prop where
  top : p.head? = some k
  pos : 1 ≤ k
  below : p[k]? = some k

section Runs

variable {s t u : ℕ × List α}

theorem halted_of_settled (h : Round.of registers name s = .settled) :
    Halted registers name s := by
  intro t ht
  cases h.symm.trans ht

theorem halted_of_fault (h : Round.of registers name s = .fault fault) :
    Halted registers name s := by
  intro t ht
  cases h.symm.trans ht

theorem afterFlips_eq_none (hs : afterFlips registers name i s = some t)
    (ht : Halted registers name t) (hij : i < j) : afterFlips registers name j s = none := by
  obtain ⟨c, rfl⟩ := Nat.exists_eq_add_of_lt hij
  rw [Nat.add_assoc, afterFlips_add hs, Option.eq_none_iff_forall_ne_some]
  intro r hr
  obtain ⟨u, hu, -⟩ := afterFlips_succ_eq_some_iff.1 hr
  exact ht u hu

theorem halted_unique (hi : afterFlips registers name i s = some t)
    (ht : Halted registers name t) (hj : afterFlips registers name j s = some u)
    (hu : Halted registers name u) : i = j ∧ t = u := by
  rcases Nat.lt_trichotomy i j with hlt | rfl | hlt
  · rw [afterFlips_eq_none hi ht hlt] at hj
    cases hj
  · rw [hi] at hj
    exact ⟨rfl, Option.some.inj hj⟩
  · rw [afterFlips_eq_none hj hu hlt] at hi
    cases hi

end Runs

variable {s t : ℕ × List ℕ}

theorem of_called {y : ℕ} {rest : List ℕ} (h : rest[k]? = some y)
    (hc : registers.increment 32 more = .ok c) :
    Round.of registers id (more, (k + 1) :: rest) =
      .flipped (c, flipTop (k + 1) ((k + 1) :: rest)) := by
  have hlt := (List.getElem?_eq_some_iff.1 h).1
  exact Round.of_eq_flipped_iff.2 ⟨k + 1, rfl, k.succ_ne_zero, Nat.succ_lt_succ hlt, hc, rfl⟩

theorem Stuck.lt_length {p : List ℕ} (h : Stuck k p) : k < p.length :=
  (List.getElem?_eq_some_iff.1 h.below).1

theorem Stuck.flipTop {p : List ℕ} (h : Stuck k p) : Stuck k (flipTop k p) := by
  obtain ⟨c, rfl⟩ := Nat.exists_eq_add_of_le' h.pos
  obtain ⟨rest, rfl⟩ := List.head?_eq_some_iff.1 h.top
  have hbelow : rest[c]? = some (c + 1) := h.below
  exact ⟨head?_flipTop_called hbelow, h.pos, getElem?_flipTop_called hbelow⟩

theorem Stuck.of_flipped (h : Stuck k s.2) (ht : Round.of registers id s = .flipped t) :
    Stuck k t.2 := by
  obtain ⟨x, hx, -, -, -, hflip⟩ := Round.of_eq_flipped_iff.1 ht
  obtain rfl := Option.some.inj (hx.symm.trans h.top)
  rw [hflip]
  exact h.flipTop

theorem Stuck.of_afterFlips (h : Stuck k s.2) (ht : afterFlips registers id i s = some t) :
    Stuck k t.2 := by
  induction i generalizing s with
  | zero =>
    obtain rfl := Option.some.inj ht
    exact h
  | succ i ih =>
    obtain ⟨r, hr, hi⟩ := afterFlips_succ_eq_some_iff.1 ht
    exact ih (h.of_flipped hr) hi

theorem Stuck.not_settled (h : Stuck k s.2) : Round.of registers id s ≠ .settled := by
  intro hs
  have hzero : k = 0 := Round.of_eq_settled_iff.1 hs k h.top
  exact absurd h.pos (by omega)

theorem Stuck.fault_eq (h : Stuck k s.2) (hs : Round.of registers id s = .fault fault) :
    fault = endless registers k := by
  obtain ⟨x, hx, ⟨hge, -⟩ | ⟨-, -, hinc⟩⟩ := Round.of_eq_fault_iff.1 hs
  · obtain rfl := Option.some.inj (hx.symm.trans h.top)
    exact absurd h.lt_length (Nat.not_lt.2 hge)
  · obtain ⟨rfl, -, rfl⟩ := Registers.put_eq_error_iff.1 hinc
    rfl

theorem Stuck.forever {q : List ℕ} (h : Stuck k q) (c : ℕ) :
    ∀ i, ∃ s, afterFlips .unlimited id i (c, q) = some s := by
  intro i
  induction i generalizing c q with
  | zero => exact ⟨_, rfl⟩
  | succ i ih =>
    have hround : Round.of .unlimited id (c, q) = .flipped (c + 1, Flip.flipTop k q) :=
      Round.of_eq_flipped_iff.2 ⟨k, h.top, Nat.ne_of_gt h.pos, h.lt_length, rfl, rfl⟩
    obtain ⟨s, hs⟩ := ih h.flipTop (c + 1)
    exact ⟨s, afterFlips_succ_eq_some_iff.2 ⟨_, hround, hs⟩⟩

/-- Round by round, flips lead to a last state or to one that is stuck, and the flips that watch
out for the latter tell which. -/
theorem exists_end (registers : Registers) (more : ℕ) (p : List ℕ) :
    ∃ i s, afterFlips registers id i (more, p) = some s ∧ i ≤ misplaced 1 p.tail ∧
      (Round.of registers id s = .settled ∧ settleFrom registers more p = .ok s ∨
        (∃ fault, Round.of registers id s = .fault fault ∧
          settleFrom registers more p = .error fault) ∨
        ∃ k, Stuck k s.2 ∧ settleFrom registers more p = .error (endless registers k)) := by
  -- on the flips that watch out: each of them lowers the weight of the entries out of place
  fun_induction settleFrom registers more p with
  | case1 more => exact ⟨0, _, rfl, Nat.zero_le _, .inl ⟨rfl, rfl⟩⟩
  | case2 more rest => exact ⟨0, _, rfl, Nat.zero_le _, .inl ⟨rfl, rfl⟩⟩
  | case3 more k rest hk =>
    have hlen : ((k + 1) :: rest).length ≤ k + 1 :=
      Nat.succ_le_succ (List.getElem?_eq_none_iff.1 hk)
    have hfault : Round.of registers id (more, (k + 1) :: rest) =
        .fault (.outOfRange (k + 1) (rest.length + 1)) :=
      Round.of_eq_fault_iff.2 ⟨k + 1, rfl, .inl ⟨hlen, rfl⟩⟩
    exact ⟨0, _, rfl, Nat.zero_le _, .inr (.inl ⟨_, hfault, rfl⟩)⟩
  | case4 more k rest hk =>
    exact ⟨0, _, rfl, Nat.zero_le _, .inr (.inr ⟨k + 1, ⟨rfl, k.succ_pos, hk⟩, rfl⟩)⟩
  | case5 more k rest y hk hy fault hover =>
    have hlt := (List.getElem?_eq_some_iff.1 hk).1
    have hfault : Round.of registers id (more, (k + 1) :: rest) = .fault fault :=
      Round.of_eq_fault_iff.2
        ⟨k + 1, rfl, .inr ⟨k.succ_ne_zero, Nat.succ_lt_succ hlt, hover⟩⟩
    exact ⟨0, _, rfl, Nat.zero_le _, .inr (.inl ⟨_, hfault, rfl⟩)⟩
  | case6 more k rest y hk hy counted hcounted ih =>
    obtain ⟨i, s, hi, hle, hend⟩ := ih
    have hlt := misplaced_flipTop hk hy
    exact ⟨i + 1, s, afterFlips_succ_eq_some_iff.2 ⟨_, of_called hk hcounted, hi⟩,
      hle.trans_lt hlt, hend⟩

theorem misplaced_tail_le (p : List ℕ) : misplaced 1 p.tail ≤ 2 ^ (p.length - 1) - 1 := by
  have hlt := misplaced_lt 1 p.tail
  rw [List.length_tail, Nat.one_shiftLeft] at hlt
  exact Nat.le_sub_one_of_lt hlt

theorem count_cases (registers : Registers) (p : List ℕ) :
    ∃ i s, afterFlips registers id i (0, p) = some s ∧ i ≤ 2 ^ (p.length - 1) - 1 ∧
      (Round.of registers id s = .settled ∧ count registers p = .ok s.1 ∨
        (∃ fault, Round.of registers id s = .fault fault ∧ count registers p = .error fault) ∨
        ∃ k, Stuck k s.2 ∧ count registers p = .error (endless registers k)) := by
  obtain ⟨i, s, hi, hle, hend⟩ := exists_end registers 0 p
  refine ⟨i, s, hi, hle.trans (misplaced_tail_le p), ?_⟩
  rw [count, settle]
  rcases hend with ⟨hs, h⟩ | ⟨fault, hs, h⟩ | ⟨k, hk, h⟩
  · rw [h]
    exact .inl ⟨hs, rfl⟩
  · rw [h]
    exact .inr (.inl ⟨fault, hs, rfl⟩)
  · rw [h]
    exact .inr (.inr ⟨k, hk, rfl⟩)

theorem Stuck.of_halted (hk : Stuck k s.2) (hs : afterFlips registers id i (0, p) = some s)
    (ht : afterFlips registers id j (0, p) = some t) (hhalted : Halted registers id t) :
    Stuck k t.2 := by
  rcases Nat.lt_or_ge j i with hlt | hle
  · rw [afterFlips_eq_none ht hhalted hlt] at hs
    cases hs
  · obtain ⟨c, rfl⟩ := Nat.exists_eq_add_of_le hle
    rw [afterFlips_add hs] at ht
    exact hk.of_afterFlips ht

theorem count_of_halted (hs : afterFlips registers id f (0, p) = some s)
    (hhalted : Halted registers id s) :
    Round.of registers id s = .settled ∧ count registers p = .ok s.1 ∨
      ∃ fault, Round.of registers id s = .fault fault ∧ count registers p = .error fault := by
  -- flips end in one state only, so that the end which `count_cases` gives is this one
  obtain ⟨i, t, ht, -, ⟨hend, hcount⟩ | ⟨fault, hend, hcount⟩ | ⟨k, hk, hcount⟩⟩ :=
    count_cases registers p
  · obtain ⟨-, rfl⟩ := halted_unique hs hhalted ht (halted_of_settled hend)
    exact .inl ⟨hend, hcount⟩
  · obtain ⟨-, rfl⟩ := halted_unique hs hhalted ht (halted_of_fault hend)
    exact .inr ⟨fault, hend, hcount⟩
  · have hstuck := hk.of_halted ht hs hhalted
    cases hround : Round.of registers id s with
    | settled => exact absurd hround hstuck.not_settled
    | fault fault =>
      rw [← hstuck.fault_eq hround] at hcount
      exact .inr ⟨fault, rfl, hcount⟩
    | flipped u => exact absurd hround (hhalted u)

theorem count_of_settled (hs : afterFlips registers id f (0, p) = some s)
    (hlast : Round.of registers id s = .settled) : count registers p = .ok s.1 := by
  rcases count_of_halted hs (halted_of_settled hlast) with ⟨-, hcount⟩ | ⟨fault, hround, -⟩
  · exact hcount
  · cases hlast.symm.trans hround

theorem count_of_fault (hs : afterFlips registers id f (0, p) = some s)
    (hlast : Round.of registers id s = .fault fault) : count registers p = .error fault := by
  rcases count_of_halted hs (halted_of_fault hlast) with ⟨hround, -⟩ | ⟨cause, hround, hcount⟩
  · cases hlast.symm.trans hround
  · obtain rfl := Round.fault.inj (hlast.symm.trans hround)
    exact hcount

theorem exists_settled_of_count (h : count registers p = .ok c) :
    ∃ f q, afterFlips registers id f (0, p) = some (c, q) ∧
      Round.of registers id (c, q) = .settled := by
  obtain ⟨i, s, hi, -, ⟨hs, hcount⟩ | ⟨fault, -, hcount⟩ | ⟨k, -, hcount⟩⟩ :=
    count_cases registers p
  · obtain rfl := Except.ok.inj (hcount.symm.trans h)
    exact ⟨i, s.2, hi, hs⟩
  · cases hcount.symm.trans h
  · cases hcount.symm.trans h

end MicroBench.Proofs.FlipRounds
