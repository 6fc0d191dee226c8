import Mathlib.Data.Finset.Max
import Mathlib.Data.Nat.Fib.Basic
import Mathlib.Order.Interval.Finset.Nat
import MicroBench.Proofs.FlipCount

namespace MicroBench.Proofs.FlipRun

open Flip FlipCount

variable {S : Finset ℕ} {i d e k x y : ℕ} {p q rest : List ℕ}

/-- So many flips lead from one list to the other, each called by an entry of `S` on top. -/
inductive Run (S : Finset ℕ) : ℕ → List ℕ → List ℕ → Prop
  | done (p : List ℕ) : Run S 0 p p
  | flip {k y i : ℕ} {rest q : List ℕ} :
      k + 1 ∈ S → rest[k]? = some y → Run S i (flipTop (k + 1) ((k + 1) :: rest)) q →
      Run S (i + 1) ((k + 1) :: rest) q

theorem flipTop_called (h : rest[k]? = some y) :
    ∃ middle below : List ℕ, middle.length = k ∧
      flipTop (k + 1) ((k + 1) :: rest) = y :: middle.reverse ++ (k + 1) :: below := by
  obtain ⟨middle, below, rfl, rfl⟩ := split_at_entry h
  exact ⟨middle, below, rfl, flipTop_eq (middle.length + 1) middle y below⟩

theorem head?_flipTop_called (h : rest[k]? = some y) :
    (flipTop (k + 1) ((k + 1) :: rest)).head? = some y := by
  obtain ⟨middle, below, -, hflip⟩ := flipTop_called h
  rw [hflip]
  rfl

theorem getElem?_flipTop_called (h : rest[k]? = some y) :
    (flipTop (k + 1) ((k + 1) :: rest))[k + 1]? = some (k + 1) := by
  obtain ⟨middle, below, rfl, hflip⟩ := flipTop_called h
  simp [hflip]

theorem getElem?_flipTop_of_lt (p : List ℕ) (h : k < e) : (flipTop k p)[e]? = p[e]? := by
  rcases Nat.lt_or_ge k p.length with hk | hk
  · have hlen : (p.take (k + 1)).reverse.length = k + 1 := by
      rw [List.length_reverse, List.length_take]
      omega
    rw [flipTop, List.getElem?_append_right (by omega), hlen, List.getElem?_drop,
      Nat.add_sub_cancel' h]
  · rw [List.getElem?_eq_none (by rw [length_flipTop]; omega),
      List.getElem?_eq_none (by omega)]

namespace Run

theorem perm (h : Run S i p q) : q.Perm p := by
  induction h with
  | done p => exact .refl p
  | flip hk hy h ih => exact ih.trans (flipTop_perm _ _)

theorem eq_zero_of_head?_notMem (h : Run S i p q) (hp : p.head? = some x) (hx : x ∉ S) :
    i = 0 := by
  cases h with
  | done p => rfl
  | flip hk hy h =>
    obtain rfl : _ = x := Option.some.inj hp
    exact absurd hk hx

theorem getElem?_eq_of_lt (h : Run S i p q) (hS : ∀ s ∈ S, s < e) : q[e]? = p[e]? := by
  induction h with
  | done p => rfl
  | flip hk hy h ih => rw [ih, getElem?_flipTop_of_lt _ (hS _ hk)]

/-- An entry that lies deeper than all others of `S` reach stays there, and so never calls. -/
theorem erase_of_deep (h : Run S i p q) (hp : p.Nodup) (he : 0 < e) (hx : p[e]? = some x)
    (hS : ∀ s ∈ S.erase x, s < e) : Run (S.erase x) i p q := by
  induction h with
  | done p => exact .done p
  | @flip k y i rest q hk hy h ih =>
    have hne : k + 1 ≠ x := by
      rintro rfl
      obtain ⟨e, rfl⟩ := Nat.exists_eq_add_of_lt he
      rw [Nat.zero_add, List.getElem?_cons_succ] at hx
      exact (List.nodup_cons.1 hp).1 (List.mem_of_getElem? hx)
    have hmem : k + 1 ∈ S.erase x := Finset.mem_erase.2 ⟨hne, hk⟩
    refine .flip hmem hy (ih ((flipTop_perm _ _).nodup_iff.2 hp) ?_)
    rw [getElem?_flipTop_of_lt _ (hS _ hmem), hx]

theorem erase_or_first_call (h : Run S i p q) (d : ℕ) :
    Run (S.erase d) i p q ∨
      ∃ a b k y rest, d = k + 1 ∧ i = a + 1 + b ∧ rest[k]? = some y ∧
        Run (S.erase d) a p ((k + 1) :: rest) ∧
        Run S b (flipTop (k + 1) ((k + 1) :: rest)) q := by
  induction h with
  | done p => exact .inl (.done p)
  | @flip k y i rest q hk hy h ih =>
    by_cases hd : k + 1 = d
    · exact .inr ⟨0, i, k, y, rest, hd.symm, by omega, hy, .done _, h⟩
    have hmem : k + 1 ∈ S.erase d := Finset.mem_erase.2 ⟨hd, hk⟩
    rcases ih with hnever | ⟨a, b, j, z, rest', hj, rfl, hz, hbefore, hafter⟩
    · exact .inl (.flip hmem hy hnever)
    · exact .inr ⟨a + 1, b, j, z, rest', hj, by omega, hz, .flip hmem hy hbefore, hafter⟩

/-- The greatest caller calls once at most. The entry that it uncovers has not been moved before
and so has not called; if it is no caller at all, the run is over. -/
theorem greatest_caller_cases (h : Run S i p q) (hp : p.Nodup) (hmax : ∀ s ∈ S.erase d, s < d) :
    Run (S.erase d) i p q ∨
      (∃ a r, i = a + 1 ∧ Run (S.erase d) a p r) ∨
      ∃ a b y r r', i = a + 1 + b ∧ y ∈ S.erase d ∧ r'.Nodup ∧
        Run ((S.erase d).erase y) a p r ∧ Run (S.erase d) b r' q := by
  rcases h.erase_or_first_call d with
    hnever | ⟨a, b, k, y, rest, rfl, rfl, hy, hbefore, hafter⟩
  · exact .inl hnever
  right
  have hmid : ((k + 1) :: rest).Nodup := hbefore.perm.nodup_iff.2 hp
  by_cases hyS : y ∈ S
  · right
    have hturned : (flipTop (k + 1) ((k + 1) :: rest)).Nodup :=
      (flipTop_perm _ _).nodup_iff.2 hmid
    have hyd : y ∈ S.erase (k + 1) := by
      refine Finset.mem_erase.2 ⟨?_, hyS⟩
      rintro rfl
      exact (List.nodup_cons.1 hmid).1 (List.mem_of_getElem? hy)
    have huncovered : p[k + 1]? = some y := by
      rw [← hbefore.getElem?_eq_of_lt hmax]
      exact hy
    have hbelow : ∀ s ∈ (S.erase (k + 1)).erase y, s < k + 1 := by
      intro s hs
      exact hmax s (Finset.mem_of_mem_erase hs)
    exact ⟨a, b, y, _, _, rfl, hyd, hturned,
      hbefore.erase_of_deep hp k.succ_pos huncovered hbelow,
      hafter.erase_of_deep hturned k.succ_pos (getElem?_flipTop_called hy) hmax⟩
  · left
    obtain rfl := hafter.eq_zero_of_head?_notMem (head?_flipTop_called hy) hyS
    exact ⟨a, _, rfl, hbefore⟩

/-- Among `c` callers fewer flips are made than the Fibonacci number with index `c + 2`. -/
theorem lt_fib (h : Run S i p q) (hp : p.Nodup) : i < Nat.fib (S.card + 2) := by
  -- on the callers: the greatest is missing after its flip, and one more before it
  induction S using Finset.strongInduction generalizing i p q with
  | H S ih =>
    rcases S.eq_empty_or_nonempty with rfl | hS
    · cases h with
      | done p => decide
      | flip hk => exact absurd hk (Finset.notMem_empty _)
    obtain ⟨d, hd, hmax⟩ : ∃ d ∈ S, ∀ s ∈ S.erase d, s < d :=
      ⟨S.max' hS, S.max'_mem hS, fun s hs ↦ S.lt_max'_of_mem_erase_max' hS hs⟩
    have hcard := Finset.card_erase_add_one hd
    have hfewer : (S.erase d).card + 2 = S.card + 1 := by omega
    have hfib : Nat.fib (S.card + 2) = Nat.fib S.card + Nat.fib (S.card + 1) := Nat.fib_add_two
    have ihd := @ih (S.erase d) (Finset.erase_ssubset hd)
    rw [hfewer] at ihd
    rcases h.greatest_caller_cases hp hmax with
      hnever | ⟨a, r, rfl, hlast⟩ | ⟨a, b, y, r, r', rfl, hy, hr', hbefore, hafter⟩
    · have hlt := ihd hnever hp
      omega
    · have ha := ihd hlast hp
      have hpos : 0 < Nat.fib S.card := Nat.fib_pos.2 (by omega)
      omega
    · have ha := ih _ ((Finset.erase_ssubset hy).trans (Finset.erase_ssubset hd)) hbefore hp
      have hb := ihd hafter hr'
      have hcard' := Finset.card_erase_add_one hy
      have hfewest : ((S.erase d).erase y).card + 2 = S.card := by omega
      rw [hfewest] at ha
      omega

end Run

theorem exists_run_of_settleFrom {more f : ℕ} (h : settleFrom .unlimited more p = .ok (f, q)) :
    ∃ i, f = more + i ∧ Run (Finset.Ico 1 p.length) i p q := by
  fun_induction settleFrom .unlimited more p with
  | case1 more =>
    obtain ⟨rfl, rfl⟩ := Prod.mk.inj (Except.ok.inj h)
    exact ⟨0, rfl, .done []⟩
  | case2 more rest =>
    obtain ⟨rfl, rfl⟩ := Prod.mk.inj (Except.ok.inj h)
    exact ⟨0, rfl, .done _⟩
  | case3 => cases h
  | case4 => cases h
  | case5 => cases h
  | case6 more k rest y hk hy counted hcounted ih =>
    obtain rfl := Except.ok.inj hcounted
    obtain ⟨i, rfl, hrun⟩ := ih h
    rw [length_flipTop] at hrun
    have hlt := (List.getElem?_eq_some_iff.1 hk).1
    have hmem : k + 1 ∈ Finset.Ico 1 ((k + 1) :: rest).length :=
      Finset.mem_Ico.2 ⟨by omega, Nat.succ_lt_succ hlt⟩
    exact ⟨i + 1, by omega, .flip hmem hk hrun⟩

theorem flips_lt_fib {n : ℕ} (h : p.Perm (List.range n)) : flips p < Nat.fib (n + 1) := by
  cases n with
  | zero =>
    rw [h.eq_nil, flips_nil]
    decide
  | succ n =>
    obtain ⟨q, hq, -⟩ := settle_of_perm h
    obtain ⟨i, hi, hrun⟩ := exists_run_of_settleFrom hq
    have hlt := hrun.lt_fib (h.nodup_iff.2 List.nodup_range)
    rw [h.length_eq, List.length_range, Nat.card_Ico] at hlt
    rw [hi, Nat.zero_add]
    exact hlt

/-- The Fibonacci number with index 47 is the greatest that fits into 32 bits. -/
theorem put_flips_of_le {n : ℕ} (registers : Registers) (hn : n ≤ 46)
    (hp : p.Perm (List.range n)) : registers.put 32 (flips p) = .ok (flips p) := by
  have hroom : Nat.fib 47 ≤ 1 <<< 32 := by decide
  have hfib : Nat.fib (n + 1) ≤ Nat.fib 47 := Nat.fib_mono (Nat.succ_le_succ hn)
  have hflips := flips_lt_fib hp
  exact registers.put_of_lt (by omega)

end MicroBench.Proofs.FlipRun
