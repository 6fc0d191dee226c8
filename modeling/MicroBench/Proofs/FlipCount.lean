import Mathlib.Data.List.Nodup
import MicroBench.Flip

namespace MicroBench.Proofs.FlipCount

open Flip

variable {registers : Registers} {c f more n : ℕ} {p q : List ℕ}

/-- The number of flips of a list on which they end, and 0 for any other. -/
def flips (p : List ℕ) : ℕ := (count .unlimited p).toOption.getD 0

theorem flips_nil : flips [] = 0 := by simp [flips, count_nil, Except.toOption]

theorem flips_zero (rest : List ℕ) : flips (0 :: rest) = 0 := by
  simp [flips, count_zero, Except.toOption]

theorem flips_of_settle (h : settle .unlimited p = .ok (f, q)) : flips p = f := by
  simp [flips, count, h, Except.map, Except.toOption]

theorem le_of_settleFrom (h : settleFrom .unlimited more p = .ok (f, q)) : more ≤ f := by
  fun_induction settleFrom .unlimited more p with
  | case1 more =>
    obtain ⟨rfl, -⟩ := Prod.mk.inj (Except.ok.inj h)
    exact Nat.le_refl _
  | case2 more rest =>
    obtain ⟨rfl, -⟩ := Prod.mk.inj (Except.ok.inj h)
    exact Nat.le_refl _
  | case3 => cases h
  | case4 => cases h
  | case5 => cases h
  | case6 more k rest y hk hy counted hcounted ih =>
    obtain rfl := Except.ok.inj hcounted
    exact Nat.le_of_succ_le (ih h)

/-- Whatever the register, it shows at the end what it would if the number of flips were put into
it at once. -/
theorem settleFrom_registers (h : settleFrom .unlimited more p = .ok (f, q))
    (hc : registers.put 32 more = .ok c) :
    settleFrom registers c p = (registers.put 32 f).map fun d ↦ (d, q) := by
  fun_induction settleFrom .unlimited more p generalizing c with
  | case1 more =>
    obtain ⟨rfl, rfl⟩ := Prod.mk.inj (Except.ok.inj h)
    rw [hc, settleFrom]
    rfl
  | case2 more rest =>
    obtain ⟨rfl, rfl⟩ := Prod.mk.inj (Except.ok.inj h)
    rw [hc, settleFrom]
    rfl
  | case3 => cases h
  | case4 => cases h
  | case5 => cases h
  | case6 more k rest y hk hy counted hcounted ih =>
    obtain rfl := Except.ok.inj hcounted
    have hnext := registers.put_succ 32 more
    rw [hc] at hnext
    rw [settleFrom_flip registers hk hy]
    cases hd : registers.put 32 (more + 1) with
    | ok d =>
      have hd' : registers.increment 32 c = .ok d := hnext.symm.trans hd
      rw [hd']
      exact ih h hd
    | error fault =>
      -- the register has run over, and the flips that follow only make the number greater
      have hfault : registers.increment 32 c = .error fault := hnext.symm.trans hd
      obtain ⟨hchecked, hover, hcause⟩ := Registers.put_eq_error_iff.1 hd
      have hlast : registers.put 32 f = .error fault :=
        Registers.put_eq_error_iff.2 ⟨hchecked, Nat.le_trans hover (le_of_settleFrom h), hcause⟩
      rw [hfault, hlast]
      rfl

theorem settle_registers (registers : Registers) (h : settle .unlimited p = .ok (f, q)) :
    settle registers p = (registers.put 32 f).map fun d ↦ (d, q) :=
  settleFrom_registers h (registers.put_zero 32)

/-- Flips end, and never reach too deep, where no entry stands twice and each names a position
in the list. -/
theorem settleFrom_of_nodup (more : ℕ) (hp : p.Nodup) (hlt : ∀ x ∈ p, x < p.length) :
    ∃ f q, settleFrom .unlimited more p = .ok (f, q) ∧ q.Perm p := by
  fun_induction settleFrom .unlimited more p with
  | case1 more => exact ⟨more, [], rfl, .refl _⟩
  | case2 more rest => exact ⟨more, 0 :: rest, rfl, .refl _⟩
  | case3 more k rest hk =>
    have hdeep := hlt (k + 1) List.mem_cons_self
    have hlen := List.getElem?_eq_none_iff.1 hk
    rw [List.length_cons] at hdeep
    omega
  | case4 more k rest hk =>
    exact absurd (List.mem_of_getElem? hk) (List.nodup_cons.1 hp).1
  | case5 more k rest y hk hy fault hfault => cases hfault
  | case6 more k rest y hk hy counted hcounted ih =>
    have hperm := flipTop_perm (k + 1) ((k + 1) :: rest)
    obtain ⟨f, q, hq, hqp⟩ := ih (hperm.nodup_iff.2 hp) (fun x hx ↦ by
      rw [length_flipTop]
      exact hlt x (hperm.subset hx))
    exact ⟨f, q, hq, hqp.trans hperm⟩

theorem settle_of_perm (h : p.Perm (List.range n)) :
    ∃ q, settle .unlimited p = .ok (flips p, q) ∧ q.Perm p := by
  have hlt : ∀ x ∈ p, x < p.length := by
    intro x hx
    rw [h.length_eq, List.length_range]
    exact List.mem_range.1 (h.subset hx)
  obtain ⟨f, q, hq, hqp⟩ := settleFrom_of_nodup 0 (h.nodup_iff.2 List.nodup_range) hlt
  obtain rfl := flips_of_settle hq
  exact ⟨q, hq, hqp⟩

theorem count_of_perm (registers : Registers) (h : p.Perm (List.range n)) :
    count registers p = registers.put 32 (flips p) := by
  obtain ⟨q, hq, -⟩ := settle_of_perm h
  rw [count, settle_registers registers hq]
  cases registers.put 32 (flips p) <;> rfl

end MicroBench.Proofs.FlipCount
