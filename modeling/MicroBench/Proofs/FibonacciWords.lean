import Mathlib.Logic.Function.Iterate
import MicroBench.Fibonacci.Words
import MicroBench.Proofs.FibonacciValue

namespace MicroBench.Proofs.FibonacciWords

open Fibonacci FibonacciValue

variable {α β : Type} {n : UInt64}

/-- Everything that was tried fits into words, but for the last operation of a computation that
ended with a fault, and the fault is that operation's. -/
def Honest (x : Watched α) : Prop :=
  match x.outcome with
  | .ok _ => ∀ op ∈ x.tried, op.Fits
  | .error fault => ∃ front last, x.tried = front ++ [last] ∧ (∀ op ∈ front, op.Fits) ∧
      ¬ last.Fits ∧ fault = last.fault

theorem honest_pure (a : α) : Honest (pure a) := by
  intro op hop
  cases hop

theorem honest_add (a b : UInt64) : Honest (Watched.add a b) := by
  by_cases h : a.toNat + b.toNat < wordLimit
  · simp [Honest, Watched.add, Operation.Fits, h]
  · simp only [Honest, Watched.add, if_neg h]
    exact ⟨[], _, rfl, by simp, h, rfl⟩

theorem honest_subtract (a b : UInt64) : Honest (Watched.subtract a b) := by
  by_cases h : b.toNat ≤ a.toNat
  · simp [Honest, Watched.subtract, Operation.Fits, h]
  · simp only [Honest, Watched.subtract, dif_neg h]
    exact ⟨[], _, rfl, by simp, h, rfl⟩

theorem Honest.bind {x : Watched α} {f : α → Watched β} (hx : Honest x)
    (hf : ∀ a, x.outcome = .ok a → Honest (f a)) : Honest (x >>= f) := by
  cases hout : x.outcome with
  | error fault =>
    simp only [Honest, hout] at hx
    rw [Watched.bind_of_error hout]
    exact hx
  | ok a =>
    -- the first part went through, so what it tried can stand in front of anything
    have hrest := hf a hout
    simp only [Honest, hout] at hx
    rw [Watched.bind_of_ok hout]
    simp only [Honest] at hrest ⊢
    cases hend : (f a).outcome with
    | ok b =>
      simp only [hend] at hrest
      exact List.forall_mem_append.2 ⟨hx, hrest⟩
    | error fault =>
      simp only [hend] at hrest
      obtain ⟨front, last, htried, hfront, hlast, hfault⟩ := hrest
      refine ⟨x.tried ++ front, last, ?_, List.forall_mem_append.2 ⟨hx, hfront⟩, hlast, hfault⟩
      rw [htried, List.append_assoc]

theorem honest_onWords (n : UInt64) : Honest (onWords n) := by
  -- a smaller word is at hand with each difference that was taken
  induction hn : n.toNat using Nat.strongRecOn generalizing n with
  | ind k ih =>
    have hone : (1 : UInt64).toNat = 1 := rfl
    have htwo : (2 : UInt64).toNat = 2 := rfl
    rw [onWords]
    split
    · exact honest_pure 0
    split
    · exact honest_pure 1
    apply (honest_subtract n 1).bind
    intro ⟨m, hm⟩ _
    apply (ih m.toNat (by omega) m rfl).bind
    intro a _
    apply (honest_subtract n 2).bind
    intro ⟨l, hl⟩ _
    apply (ih l.toNat (by omega) l rfl).bind
    intro b _
    exact honest_add a b

theorem outcome_subtract {a b : UInt64} (h : b.toNat ≤ a.toNat) :
    ∃ c, (Watched.subtract a b).outcome = .ok c := by
  simp only [Watched.subtract, dif_pos h]
  exact ⟨_, rfl⟩

/-- From 2 on, both differences are taken and the recursion goes on with them. -/
theorem exists_outcome_onWords (h : 2 ≤ n.toNat) :
    ∃ m l : UInt64, m.toNat + 1 = n.toNat ∧ l.toNat + 2 = n.toNat ∧
      (onWords n).outcome = (onWords m).outcome.bind fun a ↦
        (onWords l).outcome.bind fun b ↦ (Watched.add a b).outcome := by
  have hzero : n ≠ 0 := by
    rintro rfl
    exact absurd h (by decide)
  have hone : n ≠ 1 := by
    rintro rfl
    exact absurd h (by decide)
  obtain ⟨⟨m, hm⟩, hfirst⟩ := outcome_subtract (a := n) (b := 1) (Nat.le_of_succ_le h)
  obtain ⟨⟨l, hl⟩, hsecond⟩ := outcome_subtract (a := n) (b := 2) h
  refine ⟨m, l, hm, hl, ?_⟩
  rw [onWords, if_neg hzero, if_neg hone]
  simp only [Watched.bind_of_ok hfirst]
  cases ha : (onWords m).outcome with
  | error fault =>
    rw [Watched.bind_of_error ha]
    rfl
  | ok a =>
    simp only [Watched.bind_of_ok ha, Watched.bind_of_ok hsecond]
    cases hb : (onWords l).outcome with
    | error fault =>
      rw [Watched.bind_of_error hb]
      rfl
    | ok b =>
      rw [Watched.bind_of_ok hb]
      rfl

theorem toNat_outcome_add (a b : UInt64) : (Watched.add a b).outcome.map UInt64.toNat =
    if a.toNat + b.toNat < wordLimit then .ok (a.toNat + b.toNat) else .error .additionOverflow := by
  by_cases h : a.toNat + b.toNat < wordLimit
  · have hsum : (a + b).toNat = a.toNat + b.toNat := by
      rw [UInt64.toNat_add]
      exact Nat.mod_eq_of_lt h
    simp only [Watched.add, if_pos h, Except.map, hsum]
  · simp only [Watched.add, if_neg h, Except.map]

theorem toNat_outcome_onWords (n : UInt64) :
    (onWords n).outcome.map UInt64.toNat = naive n.toNat := by
  induction hn : n.toNat using Nat.twoStepInduction generalizing n with
  | zero =>
    obtain rfl : n = 0 := UInt64.toNat_inj.1 hn
    rw [onWords]
    rfl
  | one =>
    obtain rfl : n = 1 := UInt64.toNat_inj.1 hn
    rw [onWords]
    rfl
  | more k ihl ihm =>
    obtain ⟨m, l, hm, hl, hout⟩ := exists_outcome_onWords (n := n) (by omega)
    have hgreater := ihm m (by omega)
    have hlesser := ihl l (by omega)
    rw [naive, ← hgreater, ← hlesser, hout]
    cases (onWords m).outcome with
    | error fault => rfl
    | ok a =>
      cases (onWords l).outcome with
      | error fault => rfl
      | ok b => exact toNat_outcome_add a b

/-- The index of the greatest Fibonacci number that is a word. -/
theorem fib_lt_wordLimit_iff (k : ℕ) : Nat.fib k < wordLimit ↔ k ≤ 93 := by
  have hlast : Nat.fib 93 < wordLimit := by decide
  have hnext : wordLimit ≤ Nat.fib 94 := by decide
  constructor
  · intro h
    by_contra hk
    have hmono : Nat.fib 94 ≤ Nat.fib k := Nat.fib_mono (by omega)
    omega
  · intro hk
    have hmono : Nat.fib k ≤ Nat.fib 93 := Nat.fib_mono hk
    omega

def nextPair (p : ℕ × ℕ) : ℕ × ℕ := (p.2, p.1 + p.2)

theorem iterate_nextPair (k : ℕ) : nextPair^[k] (0, 1) = (Nat.fib k, Nat.fib (k + 1)) := by
  induction k with
  | zero => rfl
  | succ k ih => rw [Function.iterate_succ_apply', ih, nextPair, Nat.fib_add_two]

theorem naive_eq_pair (k : ℕ) : naive k =
    if k ≤ 93 then .ok (nextPair^[k] (0, 1)).1 else .error .additionOverflow := by
  by_cases hk : k ≤ 93
  · rw [if_pos hk, iterate_nextPair]
    exact naive_of_fib_lt ((fib_lt_wordLimit_iff k).2 hk)
  · rw [if_neg hk]
    apply naive_of_le_fib
    have hfib := mt (fib_lt_wordLimit_iff k).1 hk
    omega

theorem fits_of_le (h : n.toNat ≤ 93) : ∀ op ∈ (onWords n).tried, op.Fits := by
  have hvalue := toNat_outcome_onWords n
  have hhonest := honest_onWords n
  rw [naive_eq_pair, if_pos h] at hvalue
  cases hout : (onWords n).outcome with
  | error fault =>
    rw [hout] at hvalue
    cases hvalue
  | ok v =>
    simp only [Honest, hout] at hhonest
    exact hhonest

theorem exists_add_too_large (h : 94 ≤ n.toNat) :
    ∃ front a b, (onWords n).tried = front ++ [.add a b] ∧ (∀ op ∈ front, op.Fits) ∧
      wordLimit ≤ a.toNat + b.toNat := by
  have hvalue := toNat_outcome_onWords n
  have hhonest := honest_onWords n
  rw [naive_eq_pair, if_neg (by omega)] at hvalue
  cases hout : (onWords n).outcome with
  | ok v =>
    rw [hout] at hvalue
    cases hvalue
  | error fault =>
    rw [hout] at hvalue
    simp only [Honest, hout] at hhonest
    obtain ⟨front, last, htried, hfront, hlast, hfault⟩ := hhonest
    obtain rfl : fault = .additionOverflow := Except.error.inj hvalue
    cases last with
    | add a b => exact ⟨front, a, b, htried, hfront, Nat.le_of_not_lt hlast⟩
    | subtract a b => cases hfault

theorem subtract_fits {a b : UInt64} (h : .subtract a b ∈ (onWords n).tried) :
    b.toNat ≤ a.toNat := by
  rcases Nat.lt_or_ge 93 n.toNat with hlarge | hsmall
  · obtain ⟨front, c, d, htried, hfront, -⟩ := exists_add_too_large hlarge
    rw [htried] at h
    rcases List.mem_append.1 h with hmem | hlast
    · exact hfront _ hmem
    · cases List.mem_singleton.1 hlast
  · exact fits_of_le hsmall _ h

/-- The double recursion on words has a result up to 93 and not beyond, and it is what the linear
recursion on pairs gives in numbers of any size. Up to 93 no operation on the way is too large for
a word; beyond, the first that is too large is a sum. No difference ever falls below zero. -/
theorem recursion_fits_up_to_ninety_three (n : UInt64) :
    ((∃ v, naive n.toNat = .ok v) ↔ n.toNat ≤ 93) ∧
    naive n.toNat = (if n.toNat ≤ 93 then .ok (nextPair^[n.toNat] (0, 1)).1
      else .error .additionOverflow) ∧
    (onWords n).outcome.map UInt64.toNat = naive n.toNat ∧
    (n.toNat ≤ 93 → ∀ op ∈ (onWords n).tried, op.Fits) ∧
    (94 ≤ n.toNat → ∃ front a b, (onWords n).tried = front ++ [.add a b] ∧
      (∀ op ∈ front, op.Fits) ∧ wordLimit ≤ a.toNat + b.toNat) ∧
    ∀ a b, .subtract a b ∈ (onWords n).tried → b.toNat ≤ a.toNat := by
  have hvalue := naive_eq_pair n.toNat
  refine ⟨?_, hvalue, toNat_outcome_onWords n, fits_of_le, exists_add_too_large,
    fun a b ↦ subtract_fits⟩
  rw [hvalue]
  split
  · rename_i hn
    exact iff_of_true ⟨_, rfl⟩ hn
  · rename_i hn
    apply iff_of_false _ hn
    rintro ⟨v, hv⟩
    cases hv

/-- The two indices next to the threshold. -/
theorem recursion_fits_up_to_ninety_three_sharp : (93 : UInt64).toNat ≤ 93 ∧
    94 ≤ (94 : UInt64).toNat ∧ naive 93 = .ok 12200160415121876738 ∧
    naive 94 = .error .additionOverflow ∧ (∀ op ∈ (onWords 93).tried, op.Fits) ∧
    ∃ front a b, (onWords 94).tried = front ++ [.add a b] ∧ wordLimit ≤ a.toNat + b.toNat := by
  have hlast : (93 : UInt64).toNat ≤ 93 := by decide
  have hnext : 94 ≤ (94 : UInt64).toNat := by decide
  obtain ⟨-, hvalue, -, hfits, -⟩ := recursion_fits_up_to_ninety_three 93
  obtain ⟨-, hfault, -, -, hlarge, -⟩ := recursion_fits_up_to_ninety_three 94
  obtain ⟨front, a, b, htried, -, hsum⟩ := hlarge hnext
  refine ⟨hlast, hnext, hvalue.trans ?_, hfault, hfits hlast, front, a, b, htried, hsum⟩
  decide

end MicroBench.Proofs.FibonacciWords
