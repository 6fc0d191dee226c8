import MicroBench.Proofs.FlipCount

namespace MicroBench.Proofs.FlipExtension

open Flip FlipCount

variable {α β : Type} {f k m more n y : ℕ} {p q rest : List ℕ}

theorem flipTop_append {p : List α} (hk : k < p.length) (t : List α) :
    flipTop k (p ++ t) = flipTop k p ++ t := by
  rw [flipTop, List.take_append_of_le_length hk, List.drop_append_of_le_length hk, flipTop,
    List.append_assoc]

theorem flipTop_map (g : α → β) (k : ℕ) (p : List α) :
    flipTop k (p.map g) = (flipTop k p).map g := by
  simp [flipTop, List.map_take, List.map_drop]

theorem flipTop_ne_nil (k : ℕ) (hp : p ≠ []) : flipTop k p ≠ [] := by
  rw [← List.length_pos_iff, length_flipTop]
  exact List.length_pos_iff.2 hp

theorem settleFrom_append (h : settleFrom .unlimited more p = .ok (f, q)) (hp : p ≠ [])
    (t : List ℕ) : settleFrom .unlimited more (p ++ t) = .ok (f, q ++ t) := by
  fun_induction settleFrom .unlimited more p with
  | case1 => exact absurd rfl hp
  | case2 more rest =>
    obtain ⟨rfl, rfl⟩ := Prod.mk.inj (Except.ok.inj h)
    rw [List.cons_append, settleFrom]
  | case3 => cases h
  | case4 => cases h
  | case5 => cases h
  | case6 more k rest y hk hy counted hcounted ih =>
    obtain rfl := Except.ok.inj hcounted
    have hlt := (List.getElem?_eq_some_iff.1 hk).1
    have hk' : (rest ++ t)[k]? = some y := by
      rw [List.getElem?_append_left hlt, hk]
    have hflip := flipTop_append (p := (k + 1) :: rest) (Nat.succ_lt_succ hlt) t
    rw [List.cons_append] at hflip ⊢
    rw [settleFrom_flip_unlimited hk' hy, hflip]
    exact ih h (flipTop_ne_nil _ hp)

theorem flips_append (h : p.Perm (List.range n)) (hp : p ≠ []) (t : List ℕ) :
    flips (p ++ t) = flips p := by
  obtain ⟨q, hq, -⟩ := settle_of_perm h
  exact flips_of_settle (settleFrom_append hq hp t)

/-- The arrangement of one entry more in which a new greatest entry `m` stands for 0, and 0 lies
at the bottom. It takes the same flips until `m` is on top, and then one more. -/
def raise (m : ℕ) (p : List ℕ) : List ℕ := p.map (fun x ↦ if x = 0 then m else x) ++ [0]

theorem raise_cons_succ (m k : ℕ) (rest : List ℕ) :
    raise m ((k + 1) :: rest) = (k + 1) :: raise m rest := by
  simp [raise]

theorem flipTop_raise (hk : k < p.length) (m : ℕ) :
    flipTop k (raise m p) = raise m (flipTop k p) := by
  rw [raise, flipTop_append (by rwa [List.length_map]), flipTop_map, raise]

theorem settleFrom_raise_zero (more : ℕ) (rest : List ℕ) :
    ∃ r, settleFrom .unlimited more (raise (rest.length + 1) (0 :: rest)) = .ok (more + 1, r) := by
  let middle := rest.map fun x ↦ if x = 0 then rest.length + 1 else x
  have hlen : middle.length = rest.length := List.length_map _
  have hraise : raise (rest.length + 1) (0 :: rest) =
      (middle.length + 1) :: (middle ++ [0]) := by
    simp [raise, middle]
  have hbottom : (middle ++ [0])[middle.length]? = some 0 := by simp
  have hflip := flipTop_eq (middle.length + 1) middle 0 []
  rw [List.cons_append] at hflip
  rw [hraise, settleFrom_flip_unlimited hbottom (Nat.succ_ne_zero _).symm, hflip,
    List.cons_append]
  exact ⟨_, by rw [settleFrom]⟩

theorem settleFrom_raise (h : settleFrom .unlimited more p = .ok (f, q)) (hp : p ≠ [])
    (hm : p.length = m) : ∃ r, settleFrom .unlimited more (raise m p) = .ok (f + 1, r) := by
  fun_induction settleFrom .unlimited more p with
  | case1 => exact absurd rfl hp
  | case2 more rest =>
    obtain ⟨rfl, rfl⟩ := Prod.mk.inj (Except.ok.inj h)
    subst hm
    exact settleFrom_raise_zero more rest
  | case3 => cases h
  | case4 => cases h
  | case5 => cases h
  | case6 more k rest y hk hy counted hcounted ih =>
    obtain rfl := Except.ok.inj hcounted
    have hlt := (List.getElem?_eq_some_iff.1 hk).1
    have hdeep : k + 1 < m := by
      rw [← hm, List.length_cons]
      omega
    have hk' : (raise m rest)[k]? = some (if y = 0 then m else y) := by
      rw [raise, List.getElem?_append_left (by rwa [List.length_map]), List.getElem?_map, hk,
        Option.map_some]
    -- the new entry names a deeper position than any entry that calls before it
    have hy' : (if y = 0 then m else y) ≠ k + 1 := by
      split <;> omega
    rw [raise_cons_succ, settleFrom_flip_unlimited hk' hy', ← raise_cons_succ,
      flipTop_raise (Nat.succ_lt_succ hlt)]
    exact ih h (flipTop_ne_nil _ hp) (by rw [length_flipTop, hm])

theorem flips_raise (h : p.Perm (List.range (n + 1))) : flips (raise (n + 1) p) = flips p + 1 := by
  obtain ⟨q, hq, -⟩ := settle_of_perm h
  have hlen : p.length = n + 1 := by rw [h.length_eq, List.length_range]
  obtain ⟨r, hr⟩ := settleFrom_raise hq (List.ne_nil_of_length_eq_add_one hlen) hlen
  exact flips_of_settle hr

theorem raise_range (n : ℕ) :
    raise (n + 1) (List.range (n + 1)) = (n + 1) :: (List.range n).map (· + 1) ++ [0] := by
  rw [raise, List.range_succ_eq_map, List.map_cons, List.map_map]
  rfl

theorem raise_perm (h : p.Perm (List.range (n + 1))) :
    (raise (n + 1) p).Perm (List.range (n + 2)) := by
  have hraise : (raise (n + 1) p).Perm (raise (n + 1) (List.range (n + 1))) :=
    (h.map _).append_right [0]
  have hrange : List.range (n + 2) = 0 :: (List.range n).map (· + 1) ++ [n + 1] := by
    rw [List.range_succ, List.range_succ_eq_map]
  refine hraise.trans ?_
  rw [raise_range, hrange]
  have htop := List.perm_append_singleton (n + 1) ((List.range n).map (· + 1) ++ [0])
  have hbottom := List.perm_append_singleton 0 ((List.range n).map (· + 1))
  exact htop.symm.trans (hbottom.append_right [n + 1])

end MicroBench.Proofs.FlipExtension
