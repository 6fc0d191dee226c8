import MicroBench.Flip

namespace MicroBench.Flip

variable {α : Type} {registers : Registers} {name : α → Nat} {fault : Fault} {c d i j : Nat}
  {p q : List α} {s t u : Nat × List α}

/-- What one round of flipping comes to. A round that is made leaves the flips counted so far, as
their register shows them, and the entries. -/
inductive Round (α : Type) where
  | settled
  | fault (fault : Fault)
  | flipped (next : Nat × List α)
  deriving DecidableEq, Repr

def Round.map {β : Type} (g : Nat × List α → Nat × List β) : Round α → Round β
  | .settled => .settled
  | .fault cause => .fault cause
  | .flipped t => .flipped (g t)

/-- One round, made whatever it brings on top. The entries may carry more than the positions that
they name. -/
def Round.of (registers : Registers) (name : α → Nat) : Nat × List α → Round α
  | (_, []) => .settled
  | (flips, x :: rest) =>
    if name x = 0 then .settled
    else if name x < (x :: rest).length then
      match registers.increment 32 flips with
      | .error fault => .fault fault
      | .ok flips => .flipped (flips, flipTop (name x) (x :: rest))
    else .fault (.outOfRange (name x) (x :: rest).length)

/-- The flips counted and the entries after `i` rounds, and nothing if fewer are made. -/
def afterFlips (registers : Registers) (name : α → Nat) :
    Nat → Nat × List α → Option (Nat × List α)
  | 0, s => some s
  | i + 1, s =>
    match Round.of registers name s with
    | .flipped t => afterFlips registers name i t
    | _ => none

theorem Round.of_eq_settled_iff :
    Round.of registers name s = .settled ↔ ∀ x, s.2.head? = some x → name x = 0 := by
  obtain ⟨c, p⟩ := s
  cases p with
  | nil => simp [Round.of]
  | cons x rest =>
    rw [Round.of]
    split
    · simp_all
    · split
      · cases registers.increment 32 c <;> simp_all
      · simp_all

theorem Round.of_eq_flipped_iff : Round.of registers name s = .flipped t ↔
    ∃ x, s.2.head? = some x ∧ name x ≠ 0 ∧ name x < s.2.length ∧
      registers.increment 32 s.1 = .ok t.1 ∧ t.2 = flipTop (name x) s.2 := by
  obtain ⟨c, p⟩ := s
  obtain ⟨d, q⟩ := t
  cases p with
  | nil => simp [Round.of]
  | cons x rest =>
    simp only [Round.of, List.head?_cons, Option.some.injEq, exists_eq_left']
    generalize (x :: rest).length = n
    split
    · rename_i hzero
      simp [hzero]
    · rename_i hne
      split
      · rename_i hlt
        cases registers.increment 32 c with
        | error fault => simp
        | ok flips => simp [hne, hlt, eq_comm]
      · rename_i hlt
        simp [hlt]

theorem Round.of_eq_fault_iff : Round.of registers name s = .fault fault ↔
    ∃ x, s.2.head? = some x ∧
      (s.2.length ≤ name x ∧ fault = .outOfRange (name x) s.2.length ∨
        name x ≠ 0 ∧ name x < s.2.length ∧ registers.increment 32 s.1 = .error fault) := by
  obtain ⟨c, p⟩ := s
  cases p with
  | nil => simp [Round.of]
  | cons x rest =>
    have hpos : ¬ (x :: rest).length ≤ 0 := Nat.not_le.2 (Nat.succ_pos rest.length)
    simp only [Round.of, List.head?_cons, Option.some.injEq, exists_eq_left']
    generalize (x :: rest).length = n at hpos ⊢
    split
    · rename_i hzero
      simp only [hzero, hpos]
      simp
    · rename_i hne
      split
      · rename_i hlt
        have hge : ¬ n ≤ name x := Nat.not_le.2 hlt
        cases registers.increment 32 c with
        | error cause => simp [hne, hlt, hge]
        | ok flips => simp [hge]
      · rename_i hlt
        have hge : n ≤ name x := Nat.le_of_not_lt hlt
        simp [hlt, hge, eq_comm]

theorem afterFlips_succ_eq_some_iff : afterFlips registers name (i + 1) s = some u ↔
    ∃ t, Round.of registers name s = .flipped t ∧ afterFlips registers name i t = some u := by
  rw [afterFlips]
  cases Round.of registers name s <;> simp

theorem afterFlips_perm (h : afterFlips registers name i s = some t) : t.2.Perm s.2 := by
  induction i generalizing s with
  | zero =>
    obtain rfl := Option.some.inj h
    exact .refl _
  | succ i ih =>
    obtain ⟨r, hr, ht⟩ := afterFlips_succ_eq_some_iff.1 h
    obtain ⟨x, -, -, -, -, hflip⟩ := Round.of_eq_flipped_iff.1 hr
    have hperm := ih ht
    rw [hflip] at hperm
    exact hperm.trans (flipTop_perm _ _)

theorem length_afterFlips (h : afterFlips registers name i s = some t) :
    t.2.length = s.2.length :=
  (afterFlips_perm h).length_eq

theorem afterFlips_add (h : afterFlips registers name i s = some t) (j : Nat) :
    afterFlips registers name (i + j) s = afterFlips registers name j t := by
  induction i generalizing s with
  | zero =>
    obtain rfl := Option.some.inj h
    rw [Nat.zero_add]
  | succ i ih =>
    obtain ⟨r, hr, ht⟩ := afterFlips_succ_eq_some_iff.1 h
    rw [Nat.add_right_comm, afterFlips, hr]
    exact ih ht

theorem exists_afterFlips_of_le (h : afterFlips registers name j s = some t) (hij : i ≤ j) :
    ∃ u, afterFlips registers name i s = some u := by
  induction i generalizing j s with
  | zero => exact ⟨s, rfl⟩
  | succ i ih =>
    obtain ⟨j, rfl⟩ := Nat.exists_eq_add_of_le' (Nat.one_le_of_lt hij)
    obtain ⟨r, hr, hj⟩ := afterFlips_succ_eq_some_iff.1 h
    obtain ⟨u, hu⟩ := ih hj (Nat.le_of_succ_le_succ hij)
    exact ⟨u, afterFlips_succ_eq_some_iff.2 ⟨r, hr, hu⟩⟩

theorem afterFlips_succ_last : afterFlips registers name (i + 1) s = some u ↔
    ∃ t, afterFlips registers name i s = some t ∧ Round.of registers name t = .flipped u := by
  induction i generalizing s with
  | zero =>
    rw [afterFlips_succ_eq_some_iff]
    simp [afterFlips]
  | succ i ih =>
    rw [afterFlips_succ_eq_some_iff]
    constructor
    · rintro ⟨r, hr, hu⟩
      obtain ⟨t, ht, hlast⟩ := ih.1 hu
      exact ⟨t, afterFlips_succ_eq_some_iff.2 ⟨r, hr, ht⟩, hlast⟩
    · rintro ⟨t, ht, hlast⟩
      obtain ⟨r, hr, hrt⟩ := afterFlips_succ_eq_some_iff.1 ht
      exact ⟨r, hr, ih.2 ⟨t, hrt, hlast⟩⟩

/-- The register makes no difference to the entries, only to how long there is a count. -/
theorem afterFlips_eq_some_iff : afterFlips registers name i (0, p) = some (c, q) ↔
    registers.put 32 i = .ok c ∧ afterFlips .unlimited name i (0, p) = some (i, q) := by
  induction i generalizing c q with
  | zero => simp [afterFlips, registers.put_zero, eq_comm]
  | succ i ih =>
    rw [afterFlips_succ_last, afterFlips_succ_last, registers.put_succ]
    constructor
    · rintro ⟨⟨d, r⟩, hr, hlast⟩
      obtain ⟨hd, hexact⟩ := ih.1 hr
      obtain ⟨x, hx, hne, hlt, hc, hq⟩ := Round.of_eq_flipped_iff.1 hlast
      rw [hd]
      exact ⟨hc, ⟨i, r⟩, hexact, Round.of_eq_flipped_iff.2 ⟨x, hx, hne, hlt, rfl, hq⟩⟩
    · rintro ⟨hput, ⟨k, r⟩, hexact, hlast⟩
      obtain ⟨x, hx, hne, hlt, hk, hq⟩ := Round.of_eq_flipped_iff.1 hlast
      obtain rfl : k = i := Nat.succ.inj (Except.ok.inj hk)
      cases hd : registers.put 32 k with
      | error fault =>
        rw [hd] at hput
        cases hput
      | ok d =>
        rw [hd] at hput
        exact ⟨⟨d, r⟩, ih.2 ⟨hd, hexact⟩, Round.of_eq_flipped_iff.2 ⟨x, hx, hne, hlt, hput, hq⟩⟩

end MicroBench.Flip
