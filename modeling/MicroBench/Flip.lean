import MicroBench.Registers

namespace MicroBench.Flip

variable {α : Type}

def flipTop (k : Nat) (p : List α) : List α :=
  (p.take (k + 1)).reverse ++ p.drop (k + 1)

theorem flipTop_eq (x : α) (middle : List α) (y : α) (below : List α) :
    flipTop (middle.length + 1) (x :: middle ++ y :: below) =
      y :: middle.reverse ++ x :: below := by
  have h : x :: middle ++ y :: below = (x :: middle ++ [y]) ++ below := by simp
  have hl : (x :: middle ++ [y]).length = middle.length + 1 + 1 := by simp
  rw [flipTop, h, ← hl, List.take_left, List.drop_left]
  simp

theorem flipTop_perm (k : Nat) (p : List α) : (flipTop k p).Perm p := by
  have h := (List.reverse_perm (p.take (k + 1))).append_right (p.drop (k + 1))
  rwa [List.take_append_drop] at h

theorem length_flipTop (k : Nat) (p : List α) : (flipTop k p).length = p.length :=
  (flipTop_perm k p).length_eq

theorem split_at_entry {k : Nat} {rest : List α} {y : α} (h : rest[k]? = some y) :
    ∃ middle below, rest = middle ++ y :: below ∧ middle.length = k := by
  obtain ⟨hk, rfl⟩ := List.getElem?_eq_some_iff.1 h
  exact ⟨rest.take k, rest.drop (k + 1), by simp, by simp; omega⟩

/-- The entries out of place, those from position `i` on weighing 1, 2, 4, and so on. -/
def misplaced : Nat → List Nat → Nat
  | _, [] => 0
  | i, x :: xs => (if x = i then 0 else 1) + 2 * misplaced (i + 1) xs

theorem misplaced_lt (i : Nat) (xs : List Nat) : misplaced i xs < 1 <<< xs.length := by
  induction xs generalizing i with
  | nil => simp [misplaced]
  | cons x xs ih =>
    have h := ih (i + 1)
    simp only [misplaced, List.length_cons, Nat.shiftLeft_succ]
    split <;> omega

theorem misplaced_append (i : Nat) (xs ys : List Nat) :
    misplaced i (xs ++ ys) = misplaced i xs + (1 <<< xs.length) * misplaced (i + xs.length) ys := by
  induction xs generalizing i with
  | nil => simp [misplaced]
  | cons x xs ih =>
    simp only [List.cons_append, misplaced, ih (i + 1), List.length_cons, Nat.shiftLeft_succ,
      Nat.add_right_comm i 1, Nat.add_assoc]
    grind

/-- A flip that puts an entry into its place outweighs all it disturbs above. -/
theorem misplaced_flip {middle : List Nat} {y : Nat} (below : List Nat)
    (hy : y ≠ middle.length + 1) :
    misplaced 1 (middle.reverse ++ (middle.length + 1) :: below) <
      misplaced 1 (middle ++ y :: below) := by
  have h := misplaced_lt 1 middle.reverse
  rw [List.length_reverse] at h
  rw [misplaced_append, misplaced_append, List.length_reverse]
  simp only [misplaced, Nat.add_comm 1 middle.length, hy, if_true, if_false, Nat.mul_add]
  omega

theorem misplaced_flipTop {k : Nat} {rest : List Nat} {y : Nat} (hk : rest[k]? = some y)
    (hy : y ≠ k + 1) :
    misplaced 1 (flipTop (k + 1) ((k + 1) :: rest)).tail < misplaced 1 rest := by
  obtain ⟨middle, below, rfl, rfl⟩ := split_at_entry hk
  have h := flipTop_eq (middle.length + 1) middle y below
  rw [List.cons_append] at h
  rw [h]
  exact misplaced_flip below hy

/-- What flipping comes to that would repeat for ever: a checked register runs over. -/
def endless (registers : Registers) (index : Nat) : Fault :=
  match registers with
  | .checked => .additionOverflow
  | .unlimited | .wrapping => .endless index

/-- Flips until 0 is on top, each flip reversing the entries down to the position that the top
entry names. Gives the number of flips, added in a register of 32 bits to those counted before, and
the entries as they lie then. -/
def settleFrom (registers : Registers) (flips : Nat) : List Nat → Except Fault (Nat × List Nat)
  | [] => .ok (flips, [])
  | 0 :: rest => .ok (flips, 0 :: rest)
  | (k + 1) :: rest =>
    match hk : rest[k]? with
    | none => .error (.outOfRange (k + 1) (rest.length + 1))
    | some y =>
      -- an entry on top that also lies in the place it names comes back on top with every flip
      if hy : y = k + 1 then .error (endless registers (k + 1))
      else
        match registers.increment 32 flips with
        | .error fault => .error fault
        | .ok flips => settleFrom registers flips (flipTop (k + 1) ((k + 1) :: rest))
termination_by p => misplaced 1 p.tail
decreasing_by exact misplaced_flipTop hk hy

def settle (registers : Registers) (p : List Nat) : Except Fault (Nat × List Nat) :=
  settleFrom registers 0 p

def count (registers : Registers) (p : List Nat) : Except Fault Nat :=
  (settle registers p).map Prod.fst

theorem settleFrom_flip (registers : Registers) {flips k y : Nat} {rest : List Nat}
    (h : rest[k]? = some y) (hy : y ≠ k + 1) : settleFrom registers flips ((k + 1) :: rest) =
      (registers.increment 32 flips).bind fun flips ↦
        settleFrom registers flips (flipTop (k + 1) ((k + 1) :: rest)) := by
  rw [settleFrom]
  split
  · simp_all
  · rename_i z hz
    obtain rfl : z = y := Option.some.inj (hz.symm.trans h)
    rw [dif_neg hy]
    cases registers.increment 32 flips <;> rfl

theorem settleFrom_flip_unlimited {flips k y : Nat} {rest : List Nat} (h : rest[k]? = some y)
    (hy : y ≠ k + 1) : settleFrom .unlimited flips ((k + 1) :: rest) =
      settleFrom .unlimited (flips + 1) (flipTop (k + 1) ((k + 1) :: rest)) :=
  settleFrom_flip .unlimited h hy

theorem count_nil (registers : Registers) : count registers [] = .ok 0 := by
  simp [count, settle, settleFrom, Except.map]

theorem count_zero (registers : Registers) (rest : List Nat) :
    count registers (0 :: rest) = .ok 0 := by
  simp [count, settle, settleFrom, Except.map]

end MicroBench.Flip
