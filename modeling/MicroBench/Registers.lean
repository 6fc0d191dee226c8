import MicroBench.Fault

namespace MicroBench

/-- What becomes of a number too large for its register: it is kept all the same, it is a fault,
or its highest bits are lost. -/
inductive Registers where
  | unlimited
  | checked
  | wrapping
  deriving DecidableEq, Repr

namespace Registers

variable {registers : Registers} {bits x : Nat} {fault : Fault}

/-- Puts a number into a register of so many bits. -/
def put (registers : Registers) (bits x : Nat) : Except Fault Nat :=
  match registers with
  | unlimited => .ok x
  -- of a number that fits nothing is left above the register; `put_checked` says so by its bound
  | checked => if x >>> bits = 0 then .ok x else .error .additionOverflow
  | wrapping => .ok (x % 1 <<< bits)

def increment (registers : Registers) (bits x : Nat) : Except Fault Nat :=
  registers.put bits (x + 1)

/-- Puts a number into a register of which one bit is for the sign. -/
def putSigned (registers : Registers) (bits : Nat) (overflow : Fault) (x : Int) :
    Except Fault Int :=
  match registers with
  | unlimited => .ok x
  | checked =>
    let half : Int := (1 <<< (bits - 1) : Nat)
    if -half ≤ x ∧ x < half then .ok x else .error overflow
  | wrapping => .ok (x.bmod (1 <<< bits))

/-- The sum with one more term, in a register of 64 bits. -/
def addTerm (registers : Registers) (checksum : Int) (even : Bool) (flips : Nat) :
    Except Fault Int :=
  if even then registers.putSigned 64 .additionOverflow (checksum + flips)
  else registers.putSigned 64 .subtractionOverflow (checksum - flips)

theorem put_checked (bits x : Nat) :
    checked.put bits x = if x < 1 <<< bits then .ok x else .error .additionOverflow := by
  have hpos := Nat.two_pow_pos bits
  have hfits : x >>> bits = 0 ↔ x < 1 <<< bits := by
    rw [Nat.shiftRight_eq_div_pow, Nat.one_shiftLeft, Nat.div_eq_zero_iff]
    omega
  simp only [put, hfits]

theorem put_of_lt (registers : Registers) (h : x < 1 <<< bits) :
    registers.put bits x = .ok x := by
  cases registers with
  | unlimited => rfl
  | checked => rw [put_checked, if_pos h]
  | wrapping => rw [put, Nat.mod_eq_of_lt h]

theorem put_zero (registers : Registers) (bits : Nat) : registers.put bits 0 = .ok 0 := by
  have hroom : 0 < 1 <<< bits := by
    rw [Nat.one_shiftLeft]
    exact Nat.two_pow_pos bits
  exact registers.put_of_lt hroom

theorem put_eq_error_iff : registers.put bits x = .error fault ↔
    registers = checked ∧ 1 <<< bits ≤ x ∧ fault = .additionOverflow := by
  cases registers with
  | unlimited => simp [put]
  | wrapping => simp [put]
  | checked =>
    rw [put_checked]
    split
    · rename_i h
      simp [Nat.not_le.2 h]
    · rename_i h
      simp [Nat.le_of_not_lt h, eq_comm]

theorem exists_put_iff :
    (∃ y, registers.put bits x = .ok y) ↔ (registers = checked → x < 1 <<< bits) := by
  cases registers with
  | unlimited => simp [put]
  | checked => by_cases h : x < 1 <<< bits <;> simp [put_checked, h]
  | wrapping => simp [put]

/-- A register that is incremented from 0 on holds, and fails to hold, what is put into it at
once. -/
theorem put_succ (registers : Registers) (bits x : Nat) :
    registers.put bits (x + 1) = (registers.put bits x).bind (registers.increment bits) := by
  cases registers with
  | unlimited => rfl
  | checked =>
    by_cases h : x < 1 <<< bits
    · rw [put_of_lt checked h]
      rfl
    · have h' : ¬ x + 1 < 1 <<< bits := fun hx ↦ h (Nat.lt_of_succ_lt hx)
      rw [put_checked, put_checked, if_neg h, if_neg h']
      rfl
  | wrapping =>
    change Except.ok ((x + 1) % 1 <<< bits) = Except.ok ((x % 1 <<< bits + 1) % 1 <<< bits)
    rw [Nat.mod_add_mod]

end Registers

end MicroBench
