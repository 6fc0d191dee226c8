namespace MicroBench

structure Binary where
  mantissa : Nat
  exponent : Int
  deriving DecidableEq, Repr

namespace Binary

def zero : Binary := ⟨0, 0⟩

/-- A positive number has 53 significant bits, so its mantissa lies from here to twice this. -/
def leastMantissa : Nat := 1 <<< 52

def power (e : Int) : Rat := (2 : Rat) ^ e

def toRat (b : Binary) : Rat := (b.mantissa : Rat) * power b.exponent

/-- The nearest whole number, of two equally near the even one. -/
def roundEven (x : Rat) : Nat :=
  let whole := x.floor.toNat
  let rest := x - (whole : Rat)
  if rest < 1 / 2 then whole
  else if 1 / 2 < rest then whole + 1
  else whole + whole % 2

/-- The exponent for which a positive number has 53 bits before the point. -/
def exponentOf (x : Rat) : Int :=
  let guess : Int := (Nat.log2 x.num.toNat : Int) - (Nat.log2 x.den : Int)
  if x < power guess then guess - 53 else guess - 52

def nearest (x : Rat) : Binary :=
  if x ≤ 0 then zero
  else
    let exponent := exponentOf x
    let mantissa := roundEven (x / power exponent)
    if mantissa = 2 * leastMantissa then ⟨leastMantissa, exponent + 1⟩ else ⟨mantissa, exponent⟩

def add (a b : Binary) : Binary := nearest (a.toRat + b.toRat)

def divide (a b : Binary) : Binary := nearest (a.toRat / b.toRat)

def ofNat (n : Nat) : Binary := nearest n

end Binary

end MicroBench
