import MicroBench.Binary
import MicroBench.Decimal

namespace MicroBench.Binary

/-- Whether `x` is rounded to `b`. The ends of the interval go to an even mantissa, and below a
power of two the next number down is half as far away. -/
def covers (b : Binary) (x : Rat) : Bool :=
  let unit := power b.exponent
  let low := b.toRat - (if b.mantissa = leastMantissa then unit / 4 else unit / 2)
  let high := b.toRat + unit / 2
  if b.mantissa % 2 = 0 then low ≤ x && x ≤ high else low < x && x < high

/-- The number of digits before the point of a positive number; negative when zeros follow it. -/
def magnitude (x : Rat) : Int :=
  if 1 ≤ x then ((Decimal.digits x.floor.toNat).length : Int)
  else 1 - ((Decimal.digits (x⁻¹.ceil.toNat - 1)).length : Int)

/-- The decimal with `count` digits that is nearest to `b`, if it is rounded to `b`. Of two that
are equally near it is the larger. Given as a whole number and a power of ten. -/
def onGrid (b : Binary) (count : Nat) : Option (Nat × Int) :=
  let x := b.toRat
  let scale := magnitude x - count
  let step := (10 : Rat) ^ scale
  let below := (x / step).floor.toNat
  let low := (below : Rat) * step
  let high := ((below + 1 : Nat) : Rat) * step
  match b.covers low, b.covers high with
  | true, true => some (if x - low < high - x then below else below + 1, scale)
  | true, false => some (below, scale)
  | false, true => some (below + 1, scale)
  | false, false => none

/-- The fewest digits that read back as `b`; 17 always do. -/
def shortest (b : Binary) : Nat × Int :=
  ((List.range' 1 17).findSome? b.onGrid).getD (0, 0)

/-- The shortest decimal that reads back as `b`, never with an exponent. -/
def text (b : Binary) : String :=
  if b.mantissa = 0 then "0"
  else
    let (n, scale) := b.shortest
    if 0 ≤ scale then String.ofList (Decimal.digits n ++ List.replicate scale.toNat '0')
    else Decimal.positional n (-scale).toNat

end MicroBench.Binary
