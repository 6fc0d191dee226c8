namespace MicroBench.Decimal

def digits (n : Nat) : List Char := (toString n).toList

def dropTrailingZeros (ds : List Char) : List Char :=
  (ds.reverse.dropWhile (· == '0')).reverse

/-- The digits of a whole number of units, of which `10 ^ places` make one. The digits behind
the point lose their trailing zeros, and with the last of them the point. -/
def positional (n places : Nat) : String :=
  let ds := digits n
  let padded := List.replicate (places + 1 - ds.length) '0' ++ ds
  let whole := padded.take (padded.length - places)
  match dropTrailingZeros (padded.drop (padded.length - places)) with
  | [] => String.ofList whole
  | behind => String.ofList (whole ++ '.' :: behind)

end MicroBench.Decimal
