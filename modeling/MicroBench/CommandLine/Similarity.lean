namespace MicroBench.CommandLine.Similarity

/-- Where the letters of a word find themselves in `other`: each at the first free place that
is at most `range` away from its own. -/
def placesFrom (range : Nat) (other : List Char) : Nat → List Nat → List Char → List Nat
  | _, taken, [] => taken.reverse
  | i, taken, c :: cs =>
    let free := (List.range other.length).find? fun j ↦
      decide (i ≤ j + range) && decide (j ≤ i + range) && other[j]? == some c && !taken.contains j
    match free with
    | some j => placesFrom range other (i + 1) (j :: taken) cs
    | none => placesFrom range other (i + 1) taken cs

def places (word other : List Char) : List Nat :=
  placesFrom (max word.length other.length / 2 - 1) other 0 [] word

/-- How often a place lies before the place found just ahead of it. -/
def stepsBack : List Nat → Nat
  | i :: j :: js => (if j < i then 1 else 0) + stepsBack (j :: js)
  | _ => 0

/-- The mean of three shares: of each word's letters that are found in the other, and of the
letters found that are in order. -/
def shares (word other : List Char) : Rat :=
  let found := places word other
  let m : Rat := found.length
  if found.isEmpty then 0
  else (m / word.length + m / other.length + (m - stepsBack found) / m) / 3

def commonStart : List Char → List Char → Nat
  | c :: cs, d :: ds => if c = d then commonStart cs ds + 1 else 0
  | _, _ => 0

/-- The likeness of two words that are not both empty, 1 at most. Each letter of a common start
makes up a tenth of what is missing. -/
def likeness (word other : List Char) : Rat :=
  let s := shares word other
  let raised := s + (commonStart word other : Rat) / 10 * (1 - s)
  if raised ≤ 1 then raised else 1

def threshold : Rat := 4 / 5

/-- The candidate most like `word`, the first one of several. -/
def closest (word : List Char) (candidates : List (List Char)) : Option (List Char) :=
  let better (best : Option (List Char)) (candidate : List Char) : Option (List Char) :=
    if likeness word candidate ≤ threshold then best
    else
      match best with
      | none => some candidate
      | some b => if likeness word b < likeness word candidate then some candidate else best
  candidates.foldl better none

end MicroBench.CommandLine.Similarity
