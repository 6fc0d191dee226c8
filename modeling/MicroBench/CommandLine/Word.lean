namespace MicroBench.CommandLine

/-- A word of the command line, letter by letter. Bytes that do not encode a letter are kept
as `none`. -/
abbrev Word : Type := List (Option Char)

namespace Word

def ofString (s : String) : Word := s.toList.map some

def replacement : Char := '\ufffd'

def letter (c : Option Char) : Char := c.getD replacement

def shown (w : Word) : String := String.ofList (w.map letter)

def wellFormed? (w : Word) : Option String := (w.mapM id).map String.ofList

/-- A letter in the middle of its encoding: the bytes still owed, the bounds of the next one,
and the bits read so far. -/
structure Pending where
  owed : Nat
  least : Nat
  greatest : Nat
  bits : Nat
  deriving DecidableEq, Repr

inductive FirstByte where
  | whole (c : Char)
  | begins (p : Pending)
  | refused

def firstByte (b : Nat) : FirstByte :=
  if b ≤ 0x7f then .whole (Char.ofNat b)
  else if 0xc2 ≤ b && b ≤ 0xdf then .begins ⟨1, 0x80, 0xbf, b - 0xc0⟩
  else if b = 0xe0 then .begins ⟨2, 0xa0, 0xbf, 0⟩
  else if b = 0xed then .begins ⟨2, 0x80, 0x9f, 0xd⟩
  else if 0xe1 ≤ b && b ≤ 0xef then .begins ⟨2, 0x80, 0xbf, b - 0xe0⟩
  else if b = 0xf0 then .begins ⟨3, 0x90, 0xbf, 0⟩
  else if 0xf1 ≤ b && b ≤ 0xf3 then .begins ⟨3, 0x80, 0xbf, b - 0xf0⟩
  else if b = 0xf4 then .begins ⟨3, 0x80, 0x8f, 4⟩
  else .refused

def Pending.holds (p : Pending) (b : Nat) : Bool := p.least ≤ b && b ≤ p.greatest

/-- A letter that is cut short by a byte counts as one `none`, and the byte is read afresh. -/
def decodeFrom : Option Pending → List Nat → Word
  | none, [] => []
  | some _, [] => [none]
  | none, b :: bs =>
    match firstByte b with
    | .whole c => some c :: decodeFrom none bs
    | .begins p => decodeFrom (some p) bs
    | .refused => none :: decodeFrom none bs
  | some p, b :: bs =>
    if p.holds b then
      let bits := 64 * p.bits + (b - 0x80)
      if p.owed ≤ 1 then some (Char.ofNat bits) :: decodeFrom none bs
      else decodeFrom (some ⟨p.owed - 1, 0x80, 0xbf, bits⟩) bs
    else
      none :: match firstByte b with
        | .whole c => some c :: decodeFrom none bs
        | .begins p => decodeFrom (some p) bs
        | .refused => none :: decodeFrom none bs

def ofBytes (bytes : List UInt8) : Word := decodeFrom none (bytes.map UInt8.toNat)

/-- The last part of a path. Blank parts and single dots behind it are passed over, a double
dot names nothing. -/
def fileName (w : Word) : Option Word :=
  let parts := (w.splitOn (some '/')).filter fun part ↦ part != [] && part != [some '.']
  match parts.getLast? with
  | some part => if part == [some '.', some '.'] then none else some part
  | none => none

end Word

end MicroBench.CommandLine
