import MicroBench.Text.Columns
import MicroBench.Text.Emoji

namespace MicroBench.Text

/-- The letters alef, as runs of code points. -/
def alefs : List Nat :=
  [1570, 2, 1, 1, 1, 1, 73, 3, 1, 1, 253, 2, 251, 19]

/-- The letters lam, which form one sign with an alef behind them. -/
def lams : List Nat :=
  [1604, 1, 112, 4, 177, 1, 315, 1, 32, 1]

/-- Letters that are written below the letter before them if a coeng stands between. -/
def subjoined : List Nat :=
  [6016, 3, 1, 4, 1, 4, 1, 6, 1, 4, 2, 3, 2, 1, 1, 1, 4, 1, 3, 2, 2, 1]

/-- Characters without columns of their own across which lam and alef are not joined. -/
def parting : List Nat :=
  [1541, 1, 650, 2, 80, 1, 219, 1, 24, 1, 358, 1, 24, 1, 102, 1, 24, 1, 232, 1, 1, 1, 4, 2, 1, 2,
   9, 2, 103, 1, 15, 1, 8, 1, 119, 1, 15, 1, 896, 160, 1550, 1, 806, 1, 5, 1, 1, 1, 5, 1, 1224, 2,
   87, 5, 4036, 2, 308, 1, 30613, 1, 11957, 23, 4, 49, 10146, 3, 79, 9, 4553, 2, 378, 1, 24, 1,
   344, 1, 12, 1, 241, 1, 896, 1, 14, 1, 1, 1, 248, 1, 73, 6, 700, 1, 443, 1, 45666, 1, 8, 5,
   798349, 1, 1, 30, 96, 128, 240, 3600]

def isAlef (c : Char) : Bool := holds alefs c.toNat

def isLam (c : Char) : Bool := holds lams c.toNat

def isSubjoined (c : Char) : Bool := holds subjoined c.toNat

def isTifinagh (c : Char) : Bool :=
  (0x2d31 ≤ c.toNat && c.toNat ≤ 0x2d65) || c == '\u2d6f'

/-- Joiners, selectors and marks that stand inside a ligature without a part in it. -/
def isInvisible (c : Char) : Bool :=
  let n := c.toNat
  n == 0x34f || n == 0x17b4 || n == 0x17b5 || (0x180b ≤ n && n ≤ 0x180d) || n == 0x180f ||
    isJoiner c || (0xfe00 ≤ n && n ≤ 0xfe0f) || (0xe0100 ≤ n && n ≤ 0xe01ef)

/-- The end of what may become a ligature, when it is read from the last character on. -/
inductive Ligature
  | alef
  | lamed
  | ya
  | signedYa
  | tifinagh
  | boundTifinagh
  | tone
  | orkhonI
  | subjoined
  deriving DecidableEq, Repr

namespace Ligature

def ofChar? (c : Char) : Option Ligature :=
  if isAlef c then some alef
  else if c = '\u05dc' then some lamed
  else if c = '\u1a10' then some ya
  else if isTifinagh c then some tifinagh
  else if c = '\ua4fc' ∨ c = '\ua4fd' then some tone
  else if c.toNat = 0x10c03 then some orkhonI
  else if isSubjoined c then some subjoined
  else none

/-- Whether the ligature may go on before `c`, which has no part in it. -/
def skips (l : Ligature) (c : Char) : Bool :=
  if l = alef then isUnspaced c && !holds parting c.toNat else isInvisible c

/-- The columns that `c` adds to a ligature, and what it makes of it. Some letters take part only
if a joiner stands behind them, as `joined` tells. A negative number gives back columns of the
letters behind. -/
def extend? (l : Ligature) (joined : Bool) (c : Char) : Option (Int × Option Ligature) :=
  match l with
  | alef => if isLam c then some (0, none) else none
  | lamed => if joined && c == '\u05d0' then some (0, none) else none
  | ya => if joined && c == '\u1a17' then some (0, some signedYa) else none
  | signedYa => if c = '\u1a15' then some (0, none) else none
  | tifinagh =>
    if c = '\u2d7f' then some (1, some boundTifinagh)
    else if joined && isTifinagh c then some (0, none)
    else none
  | boundTifinagh => if isTifinagh c then some (-1, none) else none
  | tone => if 0xa4f8 ≤ c.toNat ∧ c.toNat ≤ 0xa4fb then some (0, none) else none
  | orkhonI => if joined && c.toNat == 0x10c32 then some (0, none) else none
  | subjoined => if c = '\u17d2' then some (-1, none) else none

end Ligature

end MicroBench.Text
