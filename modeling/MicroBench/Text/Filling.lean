import MicroBench.Text.Blank
import MicroBench.Text.Letters
import MicroBench.Text.Width

namespace MicroBench.Text

/-- The places behind the hyphens of a word that stand between two letters or digits, counted
from `i` on. -/
def hyphensFrom (i : Nat) : List Char → List Nat
  | a :: b :: c :: rest =>
    if b = '-' && isLetterOrDigit a && isLetterOrDigit c then
      (i + 2) :: hyphensFrom (i + 1) (b :: c :: rest)
    else hyphensFrom (i + 1) (b :: c :: rest)
  | _ => []

/-- What of a word may stay on a line, from the least to the whole. -/
def heads (word : List Char) : List (List Char) :=
  (hyphensFrom 0 word).map word.take ++ [word]

def byteSize (cs : List Char) : Nat := cs.foldr (fun c n ↦ c.utf8Size + n) 0

def cutBytes : Nat → List Char → List Char × List Char
  | _, [] => ([], [])
  | 0, cs => ([], cs)
  | n, c :: cs =>
    let cut := cutBytes (n - c.utf8Size) cs
    (c :: cut.1, cut.2)

/-- A line that is being filled: what surely stays on it, the gap at which it may end, and the
text behind the gap, read or not. `used` counts the columns up to the reading point and `mark`
those up to the end of the gap. `mark` is not moved by a break behind a hyphen, so that the line
after it counts as fuller than it is. -/
structure Filling where
  line : List Char := []
  gap : List Char := []
  behind : List Char
  used : Nat := 0
  mark : Nat := 0
  inGap : Bool := false
  deriving DecidableEq, Repr

namespace Filling

def start (text : List Char) : Filling := { behind := text }

/-- Reads a blank, with the text `unread` behind it: the gap begins or goes on. -/
def blank (s : Filling) (c : Char) (unread : List Char) : Filling :=
  let word := s.behind.take (s.behind.length - (unread.length + 1))
  { line := if s.inGap then s.line else s.line ++ s.gap ++ word
    gap := if s.inGap then s.gap ++ [c] else [c]
    behind := unread
    used := s.used + columns c
    mark := s.used + columns c
    inGap := true }

def word (s : Filling) : List Char := s.behind.takeWhile (!isBlank ·)

/-- Moves the longest head of the word that fits onto the line. If nothing is on the line then,
it takes as many bytes as the least head has, whether they fit or not. -/
def settle (limit : Nat) (s : Filling) : Filling :=
  let fitted :=
    match (heads s.word).reverse.find? fun head ↦ s.mark + width head ≤ limit with
    | some head =>
      { s with line := s.line ++ s.gap ++ head, gap := [], behind := s.behind.drop head.length }
    | none => s
  if fitted.line.isEmpty then
    let least := (heads s.word).headD []
    let cut := cutBytes (byteSize least) (fitted.gap ++ fitted.behind)
    { fitted with line := cut.1, gap := [], behind := cut.2, mark := s.used }
  else fitted

/-- Reads on to the end and gives the lines. A character beyond the limit ends the line before
the word it belongs to, or in it. The gap at the end of a line is dropped. -/
def linesFrom (limit : Nat) (s : Filling) : List Char → List (List Char)
  | [] =>
    let last := s.line ++ s.gap ++ s.behind
    if last.isEmpty then [] else [last]
  | c :: unread =>
    if isBlank c then linesFrom limit (s.blank c unread) unread
    else if s.used + columns c ≤ limit then
      linesFrom limit { s with used := s.used + columns c, inGap := false } unread
    else
      let settled := s.settle limit
      if settled.line.isEmpty then
        linesFrom limit { settled with used := s.used + columns c, inGap := false } unread
      else
        let following : Filling :=
          { behind := settled.behind, used := s.used - settled.mark + columns c,
            mark := settled.mark }
        settled.line :: linesFrom limit following unread

end Filling

def fill (limit : Nat) (line : List Char) : List (List Char) :=
  (Filling.start line).linesFrom limit line

/-- The lines of a text. A return is part of the line end that follows it. -/
def lines (text : List Char) : List (List Char) :=
  let parts := text.splitOn '\n'
  let ended := parts.dropLast.map fun line ↦ if line.getLast? = some '\r' then line.dropLast else line
  match parts.getLast? with
  | none | some [] => ended
  | some line => ended ++ [line]

/-- Puts a line feed for each n in braces. -/
def expandBreaks : List Char → List Char
  | '{' :: 'n' :: '}' :: rest => '\n' :: expandBreaks rest
  | c :: rest => c :: expandBreaks rest
  | [] => []

/-- A text as it is shown on a screen of `limit` columns. An empty line stays one. -/
def layOut (limit : Nat) (text : String) : String :=
  let shown := (lines (expandBreaks text.toList)).map fun line ↦
    ['\n'].intercalate (fill limit line)
  String.ofList (['\n'].intercalate shown)

end MicroBench.Text
