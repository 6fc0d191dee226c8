import MicroBench.Text.Ligature

namespace MicroBench.Text

/-- The sequence that the text behind a place begins with, as far as it matters to the character
at the place. A joined sequence begins with a joiner, or with flag letters before one: two of them
are a flag that is part of the picture, and an odd one is not. -/
inductive Sequence
  | plain
  | lineFeed
  | ligature (l : Ligature) (joined : Bool)
  | picture
  | skinTone
  | flagLetter
  | flagLetters
  | joinedPicture (keycap : Bool)
  | joinedFlagLetter
  | joinedFlags (odd : Bool)
  | tags (letters digits : Nat)
  deriving DecidableEq, Repr

namespace Sequence

def ofChar (c : Char) : Sequence :=
  if c = '\n' then lineFeed
  else if isFlagLetter c then flagLetter
  else if isSkinTone c then skinTone
  else if isEmoji c then picture
  else
    match Ligature.ofChar? c with
    | some l => ligature l false
    | none => plain

/-- The columns that `c` adds to a sequence that it belongs to, and the longer sequence. A
negative number gives back columns of the characters behind. -/
def extend? (s : Sequence) (c : Char) : Option (Int × Sequence) :=
  match s with
  | plain | lineFeed | joinedPicture true => none
  | ligature l joined =>
    if l.skips c then some (0, ligature l (joined || isJoiner c))
    else
      match l.extend? joined c with
      | some (n, some l) => some (n, ligature l false)
      | some (n, none) => some (n, plain)
      | none => none
  | picture => if isJoiner c then some (0, joinedPicture false) else none
  | skinTone =>
    if isToned c then some (0, picture)
    else if isJoiner c then some (0, joinedPicture false)
    else none
  | flagLetter => if isFlagLetter c then some (1, flagLetters) else none
  | flagLetters =>
    if isFlagLetter c then some (1, flagLetters)
    else if isJoiner c then some (0, joinedPicture false)
    else none
  | joinedPicture false =>
    if isKeycap c then some (0, joinedPicture true)
    else if isFlagLetter c then some (1, joinedFlagLetter)
    else if isSkinTone c then some (0, skinTone)
    else if isTagEnd c then some (0, tags 0 0)
    else if isEmoji c then some (0, picture)
    else none
  | joinedFlagLetter => if isFlagLetter c then some (-1, joinedFlags false) else none
  | joinedFlags odd =>
    if isFlagLetter c then some (if odd then -1 else 3, joinedFlags !odd)
    else if isJoiner c then some (0, joinedPicture false)
    else none
  | tags letters digits =>
    if isTagLetter c && digits == 0 && letters < 6 then some (0, tags (letters + 1) 0)
    else if isTagDigit c && ((digits == 0 && letters < 5) || digits == 1 || digits == 2) then
      some (0, tags letters (digits + 1))
    else if isBlackFlag c && ((digits == 0 && 3 ≤ letters) || digits == 3) then some (0, picture)
    else none

end Sequence

/-- What of the text behind a place bears on the character at the place: the sequence it begins
with, and whether a selector before the sequence asks for a picture or for text. -/
structure Following where
  sequence : Sequence := .plain
  asPicture : Bool := false
  asText : Bool := false
  deriving DecidableEq, Repr

namespace Following

/-- A selector for pictures. Of sequences only ligatures and joined pictures outlast it. -/
def selectPicture (s : Following) : Following :=
  match s.sequence with
  | .ligature .. | .joinedPicture _ => { s with asPicture := true }
  | _ => { asPicture := true }

def selectText (s : Following) : Following :=
  match s.sequence with
  | .ligature .. => { s with asText := true }
  | _ => { asText := true }

/-- No picture stands where one was asked for. -/
def dropPicture (s : Following) : Following :=
  match s.asPicture, s.sequence with
  | false, _ => s
  | true, .ligature .. => { s with asPicture := false }
  | true, _ => {}

/-- The columns that `c` adds to the text behind it, and what follows a place before `c`. A
character up to the no-break space takes one column, also a control. -/
def before (s : Following) (c : Char) : Int × Following :=
  if s.asPicture && isPictorial c then
    (match s.sequence with | .joinedPicture _ => 0 | _ => 2, { sequence := .picture })
  else
    let s := s.dropPicture
    if c ≤ '\u00a0' then
      if c = '\r' ∧ s.sequence = .lineFeed then (0, {})
      else (1, { sequence := .ofChar c })
    else if isPictureSelector c then (0, s.selectPicture)
    else if isTextSelector c then (0, s.selectText)
    else if s.asText && isTextual c then (1, {})
    else
      match s.sequence.extend? c with
      | some (n, longer) => (n, { sequence := longer })
      | none => (columns c, { sequence := .ofChar c })

end Following

/-- The columns of a text and what follows a place before it. -/
def measure (cs : List Char) : Int × Following :=
  cs.foldr (fun c behind ↦
    let added := behind.2.before c
    (behind.1 + added.1, added.2)) (0, {})

/-- The columns of a text, in which sequences of characters are shown as one sign. -/
def width (cs : List Char) : Nat := (measure cs).1.toNat

end MicroBench.Text
