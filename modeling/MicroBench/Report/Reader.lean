import MicroBench.Decimal.Numeral
import MicroBench.Report

namespace MicroBench.Report

open Decimal

def showsTime (c : Char) : Bool := c.isDigit || c == '.'

/-- Seconds stand in digits and points, at least one of them. -/
def IsTime (seconds : String) : Prop :=
  seconds ≠ "" ∧ ∀ c ∈ seconds.toList, showsTime c = true

def Legible : Report → Prop
  | flips _ _ _ => True
  | fibonacci _ seconds => IsTime seconds

def readWord (word : String) (text : List Char) : Option (List Char) :=
  word.toList.isPrefixOf? text

def readTime (text : List Char) : Option (String × List Char) :=
  match text.takeWhile showsTime with
  | [] => none
  | c :: cs => some (String.ofList (c :: cs), text.dropWhile showsTime)

/-- Reads on behind a checksum. -/
def readFlips (checksum : Int) (text : List Char) : Option (Report × List Char) := do
  let text ← readWord "\nfannkuchen(" text
  let (size, text) ← readNatural text
  let text ← readWord ") = " text
  let (maxFlips, text) ← readNatural text
  let text ← readWord "\n" text
  return (flips checksum size maxFlips, text)

/-- Reads on behind a value. -/
def readFibonacci (value : Nat) (text : List Char) : Option (Report × List Char) := do
  let text ← readWord "\nelapsed: " text
  let (seconds, text) ← readTime text
  let text ← readWord "\n" text
  return (fibonacci value seconds, text)

/-- Reads a report off the front of a text. The first line alone does not tell its kind. -/
def readOne (text : List Char) : Option (Report × List Char) := do
  let (x, text) ← readInteger text
  match x with
  | .ofNat n => (readFlips x text).or (readFibonacci n text)
  | .negSucc _ => readFlips x text

variable {x : Int} {n : Nat} {r : Report} {word seconds : String} {text rest : List Char}

theorem readWord_eq_some_iff : readWord word text = some rest ↔ text = word.toList ++ rest := by
  rw [readWord, List.isPrefixOf?_eq_some_iff_append_eq, eq_comm]

theorem text_flips (checksum : Int) (size maxFlips : Nat) :
    (flips checksum size maxFlips).text.toList = (toString checksum).toList ++
      ("\nfannkuchen(".toList ++ (digits size ++ (") = ".toList ++
        (digits maxFlips ++ "\n".toList)))) := by
  simp only [text, lines, String.toList_join, List.flatMap_cons, List.flatMap_nil, List.append_nil,
    String.toList_append, List.append_assoc]
  -- the feed that ends the first line joins the words that begin the second
  rfl

theorem text_fibonacci (value : Nat) (seconds : String) :
    (fibonacci value seconds).text.toList = (toString (Int.ofNat value)).toList ++
      ("\nelapsed: ".toList ++ (seconds.toList ++ "\n".toList)) := by
  simp only [text, lines, String.toList_join, List.flatMap_cons, List.flatMap_nil, List.append_nil,
    String.toList_append, List.append_assoc]
  rfl

theorem text_ne_nil (r : Report) : r.text.toList ≠ [] := by
  cases r with
  | flips checksum size maxFlips => simp [text_flips]
  | fibonacci value seconds => simp [text_fibonacci]

theorem isTime_ofList {cs : List Char} (hne : cs ≠ []) (h : ∀ c ∈ cs, showsTime c = true) :
    IsTime (String.ofList cs) := by
  constructor
  · simpa using hne
  · rwa [String.toList_ofList]

theorem eq_append_of_readTime (h : readTime text = some (seconds, rest)) :
    text = seconds.toList ++ rest ∧ IsTime seconds := by
  rw [readTime] at h
  split at h
  · cases h
  · rename_i c cs htake
    obtain ⟨rfl, rfl⟩ := Prod.mk.inj (Option.some.inj h)
    constructor
    · rw [String.toList_ofList, ← htake, List.takeWhile_append_dropWhile]
    · rw [← htake]
      refine isTime_ofList (by simp [htake]) ?_
      intro d hd
      exact List.all_eq_true.1 List.all_takeWhile d hd

theorem eq_append_of_readFlips (h : readFlips x text = some (r, rest)) :
    (toString x).toList ++ text = r.text.toList ++ rest ∧ r.Legible := by
  simp only [readFlips, Option.bind_eq_bind, Option.bind_eq_some_iff, Option.pure_def, Prod.exists,
    readWord_eq_some_iff] at h
  obtain ⟨text₁, rfl, size, text₂, hsize, text₃, rfl, maxFlips, text₄, hmax, text₅, rfl, hr⟩ := h
  obtain ⟨rfl, rfl⟩ := Prod.mk.inj (Option.some.inj hr)
  refine ⟨?_, trivial⟩
  rw [eq_append_of_readNatural hsize, eq_append_of_readNatural hmax, text_flips]
  simp only [List.append_assoc]

theorem eq_append_of_readFibonacci (h : readFibonacci n text = some (r, rest)) :
    (toString (Int.ofNat n)).toList ++ text = r.text.toList ++ rest ∧ r.Legible := by
  simp only [readFibonacci, Option.bind_eq_bind, Option.bind_eq_some_iff, Option.pure_def,
    Prod.exists, readWord_eq_some_iff] at h
  obtain ⟨text₁, rfl, seconds, text₂, hseconds, text₃, rfl, hr⟩ := h
  obtain ⟨rfl, rfl⟩ := Prod.mk.inj (Option.some.inj hr)
  obtain ⟨rfl, hlegible⟩ := eq_append_of_readTime hseconds
  refine ⟨?_, hlegible⟩
  rw [text_fibonacci]
  simp only [List.append_assoc]

/-- What was read stands in front as it is printed. -/
theorem eq_append_of_readOne (h : readOne text = some (r, rest)) :
    text = r.text.toList ++ rest ∧ r.Legible := by
  simp only [readOne, Option.bind_eq_bind, Option.bind_eq_some_iff, Prod.exists] at h
  obtain ⟨x, text₁, hx, h⟩ := h
  rw [eq_append_of_readInteger hx]
  cases x with
  | negSucc k => exact eq_append_of_readFlips h
  | ofNat k =>
    rcases Option.or_eq_some_iff.1 h with hflips | ⟨-, hfibonacci⟩
    · exact eq_append_of_readFlips hflips
    · exact eq_append_of_readFibonacci hfibonacci

theorem length_lt_of_readOne (h : readOne text = some (r, rest)) : rest.length < text.length := by
  obtain ⟨htext, -⟩ := eq_append_of_readOne h
  have hlength := List.length_pos_iff.2 (text_ne_nil r)
  rw [htext, List.length_append]
  omega

/-- Reads report after report, up to the end of the text. -/
def readAll (text : List Char) : Option (List Report) :=
  if text.isEmpty then some []
  else
    match _h : readOne text with
    | none => none
    | some (r, rest) => (readAll rest).map (r :: ·)
termination_by text.length
decreasing_by exact length_lt_of_readOne ‹_›

/-- Reads the reports in a stream of bytes. -/
def decode (bytes : List UInt8) : Option (List Report) :=
  (String.fromUTF8? bytes.toByteArray).bind fun text ↦ readAll text.toList

end MicroBench.Report
