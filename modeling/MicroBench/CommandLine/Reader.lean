import MicroBench.CommandLine.Similarity
import MicroBench.CommandLine.Word

namespace MicroBench.CommandLine

/-- What a command line asks for. An unexpected word is kept as it is shown, with the long flag
that may have been meant and whether the verbosity had been raised before. -/
inductive Request where
  | run (verbosity : Nat)
  | help
  | version
  | unexpected (shown : String) (meant : Option String) (raised : Bool)
  deriving DecidableEq, Repr

/-- A word either decides the request or leaves the verbosity reached so far. -/
inductive Reading where
  | goOn (verbosity : Nat)
  | decided (request : Request)
  deriving DecidableEq, Repr

def longFlags : List String := ["help", "version"]

def readCluster (verbosity : Nat) : Word → Reading
  | [] => .goOn verbosity
  | c :: cs =>
    if c = some 'v' then readCluster (verbosity + 1) cs
    else if c = some 'h' then .decided .help
    else if c = some 'V' then .decided .version
    else .decided (.unexpected ("-" ++ Word.shown [c]) none (0 < verbosity))

/-- Reads what follows two dashes, up to an equals sign. Further dashes in front are passed
over. A name in which bytes encode no letter is as unexpected as any other that is no flag. -/
def readLong (verbosity : Nat) (w : Word) : Reading :=
  let name := (w.dropWhile (· == some '-')).takeWhile (· != some '=')
  if name = Word.ofString "help" then .decided .help
  else if name = Word.ofString "version" then .decided .version
  else
    let meant := Similarity.closest (name.map Word.letter) (longFlags.map String.toList)
    .decided (.unexpected ("--" ++ Word.shown name) (meant.map String.ofList) (0 < verbosity))

def readWord (verbosity : Nat) (w : Word) : Reading :=
  match w with
  | some '-' :: some '-' :: rest => readLong verbosity rest
  | some '-' :: c :: cs => readCluster verbosity (c :: cs)
  | w => .decided (.unexpected w.shown none (0 < verbosity))

/-- Reads words from left to right. Two dashes alone end the flags, and nothing may follow. -/
def readFrom (verbosity : Nat) : List Word → Request
  | [] => .run verbosity
  | w :: ws =>
    if w = [some '-', some '-'] then
      match ws with
      | [] => .run verbosity
      | w :: _ => .unexpected w.shown none (0 < verbosity)
    else
      match readWord verbosity w with
      | .goOn verbosity => readFrom verbosity ws
      | .decided request => request

/-- The first word names the program and is never a flag. -/
def read (words : List Word) : Request := readFrom 0 words.tail

end MicroBench.CommandLine
