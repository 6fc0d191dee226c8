import MicroBench.CommandLine.Reader
import MicroBench.Log
import MicroBench.Text.Filling

namespace MicroBench

structure Exit where
  code : Nat
  stdout : String
  stderr : String
  deriving DecidableEq, Repr

namespace CommandLine

structure Tool where
  name : String
  about : String
  deriving DecidableEq, Repr

namespace Tool

def versionNumber : String := "0.1.0"

/-- The name under which the program was called, if the first word holds one. -/
def calledAs (words : List Word) : Option String := do
  let word ← words.head?
  let file ← word.fileName
  file.wellFormed?

def usageName (tool : Tool) (words : List Word) : String := (calledAs words).getD tool.name

/-- The name by which the program was called, if it has blanks: they are filled with dashes. -/
def joinedName (words : List Word) : Option String := do
  let called ← calledAs words
  if called.toList.contains ' ' then
    some (String.ofList (called.toList.map fun c ↦ if c = ' ' then '-' else c))
  else none

def versionText (tool : Tool) (words : List Word) : String :=
  (joinedName words).getD tool.name ++ " " ++ versionNumber ++ "\n"

def pageWidth : Nat := 120

def helpText (tool : Tool) (words : List Word) : String :=
  (joinedName words).getD (Text.layOut pageWidth tool.name) ++ " " ++ versionNumber ++ "\n" ++
  Text.layOut pageWidth tool.about ++ "\n" ++
  "\n" ++
  "USAGE:\n" ++
  "    " ++ tool.usageName words ++ " [FLAGS]\n" ++
  "\n" ++
  "FLAGS:\n" ++
  "    -h, --help       Prints help information\n" ++
  "    -V, --version    Prints version information\n" ++
  "    -v               Logs progress to stderr, repeat for more detail\n"

/-- The flags in the usage line of an error: those meant and those seen, else all. -/
def usageFlags (meant : Option String) (raised : Bool) : String :=
  match meant, raised with
  | none, false => "[FLAGS]"
  | none, true => "-v"
  | some flag, false => "--" ++ flag
  | some flag, true => "--" ++ flag ++ " -v"

def suggestion : Option String → String
  | none => ""
  | some flag =>
    "\tDid you mean " ++ Message.escape 32 ++ "--" ++ Message.escape 0 ++ Message.escape 32 ++
      flag ++ Message.escape 0 ++ "?\n"

def errorText (tool : Tool) (words : List Word) (shown : String) (meant : Option String)
    (raised : Bool) : String :=
  "error: Found argument '" ++ shown ++
    "' which wasn't expected, or isn't valid in this context\n" ++
  suggestion meant ++
  "\n" ++
  "USAGE:\n" ++
  "    " ++ tool.usageName words ++ " " ++ usageFlags meant raised ++ "\n" ++
  "\n" ++
  "For more information try --help\n"

/-- The log level of an accepted command line, or how the program ends at once. -/
def parse (tool : Tool) (words : List Word) : Except Exit Level :=
  match read words with
  | .run verbosity => .ok (Level.ofVerbosity verbosity)
  | .help => .error ⟨0, tool.helpText words, ""⟩
  | .version => .error ⟨0, tool.versionText words, ""⟩
  | .unexpected shown meant raised => .error ⟨1, "", tool.errorText words shown meant raised⟩

def respond (tool : Tool) (words : List Word) : Exit :=
  match tool.parse words with
  | .ok level => ⟨0, level.name ++ "\n", ""⟩
  | .error exit => exit

end Tool

end CommandLine

end MicroBench
