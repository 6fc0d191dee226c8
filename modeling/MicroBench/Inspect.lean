namespace MicroBench

/-- A value laid open for a reader who is looking for a mistake. -/
inductive Inspect where
  | atom (text : String)
  | list (entries : List String)
  deriving DecidableEq, Repr

namespace Inspect

def oneLine : Inspect → String
  | atom text => text
  | list entries => "[" ++ ", ".intercalate entries ++ "]"

/-- Gives each entry of a list a line of its own, below lines that are indented by `margin`. -/
def indented (margin : String) : Inspect → String
  | atom text => text
  | list [] => "[]"
  | list entries =>
    "[\n" ++ String.join (entries.map fun e ↦ margin ++ "    " ++ e ++ ",\n") ++ margin ++ "]"

def ofNat (n : Nat) : Inspect := atom (toString n)

def ofInt (n : Int) : Inspect := atom (toString n)

def ofBool (b : Bool) : Inspect := atom (if b then "true" else "false")

def ofNats (ns : List Nat) : Inspect := list (ns.map toString)

def recordOneLine (name : String) (fields : List (String × Inspect)) : String :=
  name ++ " \x7b " ++ ", ".intercalate (fields.map fun f ↦ f.1 ++ ": " ++ f.2.oneLine) ++ " \x7d"

def recordIndented (name : String) (fields : List (String × Inspect)) : String :=
  name ++ " \x7b\n" ++
    String.join (fields.map fun f ↦ "    " ++ f.1 ++ ": " ++ f.2.indented "    " ++ ",\n") ++ "\x7d"

end Inspect

end MicroBench
