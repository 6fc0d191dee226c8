import MicroBench.Inspect
import MicroBench.Odometer

namespace MicroBench.Odometer

def fields (s : Odometer) : List (String × MicroBench.Inspect) :=
  [("perm", .ofNats s.order), ("count", .ofNats s.counters), ("sign", .ofBool s.even)]

def oneLine (s : Odometer) : String := MicroBench.Inspect.recordOneLine "Permutations" s.fields

def indented (s : Odometer) : String := MicroBench.Inspect.recordIndented "Permutations" s.fields

end MicroBench.Odometer
