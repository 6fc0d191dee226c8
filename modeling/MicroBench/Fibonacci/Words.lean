import MicroBench.Fibonacci

namespace MicroBench.Fibonacci

/-- An operation on two words of 64 bits, as it was tried. -/
inductive Operation where
  | add (a b : UInt64)
  | subtract (a b : UInt64)
  deriving DecidableEq, Repr

namespace Operation

def Fits : Operation → Prop
  | add a b => a.toNat + b.toNat < wordLimit
  | subtract a b => b.toNat ≤ a.toNat

def fault : Operation → Fault
  | add _ _ => .additionOverflow
  | subtract _ _ => .subtractionOverflow

end Operation

/-- What a computation on words comes to, and the operations it tried on the way. It ends with the
first of them that fails. -/
structure Watched (α : Type) where
  outcome : Except Fault α
  tried : List Operation

namespace Watched

variable {α β : Type}

protected def bind (x : Watched α) (f : α → Watched β) : Watched β :=
  match x.outcome with
  | .error fault => ⟨.error fault, x.tried⟩
  | .ok a => ⟨(f a).outcome, x.tried ++ (f a).tried⟩

instance : Monad Watched where
  pure a := ⟨.ok a, []⟩
  bind := Watched.bind

theorem bind_of_ok {x : Watched α} {a : α} (h : x.outcome = .ok a) (f : α → Watched β) :
    x >>= f = ⟨(f a).outcome, x.tried ++ (f a).tried⟩ := by
  change Watched.bind x f = _
  rw [Watched.bind, h]

theorem bind_of_error {x : Watched α} {fault : Fault} (h : x.outcome = .error fault)
    (f : α → Watched β) : x >>= f = ⟨.error fault, x.tried⟩ := by
  change Watched.bind x f = _
  rw [Watched.bind, h]

def add (a b : UInt64) : Watched UInt64 where
  outcome := if a.toNat + b.toNat < wordLimit then .ok (a + b) else .error .additionOverflow
  tried := [.add a b]

/-- The difference comes with a proof that nothing was lost, so that a recursion on it ends. -/
def subtract (a b : UInt64) : Watched { c : UInt64 // c.toNat + b.toNat = a.toNat } where
  outcome :=
    if h : b.toNat ≤ a.toNat then
      .ok ⟨a - b, by rw [UInt64.toNat_sub_of_le a b (UInt64.le_iff_toNat_le.2 h)]; omega⟩
    else .error .subtractionOverflow
  tried := [.subtract a b]

end Watched

/-- The double recursion of `naive`, on words alone. -/
def onWords (n : UInt64) : Watched UInt64 := do
  if n = 0 then return 0
  if n = 1 then return 1
  let ⟨m, _⟩ ← Watched.subtract n 1
  let a ← onWords m
  let ⟨l, _⟩ ← Watched.subtract n 2
  let b ← onWords l
  Watched.add a b
termination_by n.toNat
decreasing_by
  · have hone : (1 : UInt64).toNat = 1 := rfl
    omega
  · have htwo : (2 : UInt64).toNat = 2 := rfl
    omega

end MicroBench.Fibonacci
