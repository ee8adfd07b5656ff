import Mcs51.Problem

/-!
# Attempts

Operands and directives are read from texts that may stand for none, and encoding tries one reading
of the operands after another. An attempt has a result or not, and in either case the findings it
met on the way. A chain of attempts keeps the findings of the attempts before the one that succeeds.
-/

namespace Mcs51

/-- A result, if there is one, and what was found on the way. -/
structure Attempt (α : Type) where
  result : Option α
  findings : List Finding := []
  deriving Repr, DecidableEq

namespace Attempt

variable {α β : Type}

/-- Success without findings. -/
def done (a : α) : Attempt α := ⟨some a, []⟩

/-- No result, and nothing to say about it. -/
def mismatch : Attempt α := ⟨none, []⟩

/-- No result because of a finding. -/
def fail (f : Finding) : Attempt α := ⟨none, [f]⟩

/-- A finding that stops nothing. -/
def remark (f : Finding) : Attempt Unit := ⟨some (), [f]⟩

/-- Goes on with `f` after success, and with `other` otherwise. -/
def cases (x : Attempt α) (f : α → Attempt β) (other : Unit → Attempt β) : Attempt β :=
  let next := match x.result with
    | some a => f a
    | none => other ()
  ⟨next.result, x.findings ++ next.findings⟩

/-- Goes on with `f` after success. -/
def bind (x : Attempt α) (f : α → Attempt β) : Attempt β := x.cases f fun _ => mismatch

instance : Monad Attempt where
  pure := done
  bind := bind

/-- The other attempt, if the first has no result. -/
def orElse (x : Attempt α) (other : Unit → Attempt α) : Attempt α := x.cases done other

instance : OrElse (Attempt α) := ⟨orElse⟩

/-- The attempt has a result. -/
def succeeds (x : Attempt α) : Bool := x.result.isSome

/-- The result, or the first finding if there is none; `unsaid` stands for a finding that is
missing. -/
def toExcept (unsaid : Finding) (x : Attempt α) : Except Finding α :=
  match x.result with
  | some a => .ok a
  | none => .error (x.findings.headD unsaid)

end Attempt
end Mcs51
