/-!
# How a call ends

A call either returns a value or is left by unwinding: the failure of something it called
passes through it to its caller.
-/

namespace SiteProfiler

inductive Outcome (α : Type) where
  | returned (value : α)
  | unwound
deriving DecidableEq, Repr

/-- The outcome with its value, if any, replaced. -/
def Outcome.map {α β : Type} (f : α → β) : Outcome α → Outcome β
  | returned value => .returned (f value)
  | unwound => .unwound

end SiteProfiler
