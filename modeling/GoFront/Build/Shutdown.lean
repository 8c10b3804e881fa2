/-! The shutdown flag: raised once, never lowered, and seen by everyone who holds a signal. -/
namespace GoFront.Build

/-- The flag, and whether its owner is still there. -/
structure Shutdown where
  raised : Bool := false
  owned : Bool := true
  deriving DecidableEq, Repr

namespace Shutdown

/-- Raises the flag. The answer is true for the call that raised it. -/
def trigger (s : Shutdown) : Bool × Shutdown := (!s.raised, { s with raised := true })

/-- The owner goes away; the flag stays as it is. -/
def release (s : Shutdown) : Shutdown := { s with owned := false }

/-- A waiting reader wakes up: the flag is raised, or nobody can raise it any more. -/
def wakes (s : Shutdown) : Bool := s.raised || !s.owned

end Shutdown

end GoFront.Build
