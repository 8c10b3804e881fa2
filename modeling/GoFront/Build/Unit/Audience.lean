import GoFront.Build.Notice

/-!
Those who want to know how a unit ended. Until then they are remembered in order; after that the
outcome is kept and each newcomer is answered at once.
-/
namespace GoFront.Build

/-- The subscribers of an open unit, or the outcome of a complete one. -/
inductive Audience where
  | waiting (subscribers : List Address)
  | answered (outcome : Outcome)
  deriving DecidableEq, Repr

namespace Audience

def outcome? : Audience → Option Outcome
  | waiting _ => none
  | answered outcome => some outcome

def subscribers : Audience → List Address
  | waiting subscribers => subscribers
  | answered _ => []

def isAnswered : Audience → Bool
  | waiting _ => false
  | answered _ => true

/-- Adds a subscriber to the audience of a unit, or answers it. -/
def subscribe (unit : UnitName) (address : Address) : Audience → Audience × List Delivery
  | waiting subscribers => (waiting (subscribers ++ [address]), [])
  | answered outcome => (answered outcome, [⟨address, unit, outcome⟩])

/-- Tells all subscribers of a unit its outcome. -/
def announce (unit : UnitName) (outcome : Outcome) : Audience → Audience × List Delivery
  | waiting subscribers =>
    (answered outcome, subscribers.map fun address => ⟨address, unit, outcome⟩)
  | answered first => (answered first, [])

end Audience

end GoFront.Build
