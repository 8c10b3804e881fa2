/-! The stages of a unit's life, which only go forward. -/
namespace GoFront.Build

inductive Status where
  | parsing | symbolsAvailable | complete
  deriving DecidableEq, Repr, Inhabited

namespace Status

def label : Status → String
  | parsing => "parsing"
  | symbolsAvailable => "symbols available"
  | complete => "complete"

/-- A unit in the first stage may go to the second. -/
def canAdvance : Status → Status → Bool
  | parsing, symbolsAvailable => true
  | parsing, complete => true
  | symbolsAvailable, complete => true
  | _, _ => false

/-- The next stage, or the text that refuses it. -/
def advance (now next : Status) : Except String Status :=
  if now.canAdvance next then .ok next
  else .error s!"illegal unit transition from {now.label} to {next.label}"

end Status

end GoFront.Build
