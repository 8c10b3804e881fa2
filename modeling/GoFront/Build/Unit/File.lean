import GoFront.Build.Unit.Audience
import GoFront.Build.Unit.Status
import GoFront.Names

/-! The state of one file: parsed, waiting for its imports, complete. -/
namespace GoFront.Build

structure FileUnit where
  name : String
  /-- What the parse gave. -/
  parsed : Option ParsedFile := none
  /-- Imported packages whose outcome is not known yet, in order. -/
  waitingOn : List String := []
  audience : Audience := .waiting []
  deriving Repr

namespace FileUnit

def status (unit : FileUnit) : Status :=
  match unit.audience, unit.parsed with
  | .answered _, _ => .complete
  | .waiting _, some _ => .symbolsAvailable
  | .waiting _, none => .parsing

def unitName (unit : FileUnit) : UnitName := .file unit.name

/-- Adds a subscriber, or answers it if the unit is complete. -/
def subscribe (unit : FileUnit) (address : Address) : FileUnit × List Delivery :=
  let (audience, deliveries) := unit.audience.subscribe unit.unitName address
  ({ unit with audience }, deliveries)

/-- Ends the work with an outcome and tells the subscribers. A complete unit stays as it is. -/
def complete (unit : FileUnit) (outcome : Outcome) : FileUnit × List Delivery :=
  if unit.audience.isAnswered then (unit, [])
  else
    let (audience, deliveries) := unit.audience.announce unit.unitName outcome
    ({ unit with waitingOn := [], audience }, deliveries)

/-- Takes a successful parse. A file without imports is complete with it; a second parse is
ignored. -/
def symbolsAvailable (unit : FileUnit) (parsed : ParsedFile) : FileUnit × List Delivery :=
  if unit.status ≠ .parsing then (unit, [])
  else
    let waitingOn := Names.ofList (parsed.imports.map (·.package))
    let unit := { unit with parsed := some parsed, waitingOn }
    if waitingOn = [] then unit.complete .ok else (unit, [])

/-- Takes the outcome of an import. The first failure ends the work, and so does the last
success; notices about anything else are ignored. -/
def importResolved (unit : FileUnit) (notice : Notice) : FileUnit × List Delivery :=
  if unit.audience.isAnswered || !unit.waitingOn.contains notice.unit.name then (unit, [])
  else
    let waitingOn := unit.waitingOn.filter (· ≠ notice.unit.name)
    let unit := { unit with waitingOn }
    if notice.outcome.isFailed then unit.complete notice.outcome
    else if waitingOn = [] then unit.complete .ok
    else (unit, [])

end FileUnit

end GoFront.Build
