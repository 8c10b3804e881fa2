import GoFront.Build.Unit.Audience
import GoFront.Build.Unit.Status
import GoFront.Names

/-! The state of one package: located, waiting for its member files, complete. -/
namespace GoFront.Build

structure PackageUnit where
  name : String
  /-- The member files in the order in which they were located. -/
  members : List String := []
  /-- Members that have not reported yet, in order of their names. -/
  outstanding : List String := []
  firstFailure : Option Failure := none
  audience : Audience := .waiting []
  deriving Repr

namespace PackageUnit

/-- The stage of the unit; packages have no symbols of their own. -/
def status (unit : PackageUnit) : Status :=
  if unit.audience.isAnswered then .complete else .parsing

def unitName (unit : PackageUnit) : UnitName := .package unit.name

def isLive (unit : PackageUnit) : Bool := !unit.audience.isAnswered

/-- Adds a subscriber, or answers it if the unit is complete. -/
def subscribe (unit : PackageUnit) (address : Address) : PackageUnit × List Delivery :=
  let (audience, deliveries) := unit.audience.subscribe unit.unitName address
  ({ unit with audience }, deliveries)

/-- Ends the work with an outcome and tells the subscribers. A complete unit stays as it is. -/
def complete (unit : PackageUnit) (outcome : Outcome) : PackageUnit × List Delivery :=
  if unit.audience.isAnswered then (unit, [])
  else
    let (audience, deliveries) := unit.audience.announce unit.unitName outcome
    ({ unit with outstanding := [], audience }, deliveries)

/-- Adds a member that is not outstanding already. -/
def addMember (unit : PackageUnit) (file : String) : PackageUnit :=
  if unit.outstanding.contains file then unit
  else
    { unit with
      outstanding := Names.insert file unit.outstanding
      members := unit.members ++ [file] }

/-- Takes the located member files. A package without members is complete. -/
def start (unit : PackageUnit) (files : List String) : PackageUnit × List Delivery :=
  let unit := files.foldl addMember unit
  if unit.members = [] then unit.complete .ok else (unit, [])

/-- Takes the outcome of a member. When the last one has reported the package is complete, with the
first failure if there was one. -/
def memberDone (unit : PackageUnit) (file : String) (outcome : Outcome) :
    PackageUnit × List Delivery :=
  if unit.audience.isAnswered || !unit.outstanding.contains file then (unit, [])
  else
    let outstanding := unit.outstanding.filter (· ≠ file)
    let firstFailure := unit.firstFailure.or outcome.failure?
    if outstanding = [] then
      { unit with outstanding, firstFailure := none }.complete (.ofFailure? firstFailure)
    else ({ unit with outstanding, firstFailure }, [])

end PackageUnit

end GoFront.Build
