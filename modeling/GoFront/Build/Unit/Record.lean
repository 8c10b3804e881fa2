import GoFront.Build.Unit.File
import GoFront.Build.Unit.Package

/-!
The units as records with a field for everything that is asked of them. The operations say which
fields they read and set; a stage is entered through `Status.advance` only.
-/
namespace GoFront.Build

/-- How far a unit is, who waits for its end, and how it ended. -/
structure Progress where
  status : Status := .parsing
  subscribers : List Address := []
  outcome : Option Outcome := none
  deriving DecidableEq, Repr

namespace Progress

/-- Adds a subscriber, or answers it if the outcome is known. -/
def subscribe (progress : Progress) (unit : UnitName) (address : Address) :
    Progress × List Delivery :=
  match progress.outcome with
  | some outcome => (progress, [⟨address, unit, outcome⟩])
  | none => ({ progress with subscribers := progress.subscribers ++ [address] }, [])

/-- Enters the last stage and tells every subscriber the outcome. -/
def finish (progress : Progress) (unit : UnitName) (outcome : Outcome) :
    Except String (Progress × List Delivery) := do
  let status ← progress.status.advance .complete
  let deliveries := progress.subscribers.map fun address => ⟨address, unit, outcome⟩
  return ({ status, subscribers := [], outcome := some outcome }, deliveries)

end Progress

structure FileRecord extends Progress where
  name : String
  package : Option String := none
  file : Option SourceFile := none
  symbols : Option SymbolTable := none
  waitingOn : List String := []
  deriving Repr

namespace FileRecord

def subscribe (unit : FileRecord) (address : Address) : FileRecord × List Delivery :=
  let (progress, deliveries) := unit.toProgress.subscribe (.file unit.name) address
  ({ unit with toProgress := progress }, deliveries)

/-- A second completion is refused by the stage and ignored. -/
def complete (unit : FileRecord) (outcome : Outcome) : FileRecord × List Delivery :=
  match unit.toProgress.finish (.file unit.name) outcome with
  | .error _ => (unit, [])
  | .ok (progress, deliveries) =>
    ({ unit with toProgress := progress, waitingOn := [] }, deliveries)

def symbolsAvailable (unit : FileRecord) (parsed : ParsedFile) : FileRecord × List Delivery :=
  match unit.status.advance .symbolsAvailable with
  | .error _ => (unit, [])
  | .ok status =>
    let unit := { unit with
      status
      waitingOn := Names.ofList (parsed.imports.map (·.package))
      package := some parsed.file.package.value
      file := some parsed.file
      symbols := some parsed.symbols }
    if unit.waitingOn = [] then unit.complete .ok else (unit, [])

def importResolved (unit : FileRecord) (notice : Notice) : FileRecord × List Delivery :=
  if unit.status = .complete then (unit, [])
  else if notice.unit.name ∉ unit.waitingOn then (unit, [])
  else
    let unit := { unit with waitingOn := unit.waitingOn.filter (· ≠ notice.unit.name) }
    match notice.outcome with
    | .failed failure => unit.complete (.failed failure)
    | .ok => if unit.waitingOn = [] then unit.complete .ok else (unit, [])

end FileRecord

structure PackageRecord extends Progress where
  name : String
  members : List String := []
  outstanding : List String := []
  firstFailure : Option Failure := none
  deriving Repr

namespace PackageRecord

def subscribe (unit : PackageRecord) (address : Address) : PackageRecord × List Delivery :=
  let (progress, deliveries) := unit.toProgress.subscribe (.package unit.name) address
  ({ unit with toProgress := progress }, deliveries)

def complete (unit : PackageRecord) (outcome : Outcome) : PackageRecord × List Delivery :=
  match unit.toProgress.finish (.package unit.name) outcome with
  | .error _ => (unit, [])
  | .ok (progress, deliveries) =>
    ({ unit with toProgress := progress, outstanding := [] }, deliveries)

def addMember (unit : PackageRecord) (file : String) : PackageRecord :=
  if file ∈ unit.outstanding then unit
  else
    { unit with
      outstanding := Names.insert file unit.outstanding
      members := unit.members ++ [file] }

/-- The stage is not asked here: members are added to a complete unit as well. -/
def start (unit : PackageRecord) (files : List String) : PackageRecord × List Delivery :=
  let unit := files.foldl addMember unit
  if unit.members = [] then unit.complete .ok else (unit, [])

/-- Keeps the first failure. -/
def keepFailure (unit : PackageRecord) : Outcome → PackageRecord
  | .ok => unit
  | .failed failure =>
    match unit.firstFailure with
    | none => { unit with firstFailure := some failure }
    | some _ => unit

/-- Ends the work if every member has reported, with the first failure if there was one. -/
def settle (unit : PackageRecord) : PackageRecord × List Delivery :=
  if unit.outstanding = [] then
    match unit.firstFailure with
    | some failure => { unit with firstFailure := none }.complete (.failed failure)
    | none => unit.complete .ok
  else (unit, [])

def memberDone (unit : PackageRecord) (file : String) (outcome : Outcome) :
    PackageRecord × List Delivery :=
  if unit.status = .complete ∨ file ∉ unit.outstanding then (unit, [])
  else
    let unit := { unit with outstanding := unit.outstanding.filter (· ≠ file) }
    (unit.keepFailure outcome).settle

end PackageRecord

/-! ### The units told as records -/

def FileUnit.record (unit : FileUnit) : FileRecord where
  status := unit.status
  subscribers := unit.audience.subscribers
  outcome := unit.audience.outcome?
  name := unit.name
  package := unit.parsed.map fun parsed => parsed.file.package.value
  file := unit.parsed.map (·.file)
  symbols := unit.parsed.map (·.symbols)
  waitingOn := unit.waitingOn

def PackageUnit.record (unit : PackageUnit) : PackageRecord where
  status := unit.status
  subscribers := unit.audience.subscribers
  outcome := unit.audience.outcome?
  name := unit.name
  members := unit.members
  outstanding := unit.outstanding
  firstFailure := unit.firstFailure

end GoFront.Build
