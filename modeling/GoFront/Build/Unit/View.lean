import GoFront.Build.Unit.Record

/-! The units as an observer sees them. -/
namespace GoFront.Build

structure FileView where
  name : String
  package : Option String
  status : Status
  waitingOn : List String
  declarations : Nat
  symbols : Nat
  subscribers : Nat
  outcome : Option Outcome
  deriving Repr

structure PackageView where
  name : String
  status : Status
  members : List String
  outstanding : List String
  subscribers : Nat
  outcome : Option Outcome
  deriving Repr

def FileRecord.view (unit : FileRecord) : FileView where
  name := unit.name
  package := unit.package
  status := unit.status
  waitingOn := unit.waitingOn
  declarations := (unit.file.map (·.declarations.length)).getD 0
  symbols := (unit.symbols.map (·.size)).getD 0
  subscribers := unit.subscribers.length
  outcome := unit.outcome

def PackageRecord.view (unit : PackageRecord) : PackageView where
  name := unit.name
  status := unit.status
  members := unit.members
  outstanding := unit.outstanding
  subscribers := unit.subscribers.length
  outcome := unit.outcome

def FileUnit.view (unit : FileUnit) : FileView := unit.record.view

def PackageUnit.view (unit : PackageUnit) : PackageView := unit.record.view

end GoFront.Build
