import GoFront.Frontend

/-! What the parts of the compiler tell each other: outcomes, notices and requests. -/
namespace GoFront.Build

inductive UnitName where
  | file (name : String)
  | package (name : String)
  deriving DecidableEq, Repr, Inhabited

namespace UnitName

def name : UnitName → String
  | file name => name
  | package name => name

def text : UnitName → String
  | file name => s!"file {name}"
  | package name => s!"package \"{name}\""

end UnitName

inductive Outcome where
  | ok
  | failed (failure : Failure)
  deriving DecidableEq, Repr

namespace Outcome

def isFailed : Outcome → Bool
  | ok => false
  | failed _ => true

def failure? : Outcome → Option Failure
  | ok => none
  | failed failure => some failure

/-- The outcome of work with this first failure. -/
def ofFailure? : Option Failure → Outcome
  | none => ok
  | some failure => failed failure

end Outcome

structure Notice where
  unit : UnitName
  outcome : Outcome
  deriving DecidableEq, Repr

namespace Notice

def failed (unit : UnitName) (failure : Failure) : Notice := ⟨unit, .failed failure⟩

/-- The notice that refuses work on a unit after shutdown. -/
def cancelled (unit : UnitName) : Notice := failed unit (.cancelled unit.text)

def disconnected (unit : UnitName) : Notice := failed unit .disconnected

end Notice

inductive Address where
  /-- A compile call, by its number. -/
  | call (number : Nat)
  /-- The task that resolves the imports of a file. -/
  | task (file : String)
  /-- The owner of the packages, about their member files. -/
  | members
  deriving DecidableEq, Repr

structure Delivery where
  address : Address
  notice : Notice
  deriving DecidableEq, Repr

structure CompileRequest where
  file : String
  replyTo : Address
  deriving DecidableEq, Repr

/-- Asks for a package to be made available to a file that imports it. -/
structure ImportRequest where
  package : String
  fromFile : String
  position : Position
  replyTo : Address
  deriving DecidableEq, Repr

/-- The search for the files of a package, started by the import that came first. -/
structure Lookup where
  package : String
  fromFile : String
  position : Position
  deriving DecidableEq, Repr

structure Located where
  lookup : Lookup
  result : Except (Setback LocateError) (List String)
  deriving Repr

namespace Lookup

/-- The failure that a setback of the search amounts to. -/
def failure (lookup : Lookup) : Setback LocateError → Failure
  | .refused error => .unresolved lookup.package lookup.fromFile lookup.position error
  | .crashed breakdown => .internal (UnitName.package lookup.package).text breakdown.text

end Lookup

inductive Report where
  | parsed (file : String) (result : Except Failure ParsedFile)
  | importResolved (file : String) (notice : Notice)
  deriving Repr

end GoFront.Build
