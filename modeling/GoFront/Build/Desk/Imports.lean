import GoFront.Build.Desk.Effects
import GoFront.Build.Waiting.Graph

/-!
The owner of the package units. Each package is located at most once; its members are compiled
through the file desk, and its outcome goes to all who import it. An import that would make the
packages wait for each other in a circle is rejected.
-/
namespace GoFront.Build

/-- The package units, the packages that wait for each member file, and the recorded imports. -/
structure ImportDesk where
  units : Table PackageUnit := {}
  /-- For each member file the packages that have requested it and not heard of it, the first
  request first. -/
  pending : Table (List String) := {}
  graph : ImportGraph := {}
  deriving Repr

namespace ImportDesk

/-- Puts back a unit that has changed and sends what it delivers. -/
def update (desk : ImportDesk) (change : PackageUnit × List Delivery) : ImportDesk × Effects :=
  ({ desk with units := desk.units.set change.1.name change.1 }, { deliveries := change.2 })

/-- The cycle that an import of a live package would close: the package waits for the importing
file already. It starts and ends with the package of that file. -/
def importCycle (desk : ImportDesk) (request : ImportRequest) : Option (List String) := do
  let path ← desk.graph.path desk.units (.package request.package) (.file request.fromFile)
  let packages := ImportGraph.packagesOn path
  return (← packages.getLast?) :: packages

/-- The cycle that the members of a package would close: one of them waits for the package
already. -/
def memberCycle (desk : ImportDesk) (package : String) (members : List String) :
    Option (List String) := do
  let path ← members.findSome? fun file =>
    desk.graph.path desk.units (.file file) (.package package)
  return package :: ImportGraph.packagesOn path

/-- Handles the import of a package. A known package is subscribed to, unless that closes a cycle;
an unknown one is searched for, unless the compiler has been stopped. -/
def handleImport (desk : ImportDesk) (stopped : Bool) (request : ImportRequest) :
    ImportDesk × Effects :=
  let name := UnitName.package request.package
  match desk.units.get? request.package with
  | some unit =>
    if unit.isLive then
      match desk.importCycle request with
      | some cycle =>
        let failure := .cyclicImport request.fromFile request.position cycle
        (desk, { deliveries := [⟨request.replyTo, .failed name failure⟩] })
      | none =>
        { desk with graph := desk.graph.record request.fromFile request.package }.update
          (unit.subscribe request.replyTo)
    else desk.update (unit.subscribe request.replyTo)
  | none =>
    if stopped then (desk, { deliveries := [⟨request.replyTo, .cancelled name⟩] })
    else
      let unit : PackageUnit :=
        { name := request.package, audience := .waiting [request.replyTo] }
      ({ desk with
          units := desk.units.set request.package unit
          graph := desk.graph.record request.fromFile request.package },
        { lookups := [⟨request.package, request.fromFile, request.position⟩] })

/-- Handles the notice of a member file on behalf of the first package that waits for it. -/
def handleMember (desk : ImportDesk) (notice : Notice) : ImportDesk × Effects :=
  match notice.unit with
  | .package _ => (desk, {})
  | .file file =>
    match desk.pending.get? file with
    | none => (desk, {})
    | some [] => ({ desk with pending := desk.pending.erase file }, {})
    | some (package :: others) =>
      let pending :=
        if others = [] then desk.pending.erase file else desk.pending.set file others
      let desk := { desk with pending }
      match desk.units.get? package with
      | none => (desk, {})
      | some unit => desk.update (unit.memberDone file notice.outcome)

/-- Asks for one member file of a package. If the file desk cannot be reached, the member counts
as failed. -/
def requestMember (reachable : Bool) (package : String) (desk : ImportDesk) (file : String) :
    ImportDesk × Effects :=
  let waiting := (desk.pending.get? file).getD []
  let desk := { desk with pending := desk.pending.set file (waiting ++ [package]) }
  if reachable then (desk, { requests := [⟨file, .members⟩] })
  else desk.handleMember (.disconnected (.file file))

/-- Asks for the member files of a package in order. -/
def requestMembers (desk : ImportDesk) (reachable : Bool) (package : String)
    (files : List String) : ImportDesk × Effects :=
  files.foldl
    (fun (desk, effects) file =>
      let (desk, more) := requestMember reachable package desk file
      (desk, effects ++ more))
    (desk, {})

/-- Ends the work on a package, if it is known. -/
def complete (desk : ImportDesk) (package : String) (outcome : Outcome) : ImportDesk × Effects :=
  match desk.units.get? package with
  | none => (desk, {})
  | some unit => desk.update (unit.complete outcome)

/-- Handles a finished search: the package fails with it, or fails because its members close a
cycle, or waits for its members. -/
def handleLocated (desk : ImportDesk) (reachable : Bool) (located : Located) :
    ImportDesk × Effects :=
  let package := located.lookup.package
  match located.result with
  | .error fault => desk.complete package (.failed (located.lookup.failure fault))
  | .ok files =>
    let members := files.map Path.normalize
    match desk.memberCycle package members with
    | some cycle =>
      let failure := .cyclicImport located.lookup.fromFile located.lookup.position cycle
      desk.complete package (.failed failure)
    | none =>
      match desk.units.get? package with
      | none => (desk, {})
      | some unit =>
        let started := unit.start members
        let (desk, effects) := desk.update started
        let (desk, more) := desk.requestMembers reachable package started.1.members
        (desk, effects ++ more)

end ImportDesk

end GoFront.Build
