import GoFront.Build.Desk.Effects
import GoFront.Build.Unit.File

/-!
The owner of the file units. Each file is parsed at most once: the first request makes a unit and
starts a task, and later requests only subscribe.
-/
namespace GoFront.Build

structure FileDesk where
  units : Table FileUnit := {}
  deriving Repr

namespace FileDesk

/-- Puts back a unit that has changed and sends what it delivers. -/
def update (desk : FileDesk) (change : FileUnit × List Delivery) : FileDesk × Effects :=
  (⟨desk.units.set change.1.name change.1⟩, { deliveries := change.2 })

/-- Handles a request for a file. After shutdown no new unit is made. -/
def handleCompile (desk : FileDesk) (stopped : Bool) (request : CompileRequest) :
    FileDesk × Effects :=
  match desk.units.get? request.file with
  | some unit => desk.update (unit.subscribe request.replyTo)
  | none =>
    if stopped then
      (desk, { deliveries := [⟨request.replyTo, .cancelled (.file request.file)⟩] })
    else
      let unit : FileUnit := { name := request.file, audience := .waiting [request.replyTo] }
      (⟨desk.units.set request.file unit⟩, { tasks := [request.file] })

def handleReport (desk : FileDesk) : Report → FileDesk × Effects
  | .parsed file result =>
    match desk.units.get? file with
    | none => (desk, {})
    | some unit =>
      match result with
      | .ok parsed => desk.update (unit.symbolsAvailable parsed)
      | .error failure => desk.update (unit.complete (.failed failure))
  | .importResolved file notice =>
    match desk.units.get? file with
    | none => (desk, {})
    | some unit => desk.update (unit.importResolved notice)

end FileDesk

end GoFront.Build
