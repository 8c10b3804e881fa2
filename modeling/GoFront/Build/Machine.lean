import GoFront.Build.CompileCall
import GoFront.Build.Desk.Files
import GoFront.Build.Desk.Imports
import GoFront.Build.FileTask
import GoFront.Build.Shutdown
import GoFront.Build.Unit.View

/-!
The compiler as a machine of messages. Its state holds the two desks, the running tasks and calls
and all messages in flight; an event is one step of one part. Whatever order of events is possible
is an order in which the parts may run.

Reports, import requests and located packages are handled in the order in which they were sent.
Compile requests and notices may be overtaken, because a sender that finds a full mailbox leaves
them to a courier.
-/
namespace GoFront.Build

structure State where
  keepGoing : Bool := false
  shutdown : Shutdown := {}
  files : FileDesk := {}
  imports : ImportDesk := {}
  tasks : Table FileTask := {}
  calls : List CompileCall := []
  /-- Requests on their way to the file desk. -/
  requests : List CompileRequest := []
  /-- Reports on their way to the file desk. -/
  reports : List Report := []
  /-- Requests on their way to the import desk. -/
  importRequests : List ImportRequest := []
  /-- Searches that are still running. -/
  lookups : List Lookup := []
  /-- Finished searches on their way to the import desk. -/
  located : List Located := []
  /-- Notices on their way. -/
  mail : List Delivery := []
  deriving Repr

inductive Event where
  /-- A call for files begins. -/
  | call (names : List String)
  /-- A call asks for its next file. -/
  | send (number : Nat)
  /-- The file desk handles a request. -/
  | compile (index : Nat)
  /-- The file desk handles the oldest report. -/
  | report
  /-- The task of a file asks for its next import, or gives up. -/
  | ask (file : String)
  /-- The import desk handles the oldest request. -/
  | resolve
  /-- The parse of a file is done. -/
  | parsed (file : String) (result : Except Failure ParsedFile)
  /-- The search for a package is done. -/
  | found (package : String) (result : Except (Setback LocateError) (List String))
  /-- The import desk handles the oldest finished search. -/
  | located
  /-- A notice reaches its reader. -/
  | receive (index : Nat)
  /-- The compiler is told to stop. -/
  | stop
  /-- The handle of the compiler goes away, which stops it too. -/
  | release
  deriving Repr

namespace State

/-- Sends the messages and starts the work of the effects. -/
def apply (s : State) (effects : Effects) : State :=
  { s with
    mail := s.mail ++ effects.deliveries
    requests := s.requests ++ effects.requests
    lookups := s.lookups ++ effects.lookups
    tasks := effects.tasks.foldl (fun tasks file => tasks.set file { file }) s.tasks }

def withFiles (s : State) (change : FileDesk × Effects) : State :=
  { s with files := change.1 }.apply change.2

/-- The state after a change of the import desk. -/
def withImports (s : State) (change : ImportDesk × Effects) : State :=
  { s with imports := change.1 }.apply change.2

def stop (s : State) : State := { s with shutdown := s.shutdown.trigger.2 }

/-- Gives a notice to its reader: `none` if the reader is not ready for it. A reader that is gone
leaves it unread. -/
def deliver? (s : State) (delivery : Delivery) : Option State :=
  match delivery.address with
  | .members => some (s.withImports (s.imports.handleMember delivery.notice))
  | .task file =>
    match s.tasks.get? file with
    | none => some s
    | some task =>
      match task.phase with
      | .finished => some s
      | _ =>
        match task.receive? delivery.notice with
        | none => none
        | some (task, report) =>
          some { s with tasks := s.tasks.set file task, reports := s.reports ++ [report] }
  | .call number =>
    match s.calls[number]? with
    | none => some s
    | some call =>
      if call.result.isSome then some s
      else if !call.isCollecting then none
      else
        let stops := call.isFirstFailure delivery.notice && !s.keepGoing
        let s := { s with calls := s.calls.set number (call.accept delivery.notice) }
        some (if stops then s.stop else s)

/-- The state after an event, or `none` if the event cannot happen. -/
def step (s : State) : Event → Option State
  | .call names => some { s with calls := s.calls ++ [.start names] }
  | .send number =>
    match s.calls[number]? with
    | some call =>
      match call.unsent with
      | [] => none
      | file :: rest =>
        some { s with
          calls := s.calls.set number { call with unsent := rest }
          requests := s.requests ++ [⟨file, .call number⟩] }
    | none => none
  | .compile index =>
    match s.requests[index]? with
    | some request =>
      let s := { s with requests := s.requests.eraseIdx index }
      some (s.withFiles (s.files.handleCompile s.shutdown.raised request))
    | none => none
  | .report =>
    match s.reports with
    | [] => none
    | report :: rest => some ({ s with reports := rest }.withFiles (s.files.handleReport report))
  | .ask file =>
    match s.tasks.get? file with
    | none => none
    | some task =>
      match task.sendNext? s.shutdown.raised true with
      | none => none
      | some (task, .request request) =>
        some { s with
          tasks := s.tasks.set file task, importRequests := s.importRequests ++ [request] }
      | some (task, .report report) =>
        some { s with tasks := s.tasks.set file task, reports := s.reports ++ [report] }
  | .resolve =>
    match s.importRequests with
    | [] => none
    | request :: rest =>
      some ({ s with importRequests := rest }.withImports
        (s.imports.handleImport s.shutdown.raised request))
  | .parsed file result =>
    match s.tasks.get? file with
    | none => none
    | some task =>
      if task.isParsing then
        let (task, report) := task.finishParse result
        some { s with tasks := s.tasks.set file task, reports := s.reports ++ [report] }
      else none
  | .found package result =>
    match s.lookups.find? (·.package = package) with
    | none => none
    | some lookup =>
      some { s with
        lookups := s.lookups.filter (·.package ≠ package)
        located := s.located ++ [⟨lookup, result⟩] }
  | .located =>
    match s.located with
    | [] => none
    | located :: rest =>
      some ({ s with located := rest }.withImports
        (s.imports.handleLocated s.shutdown.owned located))
  | .receive index =>
    match s.mail[index]? with
    | some delivery => { s with mail := s.mail.eraseIdx index }.deliver? delivery
    | none => none
  | .stop => some s.stop
  | .release => some { s.stop with shutdown := s.stop.shutdown.release }

/-- All file units in the order of their names. -/
def fileViews (s : State) : List FileView := s.files.units.values.map FileUnit.view

/-- All package units in the order of their names. -/
def packageViews (s : State) : List PackageView := s.imports.units.values.map PackageUnit.view

end State

end GoFront.Build
