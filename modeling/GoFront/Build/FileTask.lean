import GoFront.Build.Notice

/-!
The task of one file: it parses the file, asks for the packages it imports in order, and passes
the answers on until all are there or one is a failure.
-/
namespace GoFront.Build

inductive TaskPhase where
  | parsing
  /-- Imports still to be asked for, and packages asked for whose answer is missing. -/
  | resolving (unsent : List ImportSite) (pending : List String)
  | finished
  deriving Repr

structure FileTask where
  file : String
  phase : TaskPhase := .parsing
  deriving Repr

namespace FileTask

def isParsing (task : FileTask) : Bool :=
  match task.phase with
  | .parsing => true
  | _ => false

/-- The parse is done. Imports, if there are any, come next. -/
def finishParse (task : FileTask) (result : Except Failure ParsedFile) : FileTask × Report :=
  let phase := match result with
    | .ok parsed => if parsed.imports = [] then .finished else .resolving parsed.imports []
    | .error _ => .finished
  ({ task with phase }, .parsed task.file result)

def stop (task : FileTask) (notice : Notice) : FileTask × Report :=
  ({ task with phase := .finished }, .importResolved task.file notice)

/-- What a task sends when it is its turn: a request or a last report. -/
inductive Message where
  | request (request : ImportRequest)
  | report (report : Report)
  deriving Repr

/-- The task asks for its next import. After shutdown it gives up instead, and it does so too
when the import desk cannot be reached. -/
def sendNext? (task : FileTask) (stopped reachable : Bool) : Option (FileTask × Message) :=
  match task.phase with
  | .resolving (site :: rest) pending =>
    if stopped then
      let (task, report) := task.stop (.cancelled (.package site.package))
      some (task, .report report)
    else if !reachable then
      let (task, report) := task.stop (.disconnected (.package site.package))
      some (task, .report report)
    else
      some ({ task with phase := .resolving rest (pending ++ [site.package]) },
        .request ⟨site.package, task.file, site.position, .task task.file⟩)
  | _ => none

/-- All imports are asked for and the task waits for answers. -/
def isCollecting (task : FileTask) : Bool :=
  match task.phase with
  | .resolving [] _ => true
  | _ => false

/-- The task passes an answer on. It ends with a failure and with the last answer. -/
def receive? (task : FileTask) (notice : Notice) : Option (FileTask × Report) :=
  match task.phase with
  | .resolving [] pending =>
    let pending := pending.filter (· ≠ notice.unit.name)
    let phase :=
      if notice.outcome.isFailed || pending = [] then .finished else .resolving [] pending
    some ({ task with phase }, .importResolved task.file notice)
  | _ => none

/-- No answer can come any more: the task ends, blaming the first package without one. -/
def repliesClosed? (task : FileTask) : Option (FileTask × Report) :=
  match task.phase with
  | .resolving [] (package :: _) => some (task.stop (.disconnected (.package package)))
  | _ => none

end FileTask

end GoFront.Build
