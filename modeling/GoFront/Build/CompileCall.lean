import GoFront.Build.Notice
import GoFront.Names

/-!
One call of the compiler: it asks for its files and waits until each has reported. The first
failure is the answer, but a failure of the source goes before one that only says that work was
cancelled.
-/
namespace GoFront.Build

structure CompileCall where
  /-- Files not asked for yet. -/
  unsent : List String
  /-- Files that have not reported. -/
  waiting : List String
  failure : Option Failure := none
  result : Option Outcome := none
  deriving Repr

namespace CompileCall

/-- A call for files, each once and under its canonical name. Without files it is over. -/
def start (names : List String) : CompileCall :=
  let names := Names.distinct (names.map Path.normalize)
  { unsent := names, waiting := names, result := if names = [] then some .ok else none }

/-- The failure to keep when another one comes. -/
def prefer (kept : Option Failure) (next : Failure) : Option Failure :=
  match kept with
  | none => some next
  | some first => if first.isCancelled && !next.isCancelled then some next else some first

/-- The call has asked for all its files and is not over. -/
def isCollecting (call : CompileCall) : Bool := call.unsent = [] && call.result.isNone

/-- Takes a notice; what is not about a file it waits for is ignored. -/
def accept (call : CompileCall) (notice : Notice) : CompileCall :=
  match notice.unit with
  | .package _ => call
  | .file name =>
    if call.waiting.contains name then
      let waiting := call.waiting.filter (· ≠ name)
      let failure := match notice.outcome with
        | .ok => call.failure
        | .failed next => prefer call.failure next
      let result := if waiting = [] then some (.ofFailure? failure) else none
      { call with waiting, failure, result }
    else call

/-- A notice of this call's first failure, which stops the compiler unless it keeps going. -/
def isFirstFailure (call : CompileCall) (notice : Notice) : Bool :=
  match notice.unit with
  | .package _ => false
  | .file name => call.waiting.contains name && notice.outcome.isFailed && call.failure.isNone

/-- No notice can come any more: the call ends with the failure it has, or as disconnected. -/
def repliesClosed (call : CompileCall) : CompileCall :=
  if call.result.isSome then call
  else { call with result := some (.failed (call.failure.getD .disconnected)) }

end CompileCall

end GoFront.Build
