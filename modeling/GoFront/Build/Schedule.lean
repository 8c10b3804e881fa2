import GoFront.Build.Machine

/-!
One order of events. Work outside the machine, a parse or a search, is a job that waits until it
is performed; everything else runs by itself until nothing can happen any more. Messages are
handled first come, first served, and notices are read when nothing else is left to do.
-/
namespace GoFront.Build

inductive Job where
  | parse (file : String)
  | locate (package : String)
  deriving DecidableEq, Repr

namespace Job

def text : Job → String
  | parse file => s!"parse {file}"
  | locate package => s!"locate {package}"

end Job

end GoFront.Build

namespace GoFront.Frontend
open Build

/-- The failure of a file that a setback amounts to. -/
def fileFailure (name : String) : Setback Failure → Failure
  | .refused failure => failure
  | .crashed breakdown => .internal (UnitName.file name).text breakdown.text

def prepare (frontend : Frontend) (name : String) : Except Failure ParsedFile :=
  Except.mapError (fileFailure name) do
    let file ← frontend.parse name
    return ⟨file, ← frontend.createSymbols name file⟩

def perform (frontend : Frontend) : Job → Event
  | .parse file => .parsed file (frontend.prepare file)
  | .locate package => .found package (frontend.locate package)

end GoFront.Frontend

namespace GoFront.Build

namespace State

/-- Jobs that wait, in the order of their texts. -/
def jobs (s : State) : List Job :=
  let parses := (s.tasks.values.filter (·.isParsing)).map fun task => Job.parse task.file
  let searches := s.lookups.map fun lookup => Job.locate lookup.package
  (parses ++ searches).mergeSort fun a b => a.text ≤ b.text

def nextCall? (s : State) : Option Nat := s.calls.findIdx? (·.unsent ≠ [])

/-- The first file whose task has imports to ask for. -/
def nextTask? (s : State) : Option String :=
  (s.tasks.values.find? fun task => (task.sendNext? s.shutdown.raised true).isSome).map (·.file)

/-- The reader of a notice is ready for it, or gone. -/
def isReadable (s : State) (delivery : Delivery) : Bool := (s.deliver? delivery).isSome

def next? (s : State) : Option Event :=
  match s.nextCall? with
  | some number => some (.send number)
  | none =>
    if s.requests ≠ [] then some (.compile 0)
    else if !s.reports.isEmpty then some .report
    else
      match s.nextTask? with
      | some file => some (.ask file)
      | none =>
        if s.importRequests ≠ [] then some .resolve
        else if !s.located.isEmpty then some .located
        else (s.mail.findIdx? s.isReadable).map .receive

/-- Steps that a notice to the address can still cause. -/
def mailWeight : Address → Nat
  | .call _ => 1
  | .members => 1
  | .task _ => 2

def total {α : Type} (weight : α → Nat) (items : List α) : Nat :=
  items.foldr (fun item rest => weight item + rest) 0

/-- Steps that the subscribers of a unit can still cause. -/
def audienceWeight (audience : Audience) : Nat :=
  total (fun address => 1 + mailWeight address) audience.subscribers

def taskWeight (task : FileTask) : Nat :=
  match task.phase with
  | .resolving unsent _ => 5 * unsent.length
  | _ => 0

/-- Steps that a finished search can still cause. -/
def locatedWeight (located : Located) : Nat :=
  match located.result with
  | .ok files => 1 + 4 * files.length
  | .error _ => 1

/-- A bound on the steps that are possible before the next job. -/
def workLeft (s : State) : Nat :=
  total (fun call => 4 * call.unsent.length) s.calls +
    total (fun request => 2 + mailWeight request.replyTo) s.requests +
    s.reports.length +
    total taskWeight s.tasks.values +
    total (fun request => 2 + mailWeight request.replyTo) s.importRequests +
    total locatedWeight s.located +
    total (fun delivery => mailWeight delivery.address) s.mail +
    total (fun unit => audienceWeight unit.audience) s.files.units.values +
    total (fun unit => audienceWeight unit.audience) s.imports.units.values

/-- At most `count` events, jobs aside. -/
def advance : Nat → State → State
  | 0, s => s
  | count + 1, s =>
    match s.next? with
    | none => s
    | some event =>
      match s.step event with
      | none => s
      | some s => advance count s

/-- Everything that can happen before the next job. -/
def settle (s : State) : State := s.advance s.workLeft

/-- The event and everything that follows before the next job; nothing if it cannot happen. -/
def after (s : State) (event : Event) : State :=
  match s.step event with
  | none => s
  | some s => s.settle

/-- Performs the first waiting job again and again, at most `count` times. -/
def performAll {m : Type → Type} [Monad m] (perform : Job → m Event) : Nat → State → m State
  | 0, s => return s
  | count + 1, s =>
    match s.jobs with
    | [] => return s
    | job :: _ => do performAll perform count (s.after (← perform job))

end State

/-- Compiles files in a fresh compiler; `count` bounds the number of jobs. -/
def compile {m : Type → Type} [Monad m] (perform : Job → m Event) (keepGoing : Bool)
    (names : List String) (count : Nat) : m (Option Outcome) := do
  let s : State := { keepGoing }
  let s ← (s.after (.call names)).performAll perform count
  return (s.calls[0]?).bind (·.result)

end GoFront.Build
