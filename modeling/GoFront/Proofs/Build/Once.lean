import GoFront.Proofs.Build.Lifetime
import GoFront.Proofs.Build.Repeat
import GoFront.Proofs.Build.Work
import GoFront.Proofs.Path

/-!
All work is done at most once, in every run and for all spellings of the names. Files are asked for
under their canonical names only, so one file has one unit.
-/
namespace GoFront.Build
open Relation

namespace State

variable {s next : State} {event : Event}

/-- Files are asked for and known under their canonical names. -/
structure Canonical (s : State) : Prop where
  unsent : ∀ call ∈ s.calls, ∀ file ∈ call.unsent, Path.normalize file = file
  requests : ∀ request ∈ s.requests, Path.normalize request.file = request.file
  units : ∀ {file unit}, s.files.units.get? file = some unit → Path.normalize file = file

namespace Canonical

theorem initial (keepGoing : Bool) : Canonical { keepGoing } where
  unsent call member := by simp at member
  requests request member := by simp at member
  units known := by simp at known

theorem unsent_step (canonical : s.Canonical) (step : s.Step event next) :
    ∀ call ∈ next.calls, ∀ file ∈ call.unsent, Path.normalize file = file := by
  have old := canonical.unsent
  cases step with
  | call names =>
    intro call member
    rcases List.mem_append.mp member with before | now
    · exact old call before
    · obtain rfl := List.mem_singleton.mp now
      intro file asked
      obtain ⟨name, _, rfl⟩ := List.mem_map.mp (Names.mem_distinct.mp asked)
      exact Path.normalize_normalize name
  | @send number call file rest read unsent =>
    intro other member
    rcases List.mem_or_eq_of_mem_set member with before | rfl
    · exact old other before
    · intro asked later
      exact old call (List.mem_of_getElem? read) asked (by simp [unsent, later])
  | @accept index number notice call read known =>
    intro other member
    rcases List.mem_or_eq_of_mem_set member with before | rfl
    · exact old other before
    · rw [call.accept_unsent]
      exact old call (List.mem_of_getElem? known)
  | _ => exact old

theorem requests_step (canonical : s.Canonical) (searched : s.Searched) (step : s.Step event next) :
    ∀ request ∈ next.requests, Path.normalize request.file = request.file := by
  have old := canonical.requests
  cases step with
  | @send number call file rest read unsent =>
    intro request member
    rcases List.mem_append.mp member with before | now
    · exact old request before
    · obtain rfl := List.mem_singleton.mp now
      exact canonical.unsent call (List.mem_of_getElem? read) file (by simp [unsent])
  | join | refuse | enlist => exact fun request member => old request (List.mem_of_mem_eraseIdx member)
  | @start located rest unit files read known found safe owned =>
    intro request member
    rcases List.mem_append.mp member with before | now
    · exact old request before
    · obtain ⟨file, asked, rfl⟩ := List.mem_map.mp now
      have fresh := searched.fresh (by simp [searches, read]) known
      obtain ⟨name, _, rfl⟩ := List.mem_map.mp (fresh.mem_of_mem_members asked)
      exact Path.normalize_normalize name
  | _ => exact old

theorem units_step (canonical : s.Canonical) (step : s.Step event next) :
    ∀ {file unit}, next.files.units.get? file = some unit → Path.normalize file = file := by
  have old := @canonical.units
  intro file unit
  cases step with
  | join read known | heed read known => exact Table.forall_set old (old known)
  | enlist read =>
    exact Table.forall_set old (canonical.requests _ (List.mem_of_getElem? read))
  | _ => exact old

theorem step (canonical : s.Canonical) (searched : s.Searched) (step : s.Step event next) :
    next.Canonical where
  unsent := canonical.unsent_step step
  requests := canonical.requests_step searched step
  units := canonical.units_step step

end Canonical

/-- The unit of a file, which is a new one if nobody has asked for the file before. -/
def fileUnit (s : State) (file : String) : FileUnit :=
  (s.files.units.get? file).getD { name := file }

/-- The unit of the requested file has taken in the sender of a request that was handled earlier,
and has answered at once if it was complete. What stands under the name now has come out of it. -/
structure Serves (s before : State) (index : Nat) (request : CompileRequest) : Prop where
  kept : ∃ after, s.files.units.get? request.file = some after ∧
    ReflTransGen FileUnit.Moves ((before.fileUnit request.file).subscribe request.replyTo).1 after
  replayed : ∀ outcome, (before.fileUnit request.file).audience = .answered outcome →
    before.posted (.compile index) = [⟨request.replyTo, .file request.file, outcome⟩]

theorem Step.subscribes {index : Nat} {request : CompileRequest}
    (read : s.requests[index]? = some request)
    (wanted : (s.files.units.get? request.file).isSome = true ∨ s.shutdown.raised = false)
    (step : s.Step (.compile index) next) : next.files.units.get? request.file =
      some ((s.fileUnit request.file).subscribe request.replyTo).1 := by
  cases step with
  | @join _ _ unit again known =>
    obtain rfl := Option.some.inj (read.symm.trans again)
    simp [fileUnit, known]
  | refuse again unknown stopped =>
    obtain rfl := Option.some.inj (read.symm.trans again)
    simp [unknown, stopped] at wanted
  | enlist again unknown running =>
    obtain rfl := Option.some.inj (read.symm.trans again)
    simp [fileUnit, unknown, FileUnit.subscribe, Audience.subscribe]

theorem replayed {index : Nat} {request : CompileRequest} (tidy : s.Tidy)
    (taken : s.step (.compile index) = some next) (read : s.requests[index]? = some request)
    {outcome : Outcome} (isOver : (s.fileUnit request.file).audience = .answered outcome) :
    s.posted (.compile index) = [⟨request.replyTo, .file request.file, outcome⟩] := by
  refine (talk_posted tidy taken).replays (by simp [handled, read, CompileRequest.question]) ?_
  cases known : s.files.units.get? request.file with
  | none => simp [fileUnit, known] at isOver
  | some unit =>
    rw [audience?_file known, ← isOver, fileUnit, known]
    rfl

/-- The file that a call asks for in an event. -/
def asks (s : State) (number : Nat) : Event → List String
  | .send other => if other = number then (s.calls[number]?).elim [] (·.unsent.take 1) else []
  | _ => []

theorem asks_eq_nil {number : Nat} (still : event ≠ .send number) : s.asks number event = [] := by
  cases event with
  | send other =>
    have apart : other ≠ number := fun same => still (same ▸ rfl)
    simp [asks, apart]
  | _ => rfl

/-- What a call asks for is the first of the files that it has not asked for yet. -/
theorem CallMoves.asks {number : Nat} {call after : CompileCall}
    (moves : s.CallMoves number call event after) (known : s.calls[number]? = some call) :
    s.asks number event ++ after.unsent = call.unsent := by
  cases moves with
  | rest still => rw [asks_eq_nil still, List.nil_append]
  | send unsent => simp [State.asks, known, unsent]
  | accept => rw [asks_eq_nil (by simp), List.nil_append, CompileCall.accept_unsent]

theorem Step.calls_length_le (step : s.Step event next) : s.calls.length ≤ next.calls.length := by
  cases step <;> simp

end State

/-- The files that a call has asked for. -/
def Trace.asks (trace : Trace) (number : Nat) : List String :=
  trace.flatMap fun (s, event) => s.asks number event

theorem Trace.asks_concat (trace : Trace) (s : State) (event : Event) (number : Nat) :
    Trace.asks (trace ++ [(s, event)]) number = trace.asks number ++ s.asks number event := by
  simp [asks]

/-- What has been done in a run was done once: the parser and the locator were called at most once
for each name, and they ended at most once; the units that were known at any time are still there
and were only changed by their own operations; each package was started at most once and has asked
at most once for each of its members. Calls and packages ask for files under canonical names, which
are also the names of the units, so that all spellings of a name are served by one unit. -/
structure WorkedOnce (frontend : Frontend) (trace : Trace) (s : State) : Prop where
  parses : (trace.parses.map Path.normalize).Nodup
  parsed : (trace.parsed.map Path.normalize).Nodup
  lookups : trace.lookups.Nodup
  found : trace.found.Nodup
  files : ∀ before event file unit, (before, event) ∈ trace →
    before.files.units.get? file = some unit → ∃ after, s.files.units.get? file = some after ∧
      ReflTransGen FileUnit.Moves unit after
  packages : ∀ before event package unit, (before, event) ∈ trace →
    before.imports.units.get? package = some unit → ∃ after,
      s.imports.units.get? package = some after ∧ ReflTransGen PackageUnit.Moves unit after
  starts : trace.starts.Nodup
  memberRequests : (trace.memberRequests.map fun (package, file) =>
    (package, Path.normalize file)).Nodup
  asks : ∀ before names, (before, .call names) ∈ trace → ∃ call,
    s.calls[before.calls.length]? = some call ∧
      trace.asks before.calls.length ++ call.unsent = Names.distinct (names.map Path.normalize)
  members : ∀ package file, (package, file) ∈ trace.memberRequests → ∃ names,
    frontend.locate package = .ok names ∧ file ∈ names.map Path.normalize
  served : ∀ before index request, (before, .compile index) ∈ trace →
    before.requests[index]? = some request → Path.normalize request.file = request.file ∧
      (s.Serves before index request ∨
        before.files.units.get? request.file = none ∧ before.shutdown.raised = true)
  units : ∀ file unit, s.files.units.get? file = some unit →
    unit.name = file ∧ Path.normalize file = file

namespace Run

variable {frontend : Frontend} {keepGoing : Bool} {trace : Trace} {s : State}

theorem canonical (run : Run frontend keepGoing trace s) : s.Canonical :=
  run.invariant (.initial keepGoing) fun earlier canonical _ step =>
    canonical.step earlier.searched step

theorem asks_eq_nil (run : Run frontend keepGoing trace s) {number : Nat}
    (unknown : s.calls.length ≤ number) : trace.asks number = [] := by
  induction run with
  | start => rfl
  | @step trace s next event earlier _ taken ih =>
    have before := (State.step_of_tidy earlier.tidy taken).calls_length_le.trans unknown
    have nobody : s.calls[number]? = none := List.getElem?_eq_none before
    have silent : s.asks number event = [] := by
      cases event <;> simp [State.asks, nobody]
    rw [Trace.asks_concat, ih before, silent, List.nil_append]

/-- A call asks for each of its files once, in order. -/
theorem asks_eq (run : Run frontend keepGoing trace s) {before : State} {names : List String}
    (begun : (before, .call names) ∈ trace) : ∃ call, s.calls[before.calls.length]? = some call ∧
      trace.asks before.calls.length ++ call.unsent = Names.distinct (names.map Path.normalize) := by
  induction run with
  | start => simp at begun
  | @step trace s next event earlier _ taken ih =>
    have step := State.step_of_tidy earlier.tidy taken
    rcases List.mem_append.mp begun with old | new
    · obtain ⟨call, known, asked⟩ := ih old
      obtain ⟨after, there, moves⟩ := step.callMoves known
      refine ⟨after, there, ?_⟩
      rw [Trace.asks_concat, List.append_assoc, moves.asks known, asked]
    · obtain ⟨rfl, rfl⟩ := Prod.mk.inj (List.mem_singleton.mp new)
      obtain rfl := Option.some.inj taken
      refine ⟨.start names, by simp, ?_⟩
      rw [Trace.asks_concat, earlier.asks_eq_nil le_rfl, State.asks_eq_nil (by simp)]
      rfl

theorem canonical_of_parse (run : Run frontend keepGoing trace s) :
    ∀ file ∈ trace.parses, Path.normalize file = file := by
  intro file begun
  obtain ⟨unit, known⟩ := run.ledger.mem_parses.mp begun
  exact run.canonical.units known

/-- The members that are asked for are those that were located. -/
theorem located_of_memberRequest (run : Run frontend keepGoing trace s) {package file : String}
    (asked : (package, file) ∈ trace.memberRequests) :
    ∃ names, frontend.locate package = .ok names ∧ file ∈ names.map Path.normalize := by
  obtain ⟨⟨before, event⟩, taken, asked⟩ := List.mem_flatMap.mp asked
  obtain ⟨_, _, earlier, _⟩ := run.at_entry taken
  cases event with
  | located =>
    dsimp only at asked
    cases read : before.located with
    | nil => simp [State.memberRequests, read] at asked
    | cons located rest =>
      rw [State.memberRequests_located read] at asked
      split at asked
      · obtain ⟨member, inside, same⟩ := List.mem_map.mp asked
        obtain ⟨rfl, rfl⟩ := Prod.mk.inj same
        cases started : before.imports.started? located with
        | none => simp [started] at inside
        | some unit =>
          obtain ⟨_, names, found, listed⟩ :=
            State.members_of_started earlier.searched read started
          have answer := earlier.grounded.located located (by simp [read])
          exact ⟨names, answer.symm.trans found, listed member (by simpa [started] using inside)⟩
      · simp at asked
  | _ => simp [State.memberRequests] at asked

/-- A request is served by the unit of its file, or refused. -/
theorem served (run : Run frontend keepGoing trace s) {before : State} {index : Nat}
    {request : CompileRequest} (taken : (before, .compile index) ∈ trace)
    (read : before.requests[index]? = some request) :
    s.Serves before index request ∨
      before.files.units.get? request.file = none ∧ before.shutdown.raised = true := by
  by_cases wanted : (before.files.units.get? request.file).isSome = true ∨
      before.shutdown.raised = false
  · left
    obtain ⟨_, _, earlier, _, now⟩ := run.at_entry taken
    refine ⟨?_, fun outcome isOver => State.replayed earlier.tidy now read isOver⟩
    apply run.since taken
    · exact fun step => ⟨_, step.subscribes read wanted, .refl⟩
    · rintro s next event step ⟨middle, there, became⟩
      obtain ⟨after, kept, becomes⟩ := step.file_becomes there
      exact ⟨after, kept, became.trans becomes⟩
  · exact Or.inr (by simpa using wanted)

/-- Work is done at most once in every run. -/
theorem worked_once (run : Run frontend keepGoing trace s) : WorkedOnce frontend trace s where
  parses := by
    rw [List.map_congr_left run.canonical_of_parse, List.map_id']
    exact run.ledger.nodup_parses
  parsed := by
    have canonical : ∀ file ∈ trace.parsed, Path.normalize file = file :=
      fun file ended => run.canonical_of_parse file (run.ledger.mem_parses_of_parsed ended)
    rw [List.map_congr_left canonical, List.map_id']
    exact run.ledger.nodup_parsed
  lookups := run.ledger.nodup_lookups
  found := run.ledger.nodup_found
  files _ _ _ _ taken known := run.file_becomes taken known
  packages _ _ _ _ taken known := run.package_becomes taken known
  starts := run.ledger.nodup_starts
  memberRequests := by
    have canonical : ∀ request ∈ trace.memberRequests,
        (request.1, Path.normalize request.2) = request := by
      rintro ⟨package, file⟩ asked
      obtain ⟨names, _, listed⟩ := run.located_of_memberRequest asked
      obtain ⟨name, _, rfl⟩ := List.mem_map.mp listed
      rw [Path.normalize_normalize]
    rw [List.map_congr_left canonical, List.map_id']
    exact run.ledger.nodup_memberRequests
  asks _ _ begun := run.asks_eq begun
  members _ _ asked := run.located_of_memberRequest asked
  served := by
    intro before index request taken read
    obtain ⟨_, _, earlier, _⟩ := run.at_entry taken
    exact ⟨earlier.canonical.requests request (List.mem_of_getElem? read), run.served taken read⟩
  units _ _ known := ⟨run.tidy.fileName known, run.canonical.units known⟩

/-- Two files import the package, one of them under another spelling of its name, and the member is
located under another spelling too. -/
theorem worked_once_shop : ∃ trace s, Run shop true trace s ∧
    trace.parses = ["main.go", "bad.go", "p.go"] ∧ (trace.parses.map Path.normalize).Nodup ∧
    trace.lookups = ["p", "q"] ∧ trace.starts = ["p"] ∧
    trace.memberRequests = [("p", "p.go")] ∧ trace.asks 0 = ["main.go"] := by
  have settles : State.settles { keepGoing := true } shopEvents (fun trace s =>
      trace.parses == ["main.go", "bad.go", "p.go"] && trace.lookups == ["p", "q"] &&
      trace.starts == ["p"] && trace.memberRequests == [("p", "p.go")] &&
      trace.asks 0 == ["main.go"]) = true := by
    decide +kernel
  obtain ⟨more, s, run, _, check⟩ := Run.of_settles obeys_shopEvents settles
  simp only [Bool.and_eq_true, beq_iff_eq] at check
  obtain ⟨⟨⟨⟨parses, lookups⟩, starts⟩, requests⟩, asks⟩ := check
  exact ⟨_, s, run, parses, (worked_once run).parses, lookups, starts, requests, asks⟩

end Run

end GoFront.Build
