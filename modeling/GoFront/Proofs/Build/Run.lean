import GoFront.Build.Schedule
import GoFront.Proofs.Build.Step

/-!
Runs of the compiler over a frontend: every order of events that its parts allow, with calls and a
shutdown at any moment. The compiler is quiet when nothing but its user can make it move.
-/
namespace GoFront.Build

namespace Event

/-- Work outside the machine ends as the frontend says. -/
def Obeys (frontend : Frontend) : Event → Prop
  | .parsed file result => result = frontend.prepare file
  | .found package result => result = frontend.locate package
  | _ => True

/-- The event is a step of the machine, not of its user. -/
def IsInternal : Event → Prop
  | .call _ | .stop | .release => False
  | _ => True

end Event

/-- The steps taken so far, each with the state in which it was taken. -/
abbrev Trace := List (State × Event)

/-- The trace leads from a new compiler to the state. -/
inductive Run (frontend : Frontend) (keepGoing : Bool) : Trace → State → Prop where
  | start : Run frontend keepGoing [] { keepGoing }
  | step {trace : Trace} {s next : State} {event : Event} (run : Run frontend keepGoing trace s)
      (obeys : event.Obeys frontend) (taken : s.step event = some next) :
      Run frontend keepGoing (trace ++ [(s, event)]) next

namespace State

/-- The machine cannot move by itself. -/
def Quiet (frontend : Frontend) (s : State) : Prop :=
  ∀ event : Event, event.IsInternal → event.Obeys frontend → s.step event = none

/-- No message is on its way and no task or search is running. -/
structure Idle (s : State) : Prop where
  unsent : ∀ call ∈ s.calls, call.unsent = []
  requests : s.requests = []
  reports : s.reports = []
  importRequests : s.importRequests = []
  lookups : s.lookups = []
  located : s.located = []
  mail : s.mail = []
  tasks : ∀ {file task}, s.tasks.get? file = some task →
    task.phase = .finished ∨ ∃ pending, task.phase = .resolving [] pending

variable {s : State} {frontend : Frontend}

/-- Every reader that has asked for everything it wants takes its notices. -/
theorem deliver?_isSome (unsent : ∀ call ∈ s.calls, call.unsent = [])
    (tasks : ∀ {file task}, s.tasks.get? file = some task →
      task.phase = .finished ∨ ∃ pending, task.phase = .resolving [] pending)
    (delivery : Delivery) : (s.deliver? delivery).isSome = true := by
  obtain ⟨address, notice⟩ := delivery
  cases address with
  | members => rfl
  | task file =>
    cases known : s.tasks.get? file with
    | none => simp [deliver?, known]
    | some task =>
      rcases tasks known with finished | ⟨pending, resolving⟩
      · simp [deliver?, known, finished]
      · simp [deliver?, known, resolving, FileTask.receive?]
  | call number =>
    cases known : s.calls[number]? with
    | none => simp [deliver?, known]
    | some call =>
      have sent := unsent call (List.mem_of_getElem? known)
      cases ended : call.result <;>
        simp [deliver?, known, ended, CompileCall.isCollecting, sent]

theorem Quiet.idle (quiet : s.Quiet frontend) : s.Idle := by
  have unsent : ∀ call ∈ s.calls, call.unsent = [] := by
    intro call member
    obtain ⟨number, read⟩ := List.mem_iff_getElem?.mp member
    have stuck := quiet (.send number) trivial trivial
    cases unsent : call.unsent with
    | nil => rfl
    | cons file rest => simp [step, read, unsent] at stuck
  have tasks : ∀ {file task}, s.tasks.get? file = some task →
      task.phase = .finished ∨ ∃ pending, task.phase = .resolving [] pending := by
    intro file task known
    cases phase : task.phase with
    | finished => exact Or.inl rfl
    | parsing =>
      have stuck := quiet (.parsed file (frontend.prepare file)) trivial rfl
      simp [step, known, FileTask.isParsing, phase] at stuck
    | resolving unsent pending =>
      cases unsent with
      | nil => exact Or.inr ⟨pending, rfl⟩
      | cons site rest =>
        have stuck := quiet (.ask file) trivial trivial
        cases stopped : s.shutdown.raised <;>
          simp [step, known, FileTask.sendNext?, phase, stopped] at stuck
  refine ⟨unsent, ?_, ?_, ?_, ?_, ?_, ?_, tasks⟩
  · cases requests : s.requests with
    | nil => rfl
    | cons request rest => simpa [step, requests] using quiet (.compile 0) trivial trivial
  · cases reports : s.reports with
    | nil => rfl
    | cons report rest => simpa [step, reports] using quiet .report trivial trivial
  · cases requests : s.importRequests with
    | nil => rfl
    | cons request rest => simpa [step, requests] using quiet .resolve trivial trivial
  · cases lookups : s.lookups with
    | nil => rfl
    | cons lookup rest =>
      have stuck := quiet (.found lookup.package (frontend.locate lookup.package)) trivial rfl
      simp [step, lookups] at stuck
  · cases located : s.located with
    | nil => rfl
    | cons first rest => simpa [step, located] using quiet .located trivial trivial
  · cases mail : s.mail with
    | nil => rfl
    | cons delivery rest =>
      have stuck := quiet (.receive 0) trivial trivial
      have taken := deliver?_isSome (s := { s with mail := rest }) unsent tasks delivery
      simp only [step, mail, List.getElem?_cons_zero, List.eraseIdx_cons_zero] at stuck
      simp [stuck] at taken

theorem Idle.quiet (idle : s.Idle) : s.Quiet frontend := by
  intro event internal obeys
  cases event with
  | call | stop | release => exact internal.elim
  | send number =>
    cases read : s.calls[number]? with
    | none => simp [step, read]
    | some call => simp [step, read, idle.unsent call (List.mem_of_getElem? read)]
  | compile index => simp [step, idle.requests]
  | report => simp [step, idle.reports]
  | resolve => simp [step, idle.importRequests]
  | found package result => simp [step, idle.lookups]
  | located => simp [step, idle.located]
  | receive index => simp [step, idle.mail]
  | ask file =>
    cases known : s.tasks.get? file with
    | none => simp [step, known]
    | some task =>
      rcases idle.tasks known with finished | ⟨pending, resolving⟩
      · simp [step, known, FileTask.sendNext?, finished]
      · simp [step, known, FileTask.sendNext?, resolving]
  | parsed file result =>
    cases known : s.tasks.get? file with
    | none => simp [step, known]
    | some task =>
      rcases idle.tasks known with finished | ⟨pending, resolving⟩
      · simp [step, known, FileTask.isParsing, finished]
      · simp [step, known, FileTask.isParsing, resolving]

/-! ### Where the schedule stops -/

theorem next?_eq_none (nothing : s.next? = none) :
    s.nextCall? = none ∧ s.requests = [] ∧ s.reports = [] ∧ s.nextTask? = none ∧
      s.importRequests = [] ∧ s.located = [] ∧ s.mail.findIdx? s.isReadable = none := by
  unfold next? at nothing
  split at nothing
  · contradiction
  · rename_i noCall
    by_cases requests : s.requests = []
    · by_cases reports : s.reports = []
      · simp only [requests, reports, ne_eq, not_true_eq_false, if_false, List.isEmpty_nil,
          Bool.not_true, Bool.false_eq_true] at nothing
        split at nothing
        · contradiction
        · rename_i noTask
          by_cases importRequests : s.importRequests = []
          · by_cases located : s.located = []
            · refine ⟨noCall, requests, reports, noTask, importRequests, located, ?_⟩
              simpa [importRequests, located] using nothing
            · simp [importRequests, located] at nothing
          · simp [importRequests] at nothing
      · simp [requests, reports] at nothing
    · simp [requests] at nothing

theorem no_work_of_jobs_eq_nil (noJobs : s.jobs = []) :
    s.lookups = [] ∧ ∀ {file task}, s.tasks.get? file = some task → task.isParsing = false := by
  have noJob : ∀ job, job ∉ s.jobs := by simp [noJobs]
  simp only [jobs, List.mem_mergeSort, List.mem_append, List.mem_map, List.mem_filter,
    not_or] at noJob
  constructor
  · refine List.eq_nil_iff_forall_not_mem.mpr fun lookup running => ?_
    exact (noJob (.locate lookup.package)).2 ⟨lookup, running, rfl⟩
  · intro file task known
    refine Bool.eq_false_iff.mpr fun parsing => ?_
    exact (noJob (.parse task.file)).1 ⟨task, ⟨Table.mem_values known, parsing⟩, rfl⟩

/-- Where the schedule finds nothing to do, nothing is left to do. -/
theorem idle_of_next?_eq_none (nothing : s.next? = none) (noJobs : s.jobs = []) : s.Idle := by
  obtain ⟨noCall, requests, reports, noTask, importRequests, located, noMail⟩ :=
    next?_eq_none nothing
  obtain ⟨lookups, parsed⟩ := no_work_of_jobs_eq_nil noJobs
  have unsent : ∀ call ∈ s.calls, call.unsent = [] := by
    intro call member
    simpa using List.findIdx?_eq_none_iff.mp noCall call member
  have tasks : ∀ {file task}, s.tasks.get? file = some task →
      task.phase = .finished ∨ ∃ pending, task.phase = .resolving [] pending := by
    intro file task known
    cases phase : task.phase with
    | finished => exact Or.inl rfl
    | parsing => simpa [FileTask.isParsing, phase] using parsed known
    | resolving unsent pending =>
      cases unsent with
      | nil => exact Or.inr ⟨pending, rfl⟩
      | cons site rest =>
        have silent := List.find?_eq_none.mp (Option.map_eq_none_iff.mp noTask) task
          (Table.mem_values known)
        cases stopped : s.shutdown.raised <;>
          simp [FileTask.sendNext?, phase, stopped] at silent
  refine ⟨unsent, requests, reports, importRequests, lookups, located, ?_, tasks⟩
  refine List.eq_nil_iff_forall_not_mem.mpr fun delivery member => ?_
  have unreadable := List.findIdx?_eq_none_iff.mp noMail delivery member
  simp [isReadable, deliver?_isSome unsent tasks] at unreadable

/-- The events one after another, with the trace they leave; `none` if one of them cannot happen. -/
def replay (s : State) : List Event → Option (Trace × State)
  | [] => some ([], s)
  | event :: rest => do
    let next ← s.step event
    let (more, last) ← next.replay rest
    return ((s, event) :: more, last)

/-- The events lead to a state that is quiet, and trace and state pass the check. -/
def settles (s : State) (events : List Event) (check : Trace → State → Bool) : Bool :=
  (s.replay events).any fun (trace, last) =>
    last.next?.isNone && last.jobs.isEmpty && check trace last

end State

namespace Run

variable {frontend : Frontend} {keepGoing : Bool} {trace : Trace} {s : State}

theorem tidy (run : Run frontend keepGoing trace s) : s.Tidy := by
  induction run with
  | start => exact State.Tidy.initial keepGoing
  | step _ _ taken ih => exact ih.step (State.step_of_tidy ih taken)

/-- Every step of a run was taken at the end of a shorter run. -/
theorem at_entry (run : Run frontend keepGoing trace s) {before : State} {event : Event}
    (taken : (before, event) ∈ trace) :
    ∃ earlier next, Run frontend keepGoing earlier before ∧ event.Obeys frontend ∧
      before.step event = some next := by
  induction run with
  | start => simp at taken
  | @step trace s next last earlier obeys now ih =>
    rcases List.mem_append.mp taken with old | new
    · exact ih old
    · obtain ⟨rfl, rfl⟩ := Prod.mk.inj (List.mem_singleton.mp new)
      exact ⟨trace, next, earlier, obeys, now⟩

/-- What holds at first and is kept by every step holds in every state of every run. -/
theorem invariant {Inv : State → Prop} (run : Run frontend keepGoing trace s)
    (initial : Inv { keepGoing })
    (step : ∀ {trace : Trace} {s next : State} {event : Event}, Run frontend keepGoing trace s →
      Inv s → event.Obeys frontend → s.Step event next → Inv next) : Inv s := by
  induction run with
  | start => exact initial
  | step earlier obeys taken ih =>
    exact step earlier ih obeys (State.step_of_tidy earlier.tidy taken)

/-- What holds after a step of a run and is kept by every step holds at its end. -/
theorem since {holds : State → Prop} (run : Run frontend keepGoing trace s) {before : State}
    {event : Event} (taken : (before, event) ∈ trace)
    (held : ∀ {next : State}, before.Step event next → holds next)
    (keeps : ∀ {s next : State} {event : Event}, s.Step event next → holds s → holds next) :
    holds s := by
  induction run with
  | start => simp at taken
  | step earlier _ now ih =>
    have step := State.step_of_tidy earlier.tidy now
    rcases List.mem_append.mp taken with old | new
    · exact keeps step (ih old)
    · obtain ⟨rfl, rfl⟩ := Prod.mk.inj (List.mem_singleton.mp new)
      exact held step

theorem replay {events : List Event} {more : Trace} {last : State}
    (run : Run frontend keepGoing trace s) (obey : ∀ event ∈ events, event.Obeys frontend)
    (played : s.replay events = some (more, last)) :
    Run frontend keepGoing (trace ++ more) last := by
  induction events generalizing trace s more with
  | nil =>
    obtain ⟨rfl, rfl⟩ : [] = more ∧ s = last := by simpa [State.replay] using played
    simpa using run
  | cons event rest ih =>
    simp only [State.replay, Option.bind_eq_bind, Option.bind_eq_some_iff, Option.pure_def,
      Option.some.injEq, Prod.mk.injEq] at played
    obtain ⟨next, taken, ⟨more, last⟩, played, rfl, rfl⟩ := played
    have later := ih (run.step (obey event List.mem_cons_self) taken)
      (fun event member => obey event (List.mem_cons_of_mem _ member)) played
    simpa using later

/-- A run that is played to its end, where the compiler is quiet. -/
theorem of_settles {first : Event} {events : List Event} {check : Trace → State → Bool}
    (obey : ∀ event ∈ first :: events, event.Obeys frontend)
    (settles : State.settles { keepGoing } (first :: events) check = true) :
    ∃ more last, Run frontend keepGoing (({ keepGoing }, first) :: more) last ∧
      last.Quiet frontend ∧ check (({ keepGoing }, first) :: more) last = true := by
  obtain ⟨⟨trace, last⟩, played, passes⟩ := (Option.any_eq_true _ _).mp settles
  have run := start.replay obey played
  simp only [State.replay, Option.bind_eq_bind, Option.bind_eq_some_iff, Option.pure_def,
    Option.some.injEq, Prod.mk.injEq] at played
  obtain ⟨_, _, ⟨more, last⟩, _, rfl, rfl⟩ := played
  simp only [Bool.and_eq_true, Option.isNone_iff_eq_none, List.isEmpty_iff] at passes
  obtain ⟨⟨nothing, noJobs⟩, passes⟩ := passes
  exact ⟨more, last, run, (State.idle_of_next?_eq_none nothing noJobs).quiet, passes⟩

end Run

end GoFront.Build
