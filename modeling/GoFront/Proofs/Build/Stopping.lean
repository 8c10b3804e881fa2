import GoFront.Proofs.Build.Lifetime
import GoFront.Proofs.Build.Replies
import GoFront.Proofs.Build.Work

/-!
After shutdown. No unit is added and no work is begun, but the compiler goes on serving: a request
for a known unit is answered with the outcome of the unit, any other with a refusal, and a task that
finds the flag up asks for nothing more and lets its file fail.
-/
namespace GoFront.Build

/-- The steps lead from one state to another, each taken in the state beside it. -/
inductive Leads (frontend : Frontend) : State → Trace → State → Prop where
  | refl (s : State) : Leads frontend s [] s
  | step {s next last : State} {event : Event} {trace : Trace} (obeys : event.Obeys frontend)
      (taken : s.step event = some next) (rest : Leads frontend next trace last) :
      Leads frontend s ((s, event) :: trace) last

namespace Leads

variable {frontend : Frontend} {keepGoing : Bool} {trace more : Trace} {first last : State}

theorem run (later : Leads frontend first more last) (run : Run frontend keepGoing trace first) :
    Run frontend keepGoing (trace ++ more) last := by
  induction later generalizing trace with
  | refl => simpa using run
  | step obeys taken _ ih => simpa using ih (run.step obeys taken)

/-- What every step of a run keeps is kept by all the steps that follow. -/
theorem keeps {holds : State → Prop} (later : Leads frontend first more last)
    (run : Run frontend keepGoing trace first) (held : holds first)
    (step : ∀ {trace : Trace} {s next : State} {event : Event}, Run frontend keepGoing trace s →
      s.Step event next → holds s → holds next) : holds last := by
  induction later generalizing trace with
  | refl => exact held
  | step obeys taken _ ih =>
    exact ih (run.step obeys taken) (step run (State.step_of_tidy run.tidy taken) held)

theorem split {earlier later : Trace} {before : State} {event : Event}
    (leads : Leads frontend first (earlier ++ (before, event) :: later) last) :
    ∃ next, Leads frontend first earlier before ∧ before.step event = some next ∧
      event.Obeys frontend ∧ Leads frontend next later last := by
  induction earlier generalizing first with
  | nil =>
    cases leads with
    | step obeys taken rest => exact ⟨_, .refl _, taken, obeys, rest⟩
  | cons entry earlier ih =>
    cases leads with
    | step obeys taken rest =>
      obtain ⟨next, front, now, obeyed, back⟩ := ih rest
      exact ⟨next, .step obeys taken front, now, obeyed, back⟩

theorem of_replay {events : List Event} (obey : ∀ event ∈ events, event.Obeys frontend)
    (played : first.replay events = some (more, last)) : Leads frontend first more last := by
  induction events generalizing first more with
  | nil =>
    obtain ⟨rfl, rfl⟩ : [] = more ∧ first = last := by simpa [State.replay] using played
    exact .refl _
  | cons event rest ih =>
    simp only [State.replay, Option.bind_eq_bind, Option.bind_eq_some_iff, Option.pure_def,
      Option.some.injEq, Prod.mk.injEq] at played
    obtain ⟨next, taken, ⟨more, last⟩, played, rfl, rfl⟩ := played
    exact .step (obey event List.mem_cons_self) taken
      (ih (fun event member => obey event (List.mem_cons_of_mem _ member)) played)

end Leads

theorem FileUnit.heed_of_answered (unit : FileUnit) (report : Report) {outcome : Outcome}
    (answered : unit.audience = .answered outcome) :
    (unit.heed report).1.audience = .answered outcome := by
  have kept := (unit.heed_heeds report).change.outcome?_eq (by rw [answered]; rfl)
  cases after : (unit.heed report).1.audience with
  | waiting => simp [after, Audience.outcome?] at kept
  | answered other => simpa [after, Audience.outcome?] using kept

namespace State

variable {s next : State} {event : Event}

/-! ### Nothing is begun -/

theorem tasks_eq_nil_of_stopped (stopped : s.shutdown.raised = true) (event : Event) :
    (s.effects event).tasks = [] := by
  by_cases compiles : ∃ index, event = .compile index
  · obtain ⟨index, rfl⟩ := compiles
    cases read : s.requests[index]? with
    | none => simp [effects, read]
    | some request => simp [tasks_compile read, stopped]
  · exact effects_tasks_eq_nil fun index same => compiles ⟨index, same⟩

theorem lookups_eq_nil_of_stopped (stopped : s.shutdown.raised = true) (event : Event) :
    (s.effects event).lookups = [] := by
  by_cases resolves : event = .resolve
  · subst resolves
    cases read : s.importRequests with
    | nil => simp [effects, read]
    | cons request rest => simp [lookups_resolve read, stopped]
  · exact effects_lookups_eq_nil resolves

theorem Step.isSome_file (step : s.Step event next) (stopped : s.shutdown.raised = true)
    (file : String) :
    (next.files.units.get? file).isSome = (s.files.units.get? file).isSome := by
  have count := step.count_tasks file
  rw [tasks_eq_nil_of_stopped stopped, List.count_nil, Nat.zero_add] at count
  revert count
  cases (s.files.units.get? file).isSome <;> cases (next.files.units.get? file).isSome <;> simp

theorem Step.isSome_package (step : s.Step event next) (stopped : s.shutdown.raised = true)
    (package : String) :
    (next.imports.units.get? package).isSome = (s.imports.units.get? package).isSome := by
  have count := step.count_lookups package
  rw [lookups_eq_nil_of_stopped stopped, List.map_nil, List.count_nil, Nat.zero_add] at count
  revert count
  cases (s.imports.units.get? package).isSome <;>
    cases (next.imports.units.get? package).isSome <;> simp

/-- No import is asked for; those that were asked for are handled in order. -/
theorem Step.importRequests_suffix (step : s.Step event next) (stopped : s.shutdown.raised = true) :
    next.importRequests <:+ s.importRequests := by
  cases step with
  | ask known running => simp [stopped] at running
  | reject read | follow read | reuse read | turnAway read | search read =>
    rw [read]
    exact List.suffix_cons _ _
  | _ => exact List.suffix_refl _

/-- Since the first state, in which the flag was up, no unit was added and no import asked for. -/
structure Frozen (first s : State) : Prop where
  raised : s.shutdown.raised = true
  files : ∀ file, (s.files.units.get? file).isSome = (first.files.units.get? file).isSome
  packages : ∀ package,
    (s.imports.units.get? package).isSome = (first.imports.units.get? package).isSome
  importRequests : s.importRequests <:+ first.importRequests

theorem Step.frozen {first : State} (step : s.Step event next) (frozen : first.Frozen s) :
    first.Frozen next where
  raised := step.raised frozen.raised
  files file := (step.isSome_file frozen.raised file).trans (frozen.files file)
  packages package := (step.isSome_package frozen.raised package).trans (frozen.packages package)
  importRequests := (step.importRequests_suffix frozen.raised).trans frozen.importRequests

/-! ### Requests are answered -/

namespace Talk

variable {deliveries : List Delivery} {audiences : Audiences} {unit : UnitName} {address : Address}

/-- Who asks for an open unit is rejected or joins those who wait for it. -/
theorem joins (talk : s.Talk event deliveries audiences) {subscribers : List Address}
    (asked : s.handled event = some (unit, address))
    (known : s.audience? unit = some (.waiting subscribers)) :
    (∃ delivery, s.Rejects event delivery ∧ deliveries = [delivery]) ∨
      deliveries = [] ∧ address ∈ audiences.subscribers unit := by
  cases talk with
  | announce unasked => simp [asked] at unasked
  | subscribe again found =>
    obtain ⟨rfl, rfl⟩ := Prod.mk.inj (Option.some.inj (asked.symm.trans again))
    obtain rfl := Option.some.inj (known.symm.trans found)
    right
    simp [Audience.subscribe, Audiences.subscribers_update, Audience.subscribers]
  | create again unknown | refuse again unknown =>
    obtain ⟨rfl, rfl⟩ := Prod.mk.inj (Option.some.inj (asked.symm.trans again))
    simp [known] at unknown
  | reject rejects => exact Or.inl ⟨_, rejects, rfl⟩

/-- Who waits for a unit waits on, or is told how it has ended. -/
theorem told_or_waiting (talk : s.Talk event deliveries audiences)
    (waits : address ∈ s.subscribers unit) :
    address ∈ audiences.subscribers unit ∨
      ∃ outcome, audiences.outcome? unit = some outcome ∧
        ⟨address, unit, outcome⟩ ∈ deliveries := by
  obtain ⟨subscribers, isOpen, _⟩ := open_of_subscriber waits
  cases talk with
  | announce unasked announces =>
    by_cases still : address ∈ audiences.subscribers unit
    · exact Or.inl still
    · -- Those who were waiting and wait no more are counted among those who were told.
      have balance := announces.balance (unit, address)
      have before : 0 < (Audiences.subscribers s.audience? unit).count address :=
        List.count_pos_iff.mpr waits
      have after := List.count_eq_zero.mpr still
      dsimp only at balance
      have answered : (unit, address) ∈ deliveries.map Delivery.question :=
        List.count_pos_iff.mp (by omega)
      obtain ⟨⟨reader, told, outcome⟩, delivered, same⟩ := List.mem_map.mp answered
      obtain ⟨rfl, rfl⟩ := Prod.mk.inj same
      exact Or.inr ⟨outcome, announces.tells _ delivered, delivered⟩
  | @subscribe changed reader audience asked known =>
    left
    rw [Audiences.subscribers_update]
    split
    · rename_i same
      subst same
      obtain rfl := Option.some.inj (isOpen.symm.trans known)
      simp_all [Audience.subscribe, Audience.subscribers, State.subscribers, Audiences.subscribers]
    · exact waits
  | @create changed reader asked unknown =>
    have apart : unit ≠ changed := by
      rintro rfl
      simp [isOpen] at unknown
    left
    rw [Audiences.subscribers_update, if_neg apart]
    exact waits
  | refuse => exact Or.inl waits
  | reject => exact Or.inl waits

end Talk

/-! ### Tasks give up -/

/-- When the reports on their way are handled, the file has ended with this outcome. -/
def Ends (s : State) (file : String) (outcome : Outcome) : Prop :=
  ∃ unit, s.files.units.get? file = some unit ∧ (s.ahead file unit).audience = .answered outcome

theorem ahead_of_report (report : Report) (reports : next.reports = s.reports ++ [report])
    (file : String) (unit : FileUnit) : next.ahead file unit =
      if report.file = file then ((s.ahead file unit).heed report).1 else s.ahead file unit := by
  rw [← ahead_append, ahead, reports]
  rfl

theorem ahead_of_answered {file : String} {unit : FileUnit} {outcome : Outcome}
    (answered : unit.audience = .answered outcome) :
    (s.ahead file unit).audience = .answered outcome := by
  have folded : ∀ (reports : List Report) (unit : FileUnit), unit.audience = .answered outcome →
      (reports.foldl (fun unit report => (unit.heed report).1) unit).audience =
        .answered outcome := by
    intro reports
    induction reports with
    | nil => exact fun unit answered => answered
    | cons report rest ih => exact fun unit answered => ih _ (unit.heed_of_answered report answered)
  exact folded _ _ (by simp [FileUnit.muted, answered, Audience.muted])

theorem Step.ends (step : s.Step event next) {file : String} {outcome : Outcome}
    (ends : s.Ends file outcome) : next.Ends file outcome := by
  obtain ⟨unit, known, answered⟩ := ends
  have reported : ∀ {report : Report} {tasks : Table FileTask} {mail : List Delivery},
      Ends { s with tasks, mail, reports := s.reports ++ [report] } file outcome := by
    intro report tasks mail
    refine ⟨unit, known, ?_⟩
    rw [ahead_of_report (s := s) _ rfl]
    split
    · exact FileUnit.heed_of_answered _ report answered
    · exact answered
  cases step with
  | @join index request other read found =>
    by_cases same : file = request.file
    · subst same
      obtain rfl := Option.some.inj (known.symm.trans found)
      exact ⟨(unit.subscribe request.replyTo).1, by simp, by simpa [ahead] using answered⟩
    · exact ⟨unit, by simpa [same] using known, answered⟩
  | @enlist index request read unknown =>
    exact ⟨unit, Table.keeps_new unknown known, answered⟩
  | @heed report rest other read found =>
    by_cases same : file = report.file
    · subst same
      obtain rfl := Option.some.inj (known.symm.trans found)
      exact ⟨(unit.heed report).1, by simp, by simpa [ahead, read, unit.muted_heed] using answered⟩
    · exact ⟨unit, by simpa [same] using known, by simpa [ahead, read, Ne.symm same] using answered⟩
  | giveUp | parsed | relay => exact reported
  | _ => exact ⟨unit, known, answered⟩

/-- A file that ends with an outcome has it, unless reports about it are on their way. -/
theorem Ends.outcome? {file : String} {outcome : Outcome} (ends : s.Ends file outcome) :
    s.outcome? (.file file) = some outcome ∨
      s.outcome? (.file file) = none ∧ ∃ report ∈ s.reports, report.file = file := by
  obtain ⟨unit, known, answered⟩ := ends
  rw [State.outcome?, Audiences.outcome?, audience?_file known, Option.bind_some]
  cases audience : unit.audience with
  | answered kept =>
    left
    have same := (ahead_of_answered audience).symm.trans answered
    exact congrArg Audience.outcome? same
  | waiting subscribers =>
    right
    refine ⟨rfl, ?_⟩
    by_contra nothing
    have none : s.reports.filter (·.file = file) = [] := by
      simpa [List.filter_eq_nil_iff] using nothing
    simp [ahead, none, FileUnit.muted, audience, Audience.muted] at answered

theorem Step.task_finished (tidy : s.Tidy) (step : s.Step event next) {file : String}
    (finished : s.tasks.get? file = some ⟨file, .finished⟩) :
    next.tasks.get? file = some ⟨file, .finished⟩ := by
  cases step with
  | @enlist index request read unknown =>
    obtain ⟨unit, known⟩ := tidy.taskUnit finished
    have apart : file ≠ request.file := by
      rintro rfl
      simp [unknown] at known
    simpa [apart] using finished
  | @ask other site rest pending known | @giveUp other site rest pending known
  | @parsed other result known | @relay index notice other pending read known =>
    have apart : file ≠ other := by
      rintro rfl
      simp [finished] at known
    simpa [apart] using finished
  | _ => exact finished

/-- The task of a file that asks for an import after shutdown ends instead, and its file with it. -/
theorem Step.gaveUp (abreast : s.Abreast) (tidy : s.Tidy) {file : String}
    (step : s.Step (.ask file) next) (stopped : s.shutdown.raised = true) :
    ∃ site rest pending, s.tasks.get? file = some ⟨file, .resolving (site :: rest) pending⟩ ∧
      next.tasks.get? file = some ⟨file, .finished⟩ ∧
      next.Ends file (.failed (.cancelled (UnitName.package site.package).text)) := by
  cases step with
  | ask known running => simp [stopped] at running
  | @giveUp _ site rest pending known =>
    obtain ⟨unit, held⟩ := tidy.taskUnit known
    obtain ⟨task, running, kept⟩ := abreast held
    obtain rfl := Option.some.inj (known.symm.trans running)
    obtain ⟨isOpen, _, waits⟩ := kept
    refine ⟨site, rest, pending, known, by simp, unit, held, ?_⟩
    -- The task has read no answer yet, so its file waits for the package that it does not ask for.
    let notice := Notice.cancelled (.package site.package)
    have awaited : notice.unit.name ∈ (s.ahead file unit).waitingOn :=
      (waits site.package).mpr (Or.inl (by simp))
    have about : (Report.importResolved file notice).file = file := rfl
    have failed : notice.outcome.isFailed = true := rfl
    rw [ahead_of_report (s := s) (.importResolved file notice) rfl, if_pos about,
      FileUnit.heed, FileUnit.importResolved_eq isOpen awaited, if_pos (Or.inl failed)]
    rfl

end State

/-- What follows on a shutdown. The first state is one in which the flag is up, and the trace leads
from it to the last one. -/
structure WindsDown (frontend : Frontend) (first : State) (trace : Trace) (last : State) :
    Prop where
  files : ∀ file, file ∈ last.files.units.keys ↔ file ∈ first.files.units.keys
  packages : ∀ package, package ∈ last.imports.units.keys ↔ package ∈ first.imports.units.keys
  parses : trace.parses = []
  lookups : trace.lookups = []
  /-- A request for an unknown unit is refused. -/
  refused : ∀ before event unit address, (before, event) ∈ trace →
    before.handled event = some (unit, address) → before.audience? unit = none →
    before.posted event = [⟨address, unit, .failed (.cancelled unit.text)⟩]
  /-- A request for a complete unit is answered at once. -/
  replayed : ∀ before event unit address outcome, (before, event) ∈ trace →
    before.handled event = some (unit, address) → before.outcome? unit = some outcome →
    before.posted event = [⟨address, unit, outcome⟩]
  /-- A request for an open unit is rejected, or its sender waits and is told when the unit ends. -/
  awaited : ∀ earlier before event later unit address subscribers,
    trace = earlier ++ (before, event) :: later → before.handled event = some (unit, address) →
    before.audience? unit = some (.waiting subscribers) →
    (∃ delivery, before.Rejects event delivery ∧ before.posted event = [delivery]) ∨
    before.posted event = [] ∧ (address ∈ last.subscribers unit ∨
      ∃ outcome, last.outcome? unit = some outcome ∧
        ⟨address, unit, outcome⟩ ∈ Trace.posted later)
  outcomes : ∀ before event unit outcome, (before, event) ∈ trace →
    before.outcome? unit = some outcome → last.outcome? unit = some outcome
  importRequests : last.importRequests <:+ first.importRequests
  /-- A task that sees the flag ends, and its file fails as cancelled. -/
  gaveUp : ∀ before file, (before, .ask file) ∈ trace → ∃ site rest pending,
    before.tasks.get? file = some ⟨file, .resolving (site :: rest) pending⟩ ∧
    last.tasks.get? file = some ⟨file, .finished⟩ ∧
    (last.outcome? (.file file) =
        some (.failed (.cancelled (UnitName.package site.package).text)) ∨
      last.outcome? (.file file) = none ∧ ∃ report ∈ last.reports, report.file = file)
  /-- When the compiler has come to rest no report is left, and nobody waits as long as its handle
  is held. -/
  rest : last.Quiet frontend → last.reports = [] ∧
    (last.shutdown.owned = true → ∀ unit, last.subscribers unit = [])

/-- A file with two imports is stopped after it has asked for the first. -/
def stopEvents : List Event :=
  [.call ["bad.go"], .send 0, .compile 0, shop.perform (.parse "bad.go"), .report, .ask "bad.go",
    .call ["main.go"], .send 1, .stop]

/-- The file gives up; its first import and a new file are refused; two more calls ask for it, one
before and one after it has ended. -/
def afterStopEvents : List Event :=
  [.ask "bad.go", .resolve, .compile 0, .call ["bad.go"], .send 2, .compile 0, .report,
    .call ["bad.go"], .send 3, .compile 0, .receive 0, .receive 0, .receive 0, .receive 0,
    .receive 0]

namespace Run

variable {frontend : Frontend} {keepGoing : Bool} {trace more : Trace} {first last : State}

theorem frozen (run : Run frontend keepGoing trace first) (raised : first.shutdown.raised = true)
    (later : Leads frontend first more last) : first.Frozen last :=
  later.keeps run ⟨raised, fun _ => rfl, fun _ => rfl, List.suffix_refl _⟩
    fun _ step frozen => step.frozen frozen

/-- Every later step was taken after shutdown, in a state of a run. -/
theorem stopped_at_entry (run : Run frontend keepGoing trace first)
    (raised : first.shutdown.raised = true) (later : Leads frontend first more last)
    {before : State} {event : Event} (taken : (before, event) ∈ more) :
    ∃ earlier next rest, Run frontend keepGoing earlier before ∧ before.shutdown.raised = true ∧
      event.Obeys frontend ∧ before.step event = some next ∧ Leads frontend next rest last := by
  obtain ⟨front, back, rfl⟩ := List.append_of_mem taken
  obtain ⟨next, leads, now, obeys, rest⟩ := later.split
  exact ⟨trace ++ front, next, back, leads.run run, (run.frozen raised leads).raised, obeys, now,
    rest⟩

theorem outcome_stays (run : Run frontend keepGoing trace first)
    (later : Leads frontend first more last) {unit : UnitName} {outcome : Outcome}
    (ended : first.outcome? unit = some outcome) : last.outcome? unit = some outcome :=
  later.keeps run ended fun earlier step held => step.outcome?_eq earlier.tidy held

/-- Who waits for a unit is told of its end when it comes. -/
theorem told_or_waiting (run : Run frontend keepGoing trace first)
    (later : Leads frontend first more last) {unit : UnitName} {address : Address}
    (waits : address ∈ first.subscribers unit) :
    address ∈ last.subscribers unit ∨ ∃ outcome, last.outcome? unit = some outcome ∧
      ⟨address, unit, outcome⟩ ∈ Trace.posted more := by
  induction later generalizing trace with
  | refl => exact Or.inl waits
  | @step s next last event more obeys taken rest ih =>
    have posted : Trace.posted ((s, event) :: more) = s.posted event ++ more.posted := rfl
    have talk := State.talk_posted run.tidy taken
    have run := run.step obeys taken
    rcases talk.told_or_waiting waits with still | ⟨outcome, ended, told⟩
    · refine (ih run still).imp id ?_
      rintro ⟨outcome, ended, told⟩
      exact ⟨outcome, ended, by simp [posted, told]⟩
    · exact Or.inr ⟨outcome, run.outcome_stays rest ended, by simp [posted, told]⟩

/-- After shutdown nothing new is begun, and all requests are answered. -/
theorem winds_down (run : Run frontend keepGoing trace first)
    (raised : first.shutdown.raised = true) (later : Leads frontend first more last) :
    WindsDown frontend first more last where
  files file := by
    simp only [Table.mem_keys, ← Option.isSome_iff_exists, (run.frozen raised later).files]
  packages package := by
    simp only [Table.mem_keys, ← Option.isSome_iff_exists, (run.frozen raised later).packages]
  parses := by
    refine List.flatMap_eq_nil_iff.mpr fun (before, event) taken => ?_
    obtain ⟨_, _, _, _, stopped, _⟩ := run.stopped_at_entry raised later taken
    exact State.tasks_eq_nil_of_stopped stopped event
  lookups := by
    refine List.flatMap_eq_nil_iff.mpr fun (before, event) taken => ?_
    obtain ⟨_, _, _, _, stopped, _⟩ := run.stopped_at_entry raised later taken
    exact List.map_eq_nil_iff.mpr (State.lookups_eq_nil_of_stopped stopped event)
  refused := by
    intro before event unit address taken asked unknown
    obtain ⟨_, _, _, earlier, stopped, _, now, _⟩ := run.stopped_at_entry raised later taken
    exact (State.talk_posted earlier.tidy now).refuses stopped asked unknown
  replayed := by
    intro before event unit address outcome taken asked ended
    obtain ⟨_, _, _, earlier, _, _, now, _⟩ := run.stopped_at_entry raised later taken
    refine (State.talk_posted earlier.tidy now).replays asked ?_
    obtain ⟨audience, known, answered⟩ := Option.bind_eq_some_iff.mp ended
    cases audience with
    | waiting => simp [Audience.outcome?] at answered
    | answered kept =>
      obtain rfl := Option.some.inj answered
      exact known
  awaited := by
    rintro front before event back unit address subscribers rfl asked known
    obtain ⟨next, leads, now, obeys, rest⟩ := later.split
    have earlier := leads.run run
    refine ((State.talk_posted earlier.tidy now).joins asked known).imp id ?_
    rintro ⟨silent, joined⟩
    exact ⟨silent, (earlier.step obeys now).told_or_waiting rest joined⟩
  outcomes := by
    intro before event unit outcome taken ended
    obtain ⟨_, _, _, earlier, _, obeys, now, rest⟩ := run.stopped_at_entry raised later taken
    exact earlier.outcome_stays (.step obeys now rest) ended
  importRequests := (run.frozen raised later).importRequests
  gaveUp := by
    intro before file taken
    obtain ⟨_, next, _, earlier, stopped, obeys, now, rest⟩ :=
      run.stopped_at_entry raised later taken
    have step := State.step_of_tidy earlier.tidy now
    obtain ⟨site, sites, pending, asking, finished, ends⟩ :=
      step.gaveUp earlier.abreast earlier.tidy stopped
    have after := earlier.step obeys now
    refine ⟨site, sites, pending, asking, ?_, ?_⟩
    · exact rest.keeps after finished fun earlier step => step.task_finished earlier.tidy
    · exact State.Ends.outcome? (rest.keeps after ends fun _ step => step.ends)
  rest := by
    intro quiet
    refine ⟨quiet.idle.reports, fun alive unit => ?_⟩
    refine List.eq_nil_iff_forall_not_mem.mpr fun address waits => ?_
    obtain ⟨subscribers, isOpen, _⟩ := State.open_of_subscriber waits
    exact (later.run run).not_open alive quiet unit ⟨subscribers, isOpen⟩

theorem winds_down_shop : ∃ trace first more last, Run shop false trace first ∧
    first.shutdown.raised = true ∧ Leads shop first more last ∧ last.Quiet shop ∧
    more.handled = [(.package "p", .task "bad.go"), (.file "main.go", .call 1),
      (.file "bad.go", .call 2), (.file "bad.go", .call 3)] ∧
    WindsDown shop first more last := by
  have played : (State.replay {} stopEvents).any (fun played => played.2.shutdown.raised &&
      played.2.settles afterStopEvents fun more _ =>
        more.handled == [(.package "p", .task "bad.go"), (.file "main.go", .call 1),
          (.file "bad.go", .call 2), (.file "bad.go", .call 3)]) = true := by
    decide +kernel
  obtain ⟨⟨trace, first⟩, stops, played⟩ := (Option.any_eq_true _ _).mp played
  obtain ⟨raised, settles⟩ := Bool.and_eq_true_iff.mp played
  obtain ⟨⟨more, last⟩, goesOn, passes⟩ := (Option.any_eq_true _ _).mp settles
  simp only [Bool.and_eq_true, Option.isNone_iff_eq_none, List.isEmpty_iff, beq_iff_eq] at passes
  obtain ⟨⟨nothing, noJobs⟩, handled⟩ := passes
  have run : Run shop false trace first :=
    start.replay (by simp [stopEvents, Event.Obeys, Frontend.perform]) stops
  have later : Leads shop first more last :=
    .of_replay (by simp [afterStopEvents, Event.Obeys]) goesOn
  exact ⟨trace, first, more, last, run, raised, later,
    (State.idle_of_next?_eq_none nothing noJobs).quiet, handled, winds_down run raised later⟩

end Run

end GoFront.Build
