import GoFront.Proofs.Build.Verdict
import Mathlib.Data.List.Perm.Subperm

/-!
Exactly one reply for each request, and one verdict for each unit. What the desks have sent in a run
is matched with the requests that they have handled. All notices about a unit agree, apart from the
rejections that go to a single importer and from what a task tells its own file when it gives up.
-/
namespace GoFront.Build

theorem Audiences.Announces.unknown {audiences next : Audiences} {deliveries : List Delivery}
    {unit : UnitName} (announces : Announces audiences deliveries next)
    (unknown : audiences unit = none) : next unit = none := by
  induction announces with
  | nil => exact unknown
  | @cons audiences next changed before after deliveries more known change rest ih =>
    have apart : unit ≠ changed := by
      rintro rfl
      simp [known] at unknown
    exact ih (by simpa [apart] using unknown)

namespace State

/-- The notices that the desks send in an event. -/
def posted (s : State) (event : Event) : List Delivery :=
  match s.step event with
  | none => []
  | some next => next.mail.drop (s.unread event).length

/-- The notice that a task makes for its own file in an event, and sends to nobody else. A task
never finds the import desk gone, since the desk stays as long as there are tasks. -/
def ownNotices (s : State) : Event → List Notice
  | .ask file =>
    match (s.tasks.get? file).bind (·.sendNext? s.shutdown.raised true) with
    | some (_, .report (.importResolved _ notice)) => [notice]
    | _ => []
  | _ => []

/-- The notices that the import desk makes for itself in an event, about the member files that it
cannot ask for because the handle of the compiler is gone. -/
def presumed (s : State) : Event → List Notice
  | .located =>
    if s.shutdown.owned then []
    else
      s.located.head?.elim [] fun located =>
        (s.imports.handleLocated true located).2.requests.map fun request =>
          .disconnected (.file request.file)
  | _ => []

/-- All notices that are made in an event. -/
def notices (s : State) (event : Event) : List Notice :=
  (s.posted event).map (·.notice) ++ s.ownNotices event ++ s.presumed event

/-- The notice rejects an import in the event. -/
def RejectsWith (s : State) (event : Event) (notice : Notice) : Prop :=
  ∃ delivery, s.Rejects event delivery ∧ delivery.notice = notice

variable {s next : State} {event : Event}

theorem talk_posted (tidy : s.Tidy) (taken : s.step event = some next) :
    s.Talk event (s.posted event) next.audience? := by
  obtain ⟨deliveries, talk, mail⟩ := (step_of_tidy tidy taken).talk tidy
  have same : s.posted event = deliveries := by simp [posted, taken, mail]
  exact same ▸ talk

/-! ### Agreement -/

/-- After shutdown no work is begun. -/
theorem Talk.unknown {deliveries : List Delivery} {audiences : Audiences}
    (talk : s.Talk event deliveries audiences) (stopped : s.shutdown.raised = true)
    {unit : UnitName} (unknown : s.audience? unit = none) : audiences unit = none := by
  cases talk with
  | announce _ announces => exact announces.unknown unknown
  | @subscribe changed address audience asked known =>
    have apart : unit ≠ changed := by
      rintro rfl
      simp [known] at unknown
    simpa [apart] using unknown
  | create asked missing running => simp [stopped] at running
  | refuse => exact unknown
  | reject => exact unknown

theorem Step.raised (step : s.Step event next) (stopped : s.shutdown.raised = true) :
    next.shutdown.raised = true := by
  cases raised : next.shutdown.raised with
  | true => rfl
  | false => simp [step.running raised] at stopped

/-- The notice tells how its unit has ended, or that no work on it was begun and none will be. -/
def Stands (s : State) (notice : Notice) : Prop :=
  s.outcome? notice.unit = some notice.outcome ∨
    (s.audience? notice.unit = none ∧ s.shutdown.raised = true ∧
      notice = .cancelled notice.unit)

theorem Step.stands (tidy : s.Tidy) (step : s.Step event next) {notice : Notice}
    (stands : s.Stands notice) : next.Stands notice := by
  rcases stands with told | ⟨unknown, stopped, refused⟩
  · exact Or.inl (step.outcome?_eq tidy told)
  · obtain ⟨deliveries, talk, _⟩ := step.talk tidy
    exact Or.inr ⟨talk.unknown stopped unknown, step.raised stopped, refused⟩

theorem stands_of_posted (tidy : s.Tidy) (taken : s.step event = some next) {delivery : Delivery}
    (posted : delivery ∈ s.posted event) (kept : ¬ s.Rejects event delivery) :
    next.Stands delivery.notice := by
  have talk := talk_posted tidy taken
  have step := step_of_tidy tidy taken
  rcases talk.tells delivery posted with told | ⟨unknown, stopped, refused⟩ | rejects
  · exact Or.inl told
  · exact Or.inr ⟨talk.unknown stopped unknown, step.raised stopped, refused⟩
  · exact (kept rejects).elim

theorem Stands.agree {first second : Notice} (stands : s.Stands first) (other : s.Stands second)
    (same : first.unit = second.unit) : first.outcome = second.outcome := by
  rcases stands with told | ⟨unknown, _, refused⟩
  · rcases other with again | ⟨unknown, _, _⟩
    · rw [same] at told
      exact Option.some.inj (told.symm.trans again)
    · simp [outcome?, Audiences.outcome?, same, unknown] at told
  · rcases other with told | ⟨_, _, again⟩
    · simp [outcome?, Audiences.outcome?, ← same, unknown] at told
    · rw [refused, again, same]

theorem Rejects.package {delivery : Delivery} (rejects : s.Rejects event delivery) :
    ∃ package, delivery.notice.unit = .package package := by
  cases rejects
  exact ⟨_, rfl⟩

/-! ### Notices that are not sent -/

theorem cancelled_of_mem_ownNotices {notice : Notice} (own : notice ∈ s.ownNotices event) :
    s.shutdown.raised = true ∧ ∃ package, notice = .cancelled (.package package) := by
  unfold ownNotices at own
  split at own
  next file =>
    split at own
    next task reported given =>
      obtain rfl := List.mem_singleton.mp own
      obtain ⟨task, known, sends⟩ := Option.bind_eq_some_iff.mp given
      unfold FileTask.sendNext? at sends
      split at sends
      next site rest pending phase =>
        split at sends
        next stopped =>
          simp only [FileTask.stop, Option.some.injEq, Prod.mk.injEq,
            FileTask.Message.report.injEq, Report.importResolved.injEq] at sends
          exact ⟨stopped, site.package, sends.2.2.symm⟩
        next => simp at sends
      next => simp at sends
    next => simp at own
  next => simp at own

theorem file_of_mem_presumed {notice : Notice} (presumed : notice ∈ s.presumed event) :
    s.shutdown.owned = false ∧ ∃ file, notice.unit = .file file := by
  unfold State.presumed at presumed
  split at presumed
  next =>
    split at presumed
    next => simp at presumed
    next released =>
      cases found : s.located.head? with
      | none => simp [found] at presumed
      | some located =>
        rw [found] at presumed
        obtain ⟨request, _, rfl⟩ := List.mem_map.mp presumed
        exact ⟨by simpa using released, request.file, rfl⟩
  next => simp at presumed

end State

/-! ### Whole runs -/

namespace Trace

/-- All notices that the desks have sent. -/
def posted (trace : Trace) : List Delivery := trace.flatMap fun (s, event) => s.posted event

/-- All notices that were made. -/
def notices (trace : Trace) : List Notice := trace.flatMap fun (s, event) => s.notices event

/-- All requests that the desks have handled. -/
def handled (trace : Trace) : List Question :=
  trace.flatMap fun (s, event) => (s.handled event).toList

/-- The notice was sent, and not to reject a single import. -/
def Declares (trace : Trace) (delivery : Delivery) : Prop :=
  ∃ before event, (before, event) ∈ trace ∧ delivery ∈ before.posted event ∧
    ¬ before.Rejects event delivery

/-- The notice was made, and not to reject a single import. -/
def Makes (trace : Trace) (notice : Notice) : Prop :=
  ∃ before event, (before, event) ∈ trace ∧ notice ∈ before.notices event ∧
    ¬ before.RejectsWith event notice

/-- The notice was made, and neither to reject a single import nor by a task for its own file. -/
def Publishes (trace : Trace) (notice : Notice) : Prop :=
  ∃ before event, (before, event) ∈ trace ∧ notice ∈ before.notices event ∧
    ¬ before.RejectsWith event notice ∧ notice ∉ before.ownNotices event

theorem declares_of_file {trace : Trace} {delivery : Delivery} {file : String}
    (sent : delivery ∈ trace.posted) (about : delivery.notice.unit = .file file) :
    trace.Declares delivery := by
  obtain ⟨⟨before, event⟩, taken, posted⟩ := List.mem_flatMap.mp sent
  refine ⟨before, event, taken, posted, fun rejects => ?_⟩
  obtain ⟨package, isPackage⟩ := rejects.package
  simp [about] at isPackage

theorem declares_of_publishes {trace : Trace} {notice : Notice} {package : String}
    (publishes : trace.Publishes notice) (about : notice.unit = .package package) :
    ∃ delivery, trace.Declares delivery ∧ delivery.notice = notice := by
  obtain ⟨before, event, taken, made, kept, notOwn⟩ := publishes
  rcases List.mem_append.mp made with sentOrOwn | presumed
  · rcases List.mem_append.mp sentOrOwn with sent | own
    · obtain ⟨delivery, posted, same⟩ := List.mem_map.mp sent
      exact ⟨delivery, ⟨before, event, taken, posted, fun rejects =>
        kept ⟨delivery, rejects, same⟩⟩, same⟩
    · exact absurd own notOwn
  · obtain ⟨_, file, isFile⟩ := State.file_of_mem_presumed presumed
    simp [about] at isFile

end Trace

namespace Run

variable {frontend : Frontend} {keepGoing : Bool} {trace : Trace} {s : State}

/-- Every request that was handled has its notice or waits for it. -/
theorem reply_balance (run : Run frontend keepGoing trace s) (question : Question) :
    (trace.posted.map Delivery.question).count question +
      (s.subscribers question.1).count question.2 = trace.handled.count question := by
  induction run with
  | start =>
    obtain ⟨unit, address⟩ := question
    cases unit <;> simp [Trace.posted, Trace.handled, State.subscribers, Audiences.subscribers,
      State.audience?]
  | @step trace s next event earlier _ taken ih =>
    have balance := (State.talk_posted earlier.tidy taken).balance question
    simp only [Trace.posted, Trace.handled, List.flatMap_append, List.flatMap_singleton,
      List.map_append, List.count_append] at ih ⊢
    rw [State.subscribers]
    omega

theorem stands (run : Run frontend keepGoing trace s) {delivery : Delivery}
    (declares : trace.Declares delivery) : s.Stands delivery.notice := by
  obtain ⟨before, event, taken, posted, kept⟩ := declares
  induction run with
  | start => simp at taken
  | step earlier _ now ih =>
    rcases List.mem_append.mp taken with old | new
    · exact (State.step_of_tidy earlier.tidy now).stands earlier.tidy (ih old)
    · obtain ⟨rfl, rfl⟩ := Prod.mk.inj (List.mem_singleton.mp new)
      exact State.stands_of_posted earlier.tidy now posted kept

theorem handled_perm_posted (run : Run frontend keepGoing trace s)
    (alive : s.shutdown.owned = true) (quiet : s.Quiet frontend) :
    trace.handled.Perm (trace.posted.map Delivery.question) := by
  refine List.perm_iff_count.mpr fun question => ?_
  have balance := run.reply_balance question
  have none : s.subscribers question.1 = [] := by
    refine List.eq_nil_iff_forall_not_mem.mpr fun address member => ?_
    obtain ⟨subscribers, isOpen, _⟩ := State.open_of_subscriber member
    exact run.not_open alive quiet question.1 ⟨subscribers, isOpen⟩
  simp only [none, List.count_nil, Nat.add_zero] at balance
  exact balance.symm

theorem alive_before (run : Run frontend keepGoing trace s) (alive : s.shutdown.owned = true)
    {before : State} {event : Event} (taken : (before, event) ∈ trace) :
    before.shutdown.owned = true := by
  induction run with
  | start => simp at taken
  | step earlier _ now ih =>
    have step := State.step_of_tidy earlier.tidy now
    rcases List.mem_append.mp taken with old | new
    · exact ih (step.owned alive) old
    · obtain ⟨rfl, rfl⟩ := Prod.mk.inj (List.mem_singleton.mp new)
      exact step.owned alive

/-- As long as the handle is held, a desk has sent whatever is said of a file. -/
theorem sent_of_file (run : Run frontend keepGoing trace s) (alive : s.shutdown.owned = true)
    {notice : Notice} {file : String} (made : notice ∈ trace.notices)
    (about : notice.unit = .file file) : ∃ delivery ∈ trace.posted, delivery.notice = notice := by
  obtain ⟨⟨before, event⟩, taken, made⟩ := List.mem_flatMap.mp made
  rcases List.mem_append.mp made with sentOrOwn | presumed
  · rcases List.mem_append.mp sentOrOwn with sent | own
    · obtain ⟨delivery, posted, same⟩ := List.mem_map.mp sent
      exact ⟨delivery, List.mem_flatMap.mpr ⟨_, taken, posted⟩, same⟩
    · obtain ⟨_, package, rfl⟩ := State.cancelled_of_mem_ownNotices own
      simp [Notice.cancelled, Notice.failed] at about
  · have released := (State.file_of_mem_presumed presumed).1
    simp [run.alive_before alive taken] at released

/-- Every notice goes to the sender of a request, about the unit that was asked for; no request has
two, and when the compiler has come to rest each has one. As long as the handle is held, all notices
about a file say the same. So do all notices about a package but those that reject a single import
and those that a task makes for its own file: they tell the outcome that the unit keeps, or each
time that work on it was refused. A task makes such a notice only after shutdown, and it says that
the package was cancelled. -/
theorem one_reply_each (run : Run frontend keepGoing trace s) :
    (trace.posted.map Delivery.question).Subperm trace.handled ∧
    (s.shutdown.owned = true → s.Quiet frontend →
      trace.handled.Perm (trace.posted.map Delivery.question)) ∧
    (s.shutdown.owned = true → ∀ file, ∀ first ∈ trace.notices, ∀ second ∈ trace.notices,
      first.unit = .file file → second.unit = .file file → first.outcome = second.outcome) ∧
    (∀ package first second, trace.Publishes first → trace.Publishes second →
      first.unit = .package package → second.unit = .package package →
      first.outcome = second.outcome) ∧
    (∀ delivery, trace.Declares delivery → s.Stands delivery.notice) ∧
    ∀ before event, (before, event) ∈ trace → ∀ notice ∈ before.ownNotices event,
      before.shutdown.raised = true ∧ ∃ package, notice = .cancelled (.package package) := by
  refine ⟨?_, run.handled_perm_posted, ?_, ?_, fun _ => run.stands,
    fun _ _ _ _ => State.cancelled_of_mem_ownNotices⟩
  · refine List.subperm_ext_iff.mpr fun question _ => ?_
    have balance := run.reply_balance question
    omega
  · intro alive file first made second again about same
    obtain ⟨sent, isSent, rfl⟩ := run.sent_of_file alive made about
    obtain ⟨resent, isResent, rfl⟩ := run.sent_of_file alive again same
    have told := run.stands (Trace.declares_of_file isSent about)
    have retold := run.stands (Trace.declares_of_file isResent same)
    exact told.agree retold (about.trans same.symm)
  · intro package first second published again about same
    obtain ⟨sent, declared, rfl⟩ := Trace.declares_of_publishes published about
    obtain ⟨resent, redeclared, rfl⟩ := Trace.declares_of_publishes again same
    exact (run.stands declared).agree (run.stands redeclared) (about.trans same.symm)

theorem one_reply_each_ring : ∃ trace s, Run ring false trace s ∧ s.shutdown.owned = true ∧
    s.Quiet ring ∧ trace.handled.length = 6 ∧
    trace.handled.Perm (trace.posted.map Delivery.question) := by
  have settles : State.settles {} ringEvents (fun trace s =>
      s.shutdown.owned && trace.handled.length == 6) = true := by
    decide +kernel
  obtain ⟨more, s, run, quiet, check⟩ := Run.of_settles obeys_ringEvents settles
  simp only [Bool.and_eq_true, beq_iff_eq] at check
  obtain ⟨alive, six⟩ := check
  exact ⟨_, s, run, alive, quiet, six, (one_reply_each run).2.1 alive quiet⟩

end Run

/-! ### A task that gives up on a complete package -/

/-- Two files that import the same package. -/
def pair : Frontend :=
  .ofMemory [("a.go", "package main\nimport \"p\"\n"), ("b.go", "package main\nimport \"p\"\n"),
    ("p.go", "package p\n")] [("p", ["p.go"])]

/-- The package is complete when the compiler is stopped, but the second file has not asked for it
yet. -/
def pairEvents : List Event :=
  [.call ["a.go"], .send 0, .compile 0, pair.perform (.parse "a.go"), .report, .ask "a.go",
    .resolve, pair.perform (.locate "p"), .located, .compile 0, pair.perform (.parse "p.go"),
    .report, .receive 0, .receive 0, .report, .receive 0, .call ["b.go"], .send 1, .compile 0,
    .stop, pair.perform (.parse "b.go"), .report, .ask "b.go", .report, .receive 0]

theorem obeys_pairEvents : ∀ event ∈ pairEvents, event.Obeys pair := by
  simp [pairEvents, Event.Obeys, Frontend.perform]

theorem State.RejectsWith.isFailed {s : State} {event : Event} {notice : Notice}
    (rejects : s.RejectsWith event notice) :
    ∃ file position cycle, notice.outcome = .failed (.cyclicImport file position cycle) := by
  obtain ⟨delivery, rejects, rfl⟩ := rejects
  cases rejects
  exact ⟨_, _, _, rfl⟩

theorem Trace.makes_of_mem_notices {trace : Trace} {notice : Notice} (made : notice ∈ trace.notices)
    (other : ∀ file position cycle,
      notice.outcome ≠ .failed (.cyclicImport file position cycle)) : trace.Makes notice := by
  obtain ⟨⟨before, event⟩, taken, made⟩ := List.mem_flatMap.mp made
  refine ⟨before, event, taken, made, fun rejects => ?_⟩
  obtain ⟨file, position, cycle, same⟩ := rejects.isFailed
  exact other _ _ _ same

/-- The notices about a package that reject no import need not agree: one file hears that the
package is complete, and the task of another tells its own file that the package was cancelled. -/
theorem Run.notices_disagree : ∃ trace s, Run pair false trace s ∧ s.shutdown.owned = true ∧
    ∃ first second, trace.Makes first ∧ trace.Makes second ∧ first.unit = .package "p" ∧
      second.unit = .package "p" ∧ first.outcome ≠ second.outcome := by
  have settles : State.settles {} pairEvents (fun trace s => s.shutdown.owned &&
      trace.notices.contains ⟨.package "p", .ok⟩ &&
      trace.notices.contains (.cancelled (.package "p"))) = true := by
    decide +kernel
  obtain ⟨more, s, run, _, check⟩ := Run.of_settles obeys_pairEvents settles
  simp only [Bool.and_eq_true, List.contains_iff_mem] at check
  obtain ⟨⟨alive, told⟩, cancelled⟩ := check
  exact ⟨_, s, run, alive, _, _, Trace.makes_of_mem_notices told (by simp),
    Trace.makes_of_mem_notices cancelled (by simp [Notice.cancelled, Notice.failed]), rfl, rfl,
    by simp [Notice.cancelled, Notice.failed]⟩

end GoFront.Build
