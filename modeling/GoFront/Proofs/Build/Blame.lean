import GoFront.Proofs.Build.Replies

/-!
Where failures come from. A failure that stands anywhere in a state of the compiler, as the outcome
of a unit, in a message or in the answer to a call, was raised by one of the events before: nothing
makes up a failure on the way.
-/
namespace GoFront.Build

namespace PackageUnit

variable {unit : PackageUnit} {failure : Failure}

/-- The failure that the package has ended with, or will. -/
def Blames (unit : PackageUnit) (failure : Failure) : Prop :=
  unit.firstFailure = some failure ∨ unit.audience.outcome? = some (.failed failure)

theorem Blames.of_subscribe {address : Address} (blames : (unit.subscribe address).1.Blames failure) :
    unit.Blames failure := by
  have same : (unit.subscribe address).1.audience.outcome? = unit.audience.outcome? :=
    Audience.outcome?_subscribe _ _ _
  unfold Blames at blames
  rwa [same] at blames

theorem Blames.of_complete {outcome : Outcome} (blames : (unit.complete outcome).1.Blames failure) :
    unit.Blames failure ∨ outcome = .failed failure := by
  cases audience : unit.audience with
  | answered first =>
    have same : unit.complete outcome = (unit, []) := by
      simp [complete, audience, Audience.isAnswered]
    rw [same] at blames
    exact Or.inl blames
  | waiting subscribers =>
    rw [complete_of_waiting unit audience] at blames
    rcases blames with kept | told
    · exact Or.inl (Or.inl kept)
    · exact Or.inr (by simpa [Audience.outcome?] using told)

theorem Blames.of_start {files : List String} (blames : (unit.start files).1.Blames failure) :
    unit.Blames failure := by
  obtain ⟨_, audience, firstFailure⟩ := foldl_addMember_frame unit files
  have frame : (files.foldl addMember unit).Blames failure → unit.Blames failure := by
    unfold Blames
    rw [audience, firstFailure]
    exact id
  unfold start at blames
  dsimp only at blames
  split at blames
  · rcases blames.of_complete with before | impossible
    · exact frame before
    · simp at impossible
  · exact frame blames

theorem Hears.blames {next : PackageUnit} {file : String} {outcome : Outcome}
    {deliveries : List Delivery} (hears : unit.Hears file outcome next deliveries)
    (blames : next.Blames failure) : unit.Blames failure ∨ outcome = .failed failure := by
  have first : unit.firstFailure.or outcome.failure? = some failure →
      unit.Blames failure ∨ outcome = .failed failure := by
    intro blamed
    cases kept : unit.firstFailure with
    | some earlier =>
      rw [kept, Option.some_or] at blamed
      exact Or.inl (Or.inl (kept.trans blamed))
    | none =>
      rw [kept, Option.none_or] at blamed
      cases outcome with
      | ok => simp [Outcome.failure?] at blamed
      | failed cause => exact Or.inr (congrArg _ (Option.some.inj blamed))
  cases hears with
  | ignore => exact Or.inl blames
  | record =>
    rcases blames with blamed | told
    · exact first blamed
    · exact Or.inl (Or.inr told)
  | finish =>
    rcases blames with blamed | told
    · simp at blamed
    · cases blamed : unit.firstFailure.or outcome.failure? with
      | none => simp [blamed, Audience.outcome?, Outcome.ofFailure?] at told
      | some cause =>
        obtain rfl : cause = failure := by
          simpa [blamed, Audience.outcome?, Outcome.ofFailure?] using told
        exact first blamed

end PackageUnit

namespace CompileCall

/-- The failure that the call has kept or ended with. -/
def Blames (call : CompileCall) (failure : Failure) : Prop :=
  call.failure = some failure ∨ call.result = some (.failed failure)

theorem not_blames_start (names : List String) (failure : Failure) :
    ¬ (CompileCall.start names).Blames failure := by
  rintro (kept | ended)
  · simp [start] at kept
  · simp only [start] at ended
    split at ended <;> simp at ended

theorem prefer_eq {kept : Option Failure} {next failure : Failure}
    (preferred : prefer kept next = some failure) : kept = some failure ∨ next = failure := by
  unfold prefer at preferred
  split at preferred
  · exact Or.inr (Option.some.inj preferred)
  · split at preferred
    · exact Or.inr (Option.some.inj preferred)
    · exact Or.inl preferred

theorem Accepts.blames {call next : CompileCall} {notice : Notice} {failure : Failure}
    (accepts : call.Accepts notice next) (blames : next.Blames failure) :
    call.Blames failure ∨ notice.outcome = .failed failure := by
  have blamed : call.blame notice.outcome = some failure →
      call.Blames failure ∨ notice.outcome = .failed failure := by
    intro blamed
    cases outcome : notice.outcome with
    | ok =>
      rw [outcome] at blamed
      exact Or.inl (Or.inl blamed)
    | failed cause =>
      rw [outcome] at blamed
      exact (prefer_eq blamed).imp Or.inl (congrArg _)
  cases accepts with
  | ignore => exact Or.inl blames
  | record =>
    rcases blames with kept | ended
    · exact blamed kept
    · simp at ended
  | finish =>
    rcases blames with kept | ended
    · exact blamed kept
    · cases kept : call.blame notice.outcome with
      | none => simp [kept, Outcome.ofFailure?] at ended
      | some cause =>
        obtain rfl : cause = failure := by simpa [kept, Outcome.ofFailure?] using ended
        exact blamed kept

end CompileCall

namespace State

variable {s next : State} {event : Event} {failure : Failure}

/-- The event finds the packages in a circle of imports and blames the import of a file for it. -/
inductive Detects (s : State) : Event → String → Position → List String → Prop where
  | rejected {request : ImportRequest} {rest : List ImportRequest} {unit : PackageUnit}
      {cycle : List String} (read : s.importRequests = request :: rest)
      (known : s.imports.units.get? request.package = some unit) (live : unit.isLive = true)
      (closes : s.imports.importCycle request = some cycle) :
      Detects s .resolve request.fromFile request.position cycle
  | located {located : Located} {rest : List Located} {files cycle : List String}
      (read : s.located = located :: rest) (found : located.result = .ok files)
      (closes : s.imports.memberCycle located.lookup.package (files.map Path.normalize) =
        some cycle) :
      Detects s .located located.lookup.fromFile located.lookup.position cycle

/-- The reasons for which an event raises a failure. -/
inductive Raises (s : State) : Event → Failure → Prop where
  | parsed (file : String) (failure : Failure) : Raises s (.parsed file (.error failure)) failure
  | refused {event : Event} (unit : UnitName) (stopped : s.shutdown.raised = true) :
      Raises s event (.cancelled unit.text)
  | lost {located : Located} {rest : List Located} {fault : Setback LocateError}
      (read : s.located = located :: rest) (failed : located.result = .error fault) :
      Raises s .located (located.lookup.failure fault)
  | cycle {event : Event} {file : String} {position : Position} {cycle : List String}
      (detects : s.Detects event file position cycle) :
      Raises s event (.cyclicImport file position cycle)
  | severed (released : s.shutdown.owned = false) : Raises s .located .disconnected

/-- The places where a failure can stand. -/
inductive Holds (s : State) (failure : Failure) : Prop where
  | file {file : String} {unit : FileUnit} (known : s.files.units.get? file = some unit)
      (told : unit.audience.outcome? = some (.failed failure))
  | package {package : String} {unit : PackageUnit}
      (known : s.imports.units.get? package = some unit) (blames : unit.Blames failure)
  | mail {delivery : Delivery} (member : delivery ∈ s.mail)
      (bears : delivery.notice.outcome = .failed failure)
  | parsed {file : String} (member : .parsed file (.error failure) ∈ s.reports)
  | relayed {file : String} {notice : Notice} (member : .importResolved file notice ∈ s.reports)
      (bears : notice.outcome = .failed failure)
  | call {call : CompileCall} (member : call ∈ s.calls) (blames : call.Blames failure)

theorem Step.holds_file (step : s.Step event next) :
    ∀ {file unit}, next.files.units.get? file = some unit →
      unit.audience.outcome? = some (.failed failure) → s.Holds failure := by
  have old : ∀ {file unit}, s.files.units.get? file = some unit →
      unit.audience.outcome? = some (.failed failure) → s.Holds failure := fun known => .file known
  intro file unit
  cases step with
  | join read known =>
    refine Table.forall_set old fun told => ?_
    exact old known ((Audience.outcome?_subscribe _ _ _).symm.trans told)
  | enlist => exact Table.forall_set old (by simp [Audience.outcome?])
  | @heed report rest unit read known =>
    refine Table.forall_set old fun told => ?_
    have first : report ∈ s.reports := read ▸ List.mem_cons_self
    rcases (unit.heed_heeds report).failed told with before | ⟨file, rfl⟩ | ⟨file, notice, rfl, bears⟩
    · exact old known before
    · exact .parsed first
    · exact .relayed first bears
  | _ => exact old

theorem Step.holds_package (step : s.Step event next) :
    ∀ {package unit}, next.imports.units.get? package = some unit → unit.Blames failure →
      s.Holds failure ∨ s.Raises event failure := by
  have old : ∀ {package unit}, s.imports.units.get? package = some unit → unit.Blames failure →
      s.Holds failure ∨ s.Raises event failure := fun known blames => Or.inl (.package known blames)
  intro package unit
  cases step with
  | follow read known | reuse read known =>
    exact Table.forall_set old fun blames => old known blames.of_subscribe
  | search => exact Table.forall_set old (by simp [PackageUnit.Blames, Audience.outcome?])
  | lost read known failed =>
    refine Table.forall_set old fun blames => ?_
    rcases blames.of_complete with before | now
    · exact old known before
    · obtain rfl := Outcome.failed.inj now
      exact Or.inr (.lost read failed)
  | knot read known found closes =>
    refine Table.forall_set old fun blames => ?_
    rcases blames.of_complete with before | now
    · exact old known before
    · obtain rfl := Outcome.failed.inj now
      exact Or.inr (.cycle (.located read found closes))
  | start read known =>
    exact Table.forall_set old fun blames => old known blames.of_start
  | sever read known found safe released severs =>
    refine severs.forall_units ?_ (Table.forall_set old fun blames => old known blames.of_start)
    intro package unit file before blames
    rcases (unit.memberDone_hears file _).blames blames with earlier | now
    · exact before earlier
    · obtain rfl := Outcome.failed.inj now
      exact Or.inr (.severed released)
  | @hear index notice file package others unit read about waiting known =>
    refine Table.forall_set old fun blames => ?_
    rcases (unit.memberDone_hears file notice.outcome).blames blames with before | bears
    · exact old known before
    · exact Or.inl (.mail (List.mem_of_getElem? read) bears)
  | _ => exact old

theorem Step.holds_mail (tidy : s.Tidy) (step : s.Step event next) {delivery : Delivery}
    (member : delivery ∈ next.mail) (bears : delivery.notice.outcome = .failed failure) :
    s.Holds failure ∨ s.Raises event failure := by
  obtain ⟨deliveries, talk, mail⟩ := step.talk tidy
  rw [mail] at member
  rcases List.mem_append.mp member with old | new
  · exact Or.inl (.mail (mem_mail_of_unread old) bears)
  · rcases talk.tells delivery new with told | ⟨_, stopped, refused⟩ | rejects
    · rw [bears] at told
      cases about : delivery.notice.unit with
      | file file =>
        rw [about] at told
        obtain ⟨unit, known, told⟩ := outcome?_file.mp told
        exact Or.inl (step.holds_file known told)
      | package package =>
        rw [about] at told
        obtain ⟨unit, known, told⟩ := outcome?_package.mp told
        exact step.holds_package known (Or.inr told)
    · rw [refused] at bears
      obtain rfl := Outcome.failed.inj bears
      exact Or.inr (.refused _ stopped)
    · obtain ⟨read, known, live, closes⟩ := rejects
      obtain rfl := Outcome.failed.inj bears
      exact Or.inr (.cycle (.rejected read known live closes))

theorem Step.holds_report (step : s.Step event next) :
    (∀ file, .parsed file (.error failure) ∈ next.reports →
      s.Holds failure ∨ s.Raises event failure) ∧
    ∀ file notice, .importResolved file notice ∈ next.reports →
      notice.outcome = .failed failure → s.Holds failure ∨ s.Raises event failure := by
  constructor
  · intro file member
    cases step.reported _ member with
    | before old => exact Or.inl (.parsed old)
    | parsed now => exact Or.inr (now ▸ .parsed file failure)
  · intro file notice member bears
    cases step.reported _ member with
    | before old => exact Or.inl (.relayed old bears)
    | gaveUp known stopped =>
      obtain rfl := Outcome.failed.inj bears
      exact Or.inr (.refused _ stopped)
    | relayed read => exact Or.inl (.mail read bears)

theorem Step.holds_call (step : s.Step event next) :
    ∀ call ∈ next.calls, call.Blames failure → s.Holds failure := by
  have old : ∀ call ∈ s.calls, call.Blames failure → s.Holds failure :=
    fun call member => .call member
  intro call member blames
  cases step with
  | call names =>
    rcases List.mem_append.mp member with before | now
    · exact old call before blames
    · rw [List.mem_singleton.mp now] at blames
      exact (CompileCall.not_blames_start names failure blames).elim
  | send read =>
    rcases List.mem_or_eq_of_mem_set member with before | rfl
    · exact old call before blames
    · exact old _ (List.mem_of_getElem? read) blames
  | @accept index number notice changed read known =>
    rcases List.mem_or_eq_of_mem_set member with before | rfl
    · exact old call before blames
    · rcases (changed.accept_accepts notice).blames blames with earlier | bears
      · exact old changed (List.mem_of_getElem? known) earlier
      · exact .mail (List.mem_of_getElem? read) bears
  | _ => exact old call member blames

/-- A failure that stands somewhere after an event stood somewhere before, or the event raises it. -/
theorem Step.holds (tidy : s.Tidy) (step : s.Step event next) (holds : next.Holds failure) :
    s.Holds failure ∨ s.Raises event failure := by
  cases holds with
  | file known told => exact Or.inl (step.holds_file known told)
  | package known blames => exact step.holds_package known blames
  | mail member bears => exact step.holds_mail tidy member bears
  | parsed member => exact step.holds_report.1 _ member
  | relayed member bears => exact step.holds_report.2 _ _ member bears
  | call member blames => exact Or.inl (step.holds_call _ member blames)

theorem not_holds_initial (keepGoing : Bool) : ¬ Holds { keepGoing } failure := by
  intro holds
  cases holds <;> simp_all

end State

theorem Run.raised_of_holds {frontend : Frontend} {keepGoing : Bool} {trace : Trace} {s : State}
    (run : Run frontend keepGoing trace s) {failure : Failure} (holds : s.Holds failure) :
    ∃ before event, (before, event) ∈ trace ∧ before.Raises event failure := by
  induction run with
  | start => exact (State.not_holds_initial keepGoing holds).elim
  | @step trace s next event earlier _ taken ih =>
    rcases (State.step_of_tidy earlier.tidy taken).holds earlier.tidy holds with before | raises
    · obtain ⟨state, cause, member, raised⟩ := ih before
      exact ⟨state, cause, List.mem_append_left _ member, raised⟩
    · exact ⟨s, event, List.mem_append_right _ (List.mem_singleton_self _), raises⟩

end GoFront.Build
