import GoFront.Proofs.Build.Run
import Mathlib.Logic.Function.Basic

/-!
The compiler as its clients see it: requests come in, notices go out. Every event answers at most
one request, makes its sender wait, or tells the audiences of units how they ended. Once a unit has
an outcome it keeps it.
-/
namespace GoFront.Build
open Function

/-- A unit and someone who wants to know how it ends. -/
abbrev Question := UnitName × Address

/-- What a request wants to know. -/
def CompileRequest.question (request : CompileRequest) : Question :=
  (.file request.file, request.replyTo)

/-- What a request wants to know. -/
def ImportRequest.question (request : ImportRequest) : Question :=
  (.package request.package, request.replyTo)

/-- The question that a notice answers. -/
def Delivery.question (delivery : Delivery) : Question :=
  (delivery.notice.unit, delivery.address)

/-- The audience of every unit that is known. -/
abbrev Audiences := UnitName → Option Audience

namespace Audiences

/-- The outcome of a unit that is complete. -/
def outcome? (audiences : Audiences) (unit : UnitName) : Option Outcome :=
  (audiences unit).bind (·.outcome?)

/-- Those who wait for the outcome of a unit. -/
def subscribers (audiences : Audiences) (unit : UnitName) : List Address :=
  ((audiences unit).map (·.subscribers)).getD []

end Audiences

namespace State

/-- The audience of a unit, if it is known. -/
def audience? (s : State) : Audiences
  | .file file => (s.files.units.get? file).map (·.audience)
  | .package package => (s.imports.units.get? package).map (·.audience)

/-- The outcome of a unit that is complete. -/
def outcome? (s : State) : UnitName → Option Outcome := Audiences.outcome? s.audience?

/-- Those who wait for the outcome of a unit. -/
def subscribers (s : State) : UnitName → List Address := Audiences.subscribers s.audience?

/-- The request that a desk handles in an event. -/
def handled (s : State) : Event → Option Question
  | .compile index => (s.requests[index]?).map CompileRequest.question
  | .resolve => s.importRequests.head?.map ImportRequest.question
  | _ => none

/-- The notice that is read in an event. -/
def read? (s : State) : Event → Option Delivery
  | .receive index => s.mail[index]?
  | _ => none

/-- The mail without the notice that is read in an event. -/
def unread (s : State) : Event → List Delivery
  | .receive index => s.mail.eraseIdx index
  | _ => s.mail

end State

namespace Audiences

/-- Some units are completed and their audiences told. -/
inductive Announces : Audiences → List Delivery → Audiences → Prop where
  | nil (audiences : Audiences) : Announces audiences [] audiences
  | cons {audiences next : Audiences} {unit : UnitName} {before after : Audience}
      {deliveries more : List Delivery} (known : audiences unit = some before)
      (change : Audience.Change unit before after deliveries)
      (rest : Announces (update audiences unit (some after)) more next) :
      Announces audiences (deliveries ++ more) next

theorem Announces.single {audiences : Audiences} {unit : UnitName} {before after : Audience}
    {deliveries : List Delivery} (known : audiences unit = some before)
    (change : Audience.Change unit before after deliveries) :
    Announces audiences deliveries (update audiences unit (some after)) := by
  simpa using Announces.cons known change (.nil _)

end Audiences

namespace State

/-- The event rejects an import of a package that waits for the importing file, with this notice
to the importer alone. -/
inductive Rejects (s : State) : Event → Delivery → Prop where
  | cycle {request : ImportRequest} {rest : List ImportRequest} {unit : PackageUnit}
      {cycle : List String} (read : s.importRequests = request :: rest)
      (known : s.imports.units.get? request.package = some unit) (live : unit.isLive = true)
      (closes : s.imports.importCycle request = some cycle) :
      Rejects s .resolve ⟨request.replyTo, .failed (.package request.package)
        (.cyclicImport request.fromFile request.position cycle)⟩

/-- What an event means to the clients: the notices it sends and the audiences it leaves. -/
inductive Talk (s : State) : Event → List Delivery → Audiences → Prop where
  | announce {event : Event} {deliveries : List Delivery} {audiences : Audiences}
      (unasked : s.handled event = none)
      (announces : Audiences.Announces s.audience? deliveries audiences) :
      Talk s event deliveries audiences
  | subscribe {event : Event} {unit : UnitName} {address : Address} {audience : Audience}
      (asked : s.handled event = some (unit, address)) (known : s.audience? unit = some audience) :
      Talk s event (audience.subscribe unit address).2
        (update s.audience? unit (some (audience.subscribe unit address).1))
  | create {event : Event} {unit : UnitName} {address : Address}
      (asked : s.handled event = some (unit, address)) (unknown : s.audience? unit = none)
      (running : s.shutdown.raised = false) :
      Talk s event [] (update s.audience? unit (some (.waiting [address])))
  | refuse {event : Event} {unit : UnitName} {address : Address}
      (asked : s.handled event = some (unit, address)) (unknown : s.audience? unit = none)
      (stopped : s.shutdown.raised = true) :
      Talk s event [⟨address, .cancelled unit⟩] s.audience?
  | reject {event : Event} {delivery : Delivery} (rejects : s.Rejects event delivery) :
      Talk s event [delivery] s.audience?

variable {s next : State}

theorem audience?_setFile (s : State) (file : String) (unit : FileUnit) :
    audience? { s with files := ⟨s.files.units.set file unit⟩ } =
      update s.audience? (.file file) (some unit.audience) := by
  funext name
  cases name with
  | file other => by_cases same : other = file <;> simp [audience?, same]
  | package other => simp [audience?]

theorem audience?_setPackage (s : State) (package : String) (unit : PackageUnit) :
    audience? { s with imports := { s.imports with units := s.imports.units.set package unit } } =
      update s.audience? (.package package) (some unit.audience) := by
  funext name
  cases name with
  | file other => simp [audience?]
  | package other => by_cases same : other = package <;> simp [audience?, same]

theorem audience?_file {file : String} {unit : FileUnit}
    (known : s.files.units.get? file = some unit) :
    s.audience? (.file file) = some unit.audience := by
  simp [audience?, known]

theorem audience?_package {package : String} {unit : PackageUnit}
    (known : s.imports.units.get? package = some unit) :
    s.audience? (.package package) = some unit.audience := by
  simp [audience?, known]

theorem severs_announces {desk after : ImportDesk} {deliveries : List Delivery}
    (severs : ImportDesk.Severs desk deliveries after)
    (named : ∀ {package unit}, desk.units.get? package = some unit → unit.name = package)
    (s : State) :
    Audiences.Announces (audience? { s with imports := desk }) deliveries
      (audience? { s with imports := after }) := by
  induction severs with
  | done => exact .nil _
  | @lose desk _ pending file package unit _ known rest ih =>
    have hears := PackageUnit.memberDone_hears unit file (.failed .disconnected)
    have name := named known
    have told : Audience.Change (.package package) unit.audience _ _ := name ▸ hears.change
    refine .cons (audience?_package known) told ?_
    have rest := ih (Table.forall_set named (hears.name_eq.trans name))
    rwa [← audience?_setPackage { s with imports := desk }]

theorem Talk.of_change {event : Event} {unit : UnitName} {before after : Audience}
    {deliveries : List Delivery} {audiences : Audiences} (unasked : s.handled event = none)
    (known : s.audience? unit = some before)
    (change : Audience.Change unit before after deliveries)
    (leaves : audiences = update s.audience? unit (some after)) :
    s.Talk event deliveries audiences :=
  leaves ▸ .announce unasked (.single known change)

theorem Talk.of_subscribe {event : Event} (unit : UnitName) (address : Address)
    {audience : Audience} {audiences : Audiences} (asked : s.handled event = some (unit, address))
    (known : s.audience? unit = some audience)
    (leaves : audiences = update s.audience? unit (some (audience.subscribe unit address).1)) :
    s.Talk event (audience.subscribe unit address).2 audiences :=
  leaves ▸ .subscribe asked known

theorem Talk.of_create {event : Event} (unit : UnitName) (address : Address)
    {audiences : Audiences} (asked : s.handled event = some (unit, address))
    (unknown : s.audience? unit = none) (running : s.shutdown.raised = false)
    (leaves : audiences = update s.audience? unit (some (.waiting [address]))) :
    s.Talk event [] audiences :=
  leaves ▸ .create asked unknown running

/-- Every step of a tidy state is a talk. -/
theorem Step.talk (tidy : s.Tidy) {event : Event} (step : s.Step event next) :
    ∃ deliveries, s.Talk event deliveries next.audience? ∧
      next.mail = s.unread event ++ deliveries := by
  have silent : s.handled event = none → next.audience? = s.audience? →
      next.mail = s.unread event → ∃ deliveries, s.Talk event deliveries next.audience? ∧
        next.mail = s.unread event ++ deliveries :=
    fun unasked same mail => ⟨[], .announce unasked (same ▸ .nil _), by simp [mail]⟩
  cases step with
  | call | send | ask | giveUp | parsed | found | drop | relay | accept | stop | release =>
    exact silent rfl rfl rfl
  | @join index request unit read known =>
    obtain ⟨file, replyTo⟩ := request
    obtain rfl : unit.name = file := tidy.fileName known
    exact ⟨_, .of_subscribe (.file unit.name) replyTo
      (by simp [handled, read, CompileRequest.question]) (audience?_file known)
      (audience?_setFile s unit.name (unit.subscribe replyTo).1), rfl⟩
  | @refuse index request read unknown stopped =>
    exact ⟨_, .refuse (by simp [handled, read, CompileRequest.question]) (by simp [audience?, unknown])
      stopped, rfl⟩
  | @enlist index request read unknown running =>
    exact ⟨[], .of_create (.file request.file) request.replyTo
      (by simp [handled, read, CompileRequest.question]) (by simp [audience?, unknown]) running
      (audience?_setFile s request.file _), by simp [unread]⟩
  | @heed report rest unit read known =>
    have name := tidy.fileName known
    exact ⟨_, .of_change rfl (audience?_file known) (name ▸ (unit.heed_heeds report).change)
      (audience?_setFile s report.file (unit.heed report).1), rfl⟩
  | @reject request rest unit cycle read known live closes =>
    exact ⟨_, .reject (.cycle read known live closes), rfl⟩
  | @follow request rest unit read known live safe =>
    obtain ⟨package, fromFile, position, replyTo⟩ := request
    obtain rfl : unit.name = package := tidy.imports.name known
    exact ⟨_, .of_subscribe (.package unit.name) replyTo
      (by simp [handled, read, ImportRequest.question]) (audience?_package known)
      (audience?_setPackage s unit.name (unit.subscribe replyTo).1), rfl⟩
  | @reuse request rest unit read known done =>
    obtain ⟨package, fromFile, position, replyTo⟩ := request
    obtain rfl : unit.name = package := tidy.imports.name known
    exact ⟨_, .of_subscribe (.package unit.name) replyTo
      (by simp [handled, read, ImportRequest.question]) (audience?_package known)
      (audience?_setPackage s unit.name (unit.subscribe replyTo).1), rfl⟩
  | @turnAway request rest read unknown stopped =>
    exact ⟨_, .refuse (by simp [handled, read, ImportRequest.question]) (by simp [audience?, unknown])
      stopped, rfl⟩
  | @search request rest read unknown running =>
    exact ⟨[], .of_create (.package request.package) request.replyTo
      (by simp [handled, read, ImportRequest.question]) (by simp [audience?, unknown]) running
      (audience?_setPackage s request.package _), by simp [unread]⟩
  | @lost located rest unit fault read known failed =>
    have name := tidy.imports.name known
    exact ⟨_, .of_change rfl (audience?_package known) (name ▸ unit.complete_change _)
      (audience?_setPackage s located.lookup.package _), rfl⟩
  | @knot located rest unit files cycle read known found closes =>
    have name := tidy.imports.name known
    exact ⟨_, .of_change rfl (audience?_package known) (name ▸ unit.complete_change _)
      (audience?_setPackage s located.lookup.package _), rfl⟩
  | @start located rest unit files read known found safe owned =>
    have name := tidy.imports.name known
    exact ⟨_, .of_change rfl (audience?_package known) (name ▸ unit.start_change _)
      (audience?_setPackage s located.lookup.package _), rfl⟩
  | @sever located rest unit files desk deliveries read known found safe released severs tidyDesk =>
    have name := tidy.imports.name known
    have told : Audience.Change (.package located.lookup.package) unit.audience _ _ :=
      name ▸ unit.start_change (files.map Path.normalize)
    refine ⟨_, .announce rfl (.cons (audience?_package known) told ?_), rfl⟩
    have lost := severs_announces severs
      (Table.forall_set tidy.imports.name ((unit.start_name _).trans name)) s
    rwa [← audience?_setPackage s]
  | @hear index notice file package others unit read about waiting known =>
    have name := tidy.imports.name known
    exact ⟨_, .of_change rfl (audience?_package known)
      (name ▸ (unit.memberDone_hears file notice.outcome).change)
      (audience?_setPackage s package _), rfl⟩

end State

/-! ### Outcomes stay -/

namespace Audiences

variable {audiences next : Audiences} {deliveries : List Delivery} {unit : UnitName}
  {outcome : Outcome}

theorem outcome?_update (audiences : Audiences) (changed unit : UnitName) (audience : Audience) :
    Audiences.outcome? (update audiences changed (some audience)) unit =
      if unit = changed then audience.outcome? else audiences.outcome? unit := by
  by_cases same : unit = changed <;> simp [Audiences.outcome?, same]

theorem Announces.outcome?_eq (announces : Announces audiences deliveries next)
    (complete : audiences.outcome? unit = some outcome) :
    next.outcome? unit = some outcome := by
  induction announces with
  | nil => exact complete
  | @cons audiences next changed before after deliveries more known change rest ih =>
    apply ih
    rw [outcome?_update]
    split
    · rename_i same
      subst same
      exact change.outcome?_eq (by simpa [Audiences.outcome?, known] using complete)
    · exact complete

/-- Announced outcomes are those of the units. -/
theorem Announces.tells (announces : Announces audiences deliveries next) :
    ∀ delivery ∈ deliveries, next.outcome? delivery.notice.unit = some delivery.notice.outcome := by
  induction announces with
  | nil => simp
  | @cons audiences next changed before after deliveries more known change rest ih =>
    intro delivery member
    rcases List.mem_append.mp member with first | later
    · apply rest.outcome?_eq
      cases change with
      | keep => simp at first
      | announce subscribers outcome =>
        obtain ⟨address, _, rfl⟩ := List.mem_map.mp first
        simp [outcome?_update, Audience.outcome?]
    · exact ih delivery later

end Audiences

namespace State

variable {s next : State} {event : Event} {deliveries : List Delivery} {audiences : Audiences}

theorem Talk.outcome?_eq (talk : s.Talk event deliveries audiences) {unit : UnitName}
    {outcome : Outcome} (complete : s.outcome? unit = some outcome) :
    audiences.outcome? unit = some outcome := by
  cases talk with
  | announce _ announces => exact announces.outcome?_eq complete
  | @subscribe changed address audience asked known =>
    rw [Audiences.outcome?_update]
    split
    · rename_i same
      subst same
      have answered : audience.outcome? = some outcome := by
        simpa [outcome?, Audiences.outcome?, known] using complete
      cases audience with
      | waiting => simp [Audience.outcome?] at answered
      | answered => exact answered
    · exact complete
  | @create changed address asked unknown =>
    rw [Audiences.outcome?_update]
    split
    · rename_i same
      subst same
      simp [outcome?, Audiences.outcome?, unknown] at complete
    · exact complete
  | refuse => exact complete
  | reject => exact complete

/-- Once a unit has an outcome it keeps it. -/
theorem Step.outcome?_eq (tidy : s.Tidy) (step : s.Step event next) {unit : UnitName}
    {outcome : Outcome} (complete : s.outcome? unit = some outcome) :
    next.outcome? unit = some outcome := by
  obtain ⟨deliveries, talk, _⟩ := step.talk tidy
  exact talk.outcome?_eq complete

/-- What a notice says: the outcome of its unit, or that work on it was refused, or that an import
was rejected. -/
theorem Talk.tells (talk : s.Talk event deliveries audiences) :
    ∀ delivery ∈ deliveries,
      audiences.outcome? delivery.notice.unit = some delivery.notice.outcome ∨
      (s.audience? delivery.notice.unit = none ∧ s.shutdown.raised = true ∧
        delivery.notice = .cancelled delivery.notice.unit) ∨
      s.Rejects event delivery := by
  intro delivery member
  cases talk with
  | announce _ announces => exact Or.inl (announces.tells delivery member)
  | @subscribe unit address audience asked known =>
    cases audience with
    | waiting => simp [Audience.subscribe] at member
    | answered outcome =>
      obtain rfl := List.mem_singleton.mp member
      exact Or.inl (by simp [Audiences.outcome?_update, Audience.subscribe, Audience.outcome?])
  | create => simp at member
  | refuse asked unknown stopped =>
    obtain rfl := List.mem_singleton.mp member
    exact Or.inr (Or.inl ⟨unknown, stopped, rfl⟩)
  | reject rejects =>
    obtain rfl := List.mem_singleton.mp member
    exact Or.inr (Or.inr rejects)

/-- Good news is true. -/
theorem Talk.tells_ok (talk : s.Talk event deliveries audiences) :
    ∀ delivery ∈ deliveries, delivery.notice.outcome = .ok →
      audiences.outcome? delivery.notice.unit = some .ok := by
  intro delivery member ok
  rcases talk.tells delivery member with told | ⟨_, _, refused⟩ | rejects
  · rw [told, ok]
  · rw [refused] at ok
    simp [Notice.cancelled, Notice.failed] at ok
  · cases rejects
    simp [Notice.failed] at ok

/-! ### Answers to a request -/

theorem Rejects.open_unit {delivery : Delivery} (rejects : s.Rejects event delivery) :
    s.handled event = some delivery.question ∧
      ∃ subscribers, s.audience? delivery.notice.unit = some (.waiting subscribers) := by
  obtain ⟨read, known, live, _⟩ := rejects
  obtain ⟨subscribers, isOpen⟩ := PackageUnit.isLive_iff.mp live
  refine ⟨by simp [handled, read, ImportRequest.question, Delivery.question, Notice.failed],
    subscribers, ?_⟩
  rw [← isOpen]
  exact audience?_package known

namespace Talk

variable {unit : UnitName} {address : Address}

/-- A request for an unknown unit is refused. -/
theorem refuses (talk : s.Talk event deliveries audiences) (stopped : s.shutdown.raised = true)
    (asked : s.handled event = some (unit, address)) (unknown : s.audience? unit = none) :
    deliveries = [⟨address, .cancelled unit⟩] := by
  cases talk with
  | announce unasked => simp [asked] at unasked
  | subscribe again known =>
    obtain ⟨rfl, rfl⟩ := Prod.mk.inj (Option.some.inj (asked.symm.trans again))
    simp [unknown] at known
  | create _ _ running => simp [stopped] at running
  | refuse again =>
    obtain ⟨rfl, rfl⟩ := Prod.mk.inj (Option.some.inj (asked.symm.trans again))
    rfl
  | reject rejects =>
    obtain ⟨again, _, known⟩ := rejects.open_unit
    obtain ⟨rfl, rfl⟩ := Prod.mk.inj (Option.some.inj (asked.symm.trans again))
    simp [unknown] at known

/-- A request for a complete unit is answered at once. -/
theorem replays (talk : s.Talk event deliveries audiences) {outcome : Outcome}
    (asked : s.handled event = some (unit, address))
    (known : s.audience? unit = some (.answered outcome)) :
    deliveries = [⟨address, unit, outcome⟩] := by
  cases talk with
  | announce unasked => simp [asked] at unasked
  | subscribe again found =>
    obtain ⟨rfl, rfl⟩ := Prod.mk.inj (Option.some.inj (asked.symm.trans again))
    obtain rfl := Option.some.inj (known.symm.trans found)
    rfl
  | create again unknown | refuse again unknown =>
    obtain ⟨rfl, rfl⟩ := Prod.mk.inj (Option.some.inj (asked.symm.trans again))
    simp [known] at unknown
  | reject rejects =>
    obtain ⟨again, _, found⟩ := rejects.open_unit
    obtain ⟨rfl, rfl⟩ := Prod.mk.inj (Option.some.inj (asked.symm.trans again))
    simp [known] at found

end Talk

end State

end GoFront.Build
