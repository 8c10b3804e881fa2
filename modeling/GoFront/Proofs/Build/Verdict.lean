import GoFront.Proofs.Build.Progress
import GoFront.Proofs.Build.Soundness

/-!
The verdict on a unit does not depend on the order of events. As long as nobody stops the compiler,
a failure is only ever reported of a unit that needs something broken or cyclic, so what ends with
success is exactly what the frontend makes good.
-/
namespace GoFront.Build
open Relation

/-! ### Where failures come from -/

/-- The user stops the compiler or lets go of it. -/
def Event.stops : Event → Bool
  | .stop | .release => true
  | _ => false

theorem FileUnit.Heeds.failed {unit next : FileUnit} {report : Report} {deliveries : List Delivery}
    {failure : Failure} (heeds : unit.Heeds report next deliveries)
    (failed : next.audience.outcome? = some (.failed failure)) :
    unit.audience.outcome? = some (.failed failure) ∨
      (∃ file, report = .parsed file (.error failure)) ∨
      ∃ file notice, report = .importResolved file notice ∧ notice.outcome = .failed failure := by
  cases heeds with
  | ignore | wait | importDone => exact Or.inl failed
  | finish | importsDone => simp [Audience.outcome?] at failed
  | @fail file cause =>
    obtain rfl : cause = failure := by simpa [Audience.outcome?] using failed
    exact Or.inr (Or.inl ⟨file, rfl⟩)
  | @importFailed file notice =>
    have same : notice.outcome = .failed failure := by simpa [Audience.outcome?] using failed
    exact Or.inr (Or.inr ⟨file, notice, rfl, same⟩)

namespace PackageUnit

variable {unit : PackageUnit}

/-- The package has failed, or will when its members are done. -/
def IsDoomed (unit : PackageUnit) : Prop :=
  unit.firstFailure ≠ none ∨ ∃ failure, unit.audience.outcome? = some (.failed failure)

theorem isDoomed_subscribe {address : Address} (doomed : (unit.subscribe address).1.IsDoomed) :
    unit.IsDoomed := by
  have same : (unit.subscribe address).1.audience.outcome? = unit.audience.outcome? :=
    Audience.outcome?_subscribe _ _ _
  unfold IsDoomed at doomed
  rwa [same] at doomed

theorem Hears.isDoomed {next : PackageUnit} {file : String} {outcome : Outcome}
    {deliveries : List Delivery} (hears : unit.Hears file outcome next deliveries)
    (doomed : next.IsDoomed) : unit.IsDoomed ∨ (file ∈ unit.outstanding ∧ outcome ≠ .ok) := by
  have blamed : unit.firstFailure.or outcome.failure? ≠ none →
      unit.IsDoomed ∨ outcome ≠ .ok := by
    intro some
    by_cases clean : unit.firstFailure = none
    · rw [clean, Option.none_or] at some
      exact Or.inr fun ok => some (Outcome.failure?_eq_none.mpr ok)
    · exact Or.inl (Or.inl clean)
  cases hears with
  | ignore => exact Or.inl doomed
  | record live member =>
    rcases doomed with some | answered
    · exact (blamed some).imp id fun bad => ⟨member, bad⟩
    · exact Or.inl (Or.inr answered)
  | finish isOpen member =>
    rcases doomed with some | ⟨failure, answered⟩
    · simp at some
    · refine (blamed fun clean => ?_).imp id fun bad => ⟨member, bad⟩
      simp [clean, Audience.outcome?, Outcome.ofFailure?] at answered

theorem Fresh.not_isDoomed_start (fresh : unit.Fresh) (files : List String) :
    ¬ (unit.start files).1.IsDoomed := by
  obtain ⟨subscribers, isOpen⟩ := isLive_iff.mp fresh.live
  cases files with
  | nil =>
    rw [start_nil fresh, complete_of_waiting unit isOpen]
    simp [IsDoomed, Audience.outcome?, fresh.firstFailure]
  | cons first rest =>
    obtain ⟨started, _⟩ := start_of_fresh fresh (List.cons_ne_nil first rest)
    simp [IsDoomed, started.firstFailure, started.audience, isOpen, Audience.outcome?]

end PackageUnit

namespace State

variable {frontend : Frontend} {s next : State} {event : Event}

/-! ### The flag -/

theorem Step.running (step : s.Step event next) (running : next.shutdown.raised = false) :
    s.shutdown.raised = false := by
  cases step with
  | accept => exact (Bool.or_eq_false_iff.mp running).1
  | stop | release => simp at running
  | _ => exact running

theorem Step.owned_of_running (step : s.Step event next)
    (owned : s.shutdown.raised = false → s.shutdown.owned = true)
    (running : next.shutdown.raised = false) : next.shutdown.owned = true := by
  have before := owned (step.running running)
  cases step with
  | release => simp at running
  | _ => exact before

theorem Step.keepGoing_eq (step : s.Step event next) : next.keepGoing = s.keepGoing := by
  cases step <;> rfl

/-- A failure that a call has seen is not forgotten. -/
theorem Step.calls_clean (step : s.Step event next)
    (clean : ∀ call ∈ next.calls, call.failure = none) : ∀ call ∈ s.calls, call.failure = none := by
  have changed : ∀ {number : Nat} {call changed : CompileCall}, s.calls[number]? = some call →
      (changed.failure = none → call.failure = none) →
      (∀ call ∈ s.calls.set number changed, call.failure = none) →
      ∀ call ∈ s.calls, call.failure = none := by
    intro number call changed read same clean other member
    obtain ⟨place, found⟩ := List.mem_iff_getElem?.mp member
    have inside := (List.getElem?_eq_some_iff.mp found).1
    by_cases this : number = place
    · subst this
      obtain rfl := Option.some.inj (found.symm.trans read)
      exact same (clean _ (List.mem_of_getElem? (List.getElem?_set_self inside)))
    · exact clean other (List.mem_of_getElem? ((List.getElem?_set_ne this).trans found))
  cases step with
  | call => exact fun call member => clean call (List.mem_append_left _ member)
  | send read =>
    refine changed read ?_ clean
    exact id
  | @accept index number notice call read known =>
    exact changed known (fun none => ((call.accept_accepts notice).failure_eq_none none).1) clean
  | _ => exact clean

/-- Without its user, the compiler is stopped only by a failure that a call sees, and not at all if
it keeps going. -/
theorem Step.running_of_lenient (step : s.Step event next) (running : s.shutdown.raised = false)
    (unstopped : event.stops = false)
    (lenient : s.keepGoing = true ∨ ∀ call ∈ next.calls, call.failure = none) :
    next.shutdown.raised = false := by
  cases step with
  | stop | release => simp [Event.stops] at unstopped
  | @accept index number notice call read known =>
    rcases lenient with keepGoing | clean
    · simp [running, keepGoing]
    · have inside := (List.getElem?_eq_some_iff.mp known).1
      have member := List.mem_of_getElem? (List.getElem?_set_self (a := call.accept notice) inside)
      have first := ((call.accept_accepts notice).failure_eq_none (clean _ member)).2
      simp [running, first]
  | _ => exact running

/-! ### Cycles -/

namespace Grounded

theorem needs_of_waits (grounded : s.Grounded frontend) {unit other : UnitName}
    (waits : s.imports.Waits unit other) : frontend.Needs unit other := by
  cases waits with
  | imports recorded => exact (grounded.recorded recorded).1
  | member known _ outstanding => exact grounded.outstanding known _ outstanding

theorem reaches_of_waits (grounded : s.Grounded frontend) {unit other : UnitName}
    (path : ReflTransGen s.imports.Waits unit other) :
    ReflTransGen frontend.Needs unit other :=
  ReflTransGen.mono (fun _ _ => grounded.needs_of_waits) _ _ path

/-- An import is rejected only on a cycle of the program. -/
theorem faulty_of_rejects (grounded : s.Grounded frontend) {delivery : Delivery}
    (rejects : s.Rejects event delivery) : frontend.Faulty delivery.notice.unit := by
  obtain ⟨read, _, _, closes⟩ := rejects
  have needed := grounded.needs_import (read ▸ List.mem_cons_self)
  have path := grounded.reaches_of_waits (ImportDesk.reaches_of_importCycle closes)
  exact .of_cycle (TransGen.tail' path needed)

theorem faulty_of_memberCycle (grounded : s.Grounded frontend) {located : Located}
    {files cycle : List String} (member : located ∈ s.located) (found : located.result = .ok files)
    (closes : s.imports.memberCycle located.lookup.package (files.map Path.normalize) =
      some cycle) : frontend.Faulty (.package located.lookup.package) := by
  obtain ⟨file, listed, path⟩ := ImportDesk.reaches_of_memberCycle closes
  have needed : frontend.Needs (.package located.lookup.package) (.file file) :=
    .member ((grounded.located located member).symm.trans found) listed
  exact .of_cycle (TransGen.head' needed (grounded.reaches_of_waits path))

end Grounded

/-- Every failure has its reason in the program. -/
structure Justified (frontend : Frontend) (s : State) : Prop where
  files : ∀ {file unit}, s.files.units.get? file = some unit → ∀ failure,
    unit.audience.outcome? = some (.failed failure) → frontend.Faulty (.file file)
  packages : ∀ {package unit}, s.imports.units.get? package = some unit → unit.IsDoomed →
    frontend.Faulty (.package package)
  mail : ∀ delivery ∈ s.mail, delivery.notice.outcome ≠ .ok → frontend.Faulty delivery.notice.unit
  reports : ∀ file notice, .importResolved file notice ∈ s.reports → notice.outcome ≠ .ok →
    frontend.Faulty notice.unit

namespace Justified

theorem initial (keepGoing : Bool) : Justified frontend { keepGoing } where
  files known := by simp at known
  packages known := by simp at known
  mail delivery member := by simp at member
  reports file notice member := by simp at member

theorem outcome
    (files : ∀ {file unit}, s.files.units.get? file = some unit → ∀ failure,
      unit.audience.outcome? = some (.failed failure) → frontend.Faulty (.file file))
    (packages : ∀ {package unit}, s.imports.units.get? package = some unit → unit.IsDoomed →
      frontend.Faulty (.package package)) {unit : UnitName} {failure : Failure}
    (failed : s.outcome? unit = some (.failed failure)) : frontend.Faulty unit := by
  cases unit with
  | file file =>
    obtain ⟨unit, known, failed⟩ := outcome?_file.mp failed
    exact files known failure failed
  | package package =>
    obtain ⟨unit, known, failed⟩ := outcome?_package.mp failed
    exact packages known (Or.inr ⟨failure, failed⟩)

theorem files_step (grounded : s.Grounded frontend) (justified : s.Justified frontend)
    (step : s.Step event next) :
    ∀ {file unit}, next.files.units.get? file = some unit → ∀ failure,
      unit.audience.outcome? = some (.failed failure) → frontend.Faulty (.file file) := by
  have old := @justified.files
  intro file unit
  cases step with
  | join read known =>
    refine Table.forall_set old ?_
    intro failure failed
    exact old known failure ((Audience.outcome?_subscribe _ _ _).symm.trans failed)
  | enlist => exact Table.forall_set old (by simp [Audience.outcome?])
  | @heed report rest unit read known =>
    refine Table.forall_set old ?_
    intro failure failed
    have first : report ∈ s.reports := read ▸ List.mem_cons_self
    have warranted := grounded.reports report first
    rcases (unit.heed_heeds report).failed failed with
      before | ⟨file, rfl⟩ | ⟨file, notice, rfl, cause⟩
    · exact old known failure before
    · exact .of_broken (.file warranted.symm)
    · have faulty := justified.reports file notice first (by simp [cause])
      exact .of_needs warranted.needs faulty
  | _ => exact old

theorem packages_step (searched : s.Searched) (grounded : s.Grounded frontend)
    (justified : s.Justified frontend) (owned : s.shutdown.owned = true)
    (step : s.Step event next) :
    ∀ {package unit}, next.imports.units.get? package = some unit → unit.IsDoomed →
      frontend.Faulty (.package package) := by
  have old := @justified.packages
  intro package unit
  cases step with
  | follow read known | reuse read known =>
    exact Table.forall_set old fun doomed => old known (PackageUnit.isDoomed_subscribe doomed)
  | search => exact Table.forall_set old (by simp [PackageUnit.IsDoomed, Audience.outcome?])
  | @lost located rest unit fault read known failed =>
    have answer := grounded.located located (by simp [read])
    exact Table.forall_set old fun _ => .of_broken (.package (answer.symm.trans failed))
  | @knot located rest unit files cycle read known found closes =>
    have first : located ∈ s.located := by simp [read]
    exact Table.forall_set old fun _ => grounded.faulty_of_memberCycle first found closes
  | start read known found =>
    have fresh := searched.fresh (by simp [searches, read]) known
    exact Table.forall_set old fun doomed => (fresh.not_isDoomed_start _ doomed).elim
  | sever read known found safe released => simp [owned] at released
  | @hear index notice file package others unit read about waiting known =>
    refine Table.forall_set old fun doomed => ?_
    rcases (unit.memberDone_hears file notice.outcome).isDoomed doomed with before | ⟨member, bad⟩
    · exact old known before
    · have faulty := justified.mail _ (List.mem_of_getElem? read) bad
      exact .of_needs (grounded.outstanding known file member) (about ▸ faulty)
  | _ => exact old

theorem mail_step (tidy : s.Tidy) (grounded : s.Grounded frontend)
    (justified : s.Justified frontend) (running : s.shutdown.raised = false)
    (told : ∀ {unit failure}, next.outcome? unit = some (.failed failure) → frontend.Faulty unit)
    (step : s.Step event next) :
    ∀ delivery ∈ next.mail, delivery.notice.outcome ≠ .ok →
      frontend.Faulty delivery.notice.unit := by
  obtain ⟨deliveries, talk, mail⟩ := step.talk tidy
  intro delivery member bad
  rw [mail] at member
  rcases List.mem_append.mp member with old | new
  · exact justified.mail delivery (mem_mail_of_unread old) bad
  · -- What is told in this step is an outcome that the step leaves, or that an import is rejected.
    rcases talk.tells delivery new with outcome | ⟨_, stopped, _⟩ | rejects
    · cases failed : delivery.notice.outcome with
      | ok => exact (bad failed).elim
      | failed failure => exact told (failed ▸ outcome)
    · simp [running] at stopped
    · exact grounded.faulty_of_rejects rejects

theorem reports_step (justified : s.Justified frontend) (running : s.shutdown.raised = false)
    (step : s.Step event next) :
    ∀ file notice, .importResolved file notice ∈ next.reports → notice.outcome ≠ .ok →
      frontend.Faulty notice.unit := by
  intro file notice member bad
  cases step.reported _ member with
  | before old => exact justified.reports file notice old bad
  | gaveUp known stopped => simp [running] at stopped
  | relayed read => exact justified.mail _ read bad

theorem step (tidy : s.Tidy) (searched : s.Searched) (grounded : s.Grounded frontend)
    (justified : s.Justified frontend) (running : s.shutdown.raised = false)
    (owned : s.shutdown.owned = true) (step : s.Step event next) : next.Justified frontend where
  files := justified.files_step grounded step
  packages := justified.packages_step searched grounded owned step
  mail := justified.mail_step tidy grounded running
    (outcome (justified.files_step grounded step)
      (justified.packages_step searched grounded owned step)) step
  reports := justified.reports_step running step

end Justified

end State

theorem shop_good : shop.Good (.file "main.go") := by
  have leaf : shop.Good (.file "p.go") := by
    refine .of_needs (by decide +kernel) fun other needed => ?_
    have none : shop.needed (.file "p.go") = [] := by decide +kernel
    simp [← Frontend.mem_needed, none] at needed
  have package : shop.Good (.package "p") := by
    refine .of_needs (by decide +kernel) fun other needed => ?_
    have members : shop.needed (.package "p") = [.file "p.go"] := by decide +kernel
    obtain rfl : other = .file "p.go" := by
      simpa [← Frontend.mem_needed, members] using needed
    exact leaf
  refine .of_needs (by decide +kernel) fun other needed => ?_
  have imports : shop.needed (.file "main.go") = [.package "p"] := by decide +kernel
  obtain rfl : other = .package "p" := by simpa [← Frontend.mem_needed, imports] using needed
  exact package

namespace Run

variable {frontend : Frontend} {keepGoing : Bool} {trace : Trace} {s : State}

theorem owned_of_running (run : Run frontend keepGoing trace s) :
    s.shutdown.raised = false → s.shutdown.owned = true :=
  run.invariant (fun _ => rfl) fun _ owned _ step => step.owned_of_running owned

theorem keepGoing_eq (run : Run frontend keepGoing trace s) : s.keepGoing = keepGoing := by
  induction run with
  | start => rfl
  | step earlier _ taken ih => exact (State.step_of_tidy earlier.tidy taken).keepGoing_eq.trans ih

theorem running_of_lenient (run : Run frontend keepGoing trace s)
    (unstopped : ∀ entry ∈ trace, entry.2.stops = false)
    (lenient : keepGoing = true ∨ ∀ call ∈ s.calls, call.failure = none) :
    s.shutdown.raised = false := by
  induction run with
  | start => rfl
  | step earlier _ taken ih =>
    have step := State.step_of_tidy earlier.tidy taken
    have before := ih (fun entry member => unstopped entry (List.mem_append_left _ member))
      (lenient.imp id step.calls_clean)
    exact step.running_of_lenient before (unstopped _ (List.mem_append_right _ List.mem_cons_self))
      (lenient.imp earlier.keepGoing_eq.trans id)

theorem justified (run : Run frontend keepGoing trace s) (running : s.shutdown.raised = false) :
    s.Justified frontend := by
  induction run with
  | start => exact .initial keepGoing
  | step earlier _ taken ih =>
    have step := State.step_of_tidy earlier.tidy taken
    have before := step.running running
    exact (ih before).step earlier.tidy earlier.searched earlier.grounded before
      (earlier.owned_of_running before) step

theorem faulty_of_failed (run : Run frontend keepGoing trace s)
    (running : s.shutdown.raised = false) {unit : UnitName} {failure : Failure}
    (failed : s.outcome? unit = some (.failed failure)) : frontend.Faulty unit := by
  have justified := run.justified running
  exact State.Justified.outcome justified.files justified.packages failed

theorem answered_iff_good (run : Run frontend keepGoing trace s)
    (running : s.shutdown.raised = false) (quiet : s.Quiet frontend) {unit : UnitName}
    {audience : Audience} (known : s.audience? unit = some audience) :
    ∃ outcome, audience = .answered outcome ∧ (outcome = .ok ↔ frontend.Good unit) := by
  cases audience with
  | waiting subscribers =>
    have alive := run.owned_of_running running
    exact (run.not_open alive quiet unit ⟨subscribers, known⟩).elim
  | answered outcome =>
    have told : s.outcome? unit = some outcome := by
      simp [State.outcome?, Audiences.outcome?, known, Audience.outcome?]
    refine ⟨outcome, rfl, fun ok => run.good_of_ok (told.trans (congrArg some ok)),
      fun good => ?_⟩
    cases outcome with
    | ok => rfl
    | failed failure => exact ((run.faulty_of_failed running told).not_good good).elim

/-- The verdict is that of the program. Nobody stops the compiler, and it keeps going or no call of
it has seen a failure. Then, in whatever order its parts have run, when it cannot move any more
every unit is answered, with success exactly if it is good: what reaches a cycle has failed, and
what reaches neither a cycle nor anything broken has succeeded. -/
theorem verdict_iff_good (run : Run frontend keepGoing trace s)
    (unstopped : ∀ entry ∈ trace, entry.2.stops = false)
    (lenient : keepGoing = true ∨ ∀ call ∈ s.calls, call.failure = none)
    (quiet : s.Quiet frontend) :
    (∀ file unit, s.files.units.get? file = some unit → ∃ outcome,
      unit.audience = .answered outcome ∧ (outcome = .ok ↔ frontend.Good (.file file))) ∧
    (∀ package unit, s.imports.units.get? package = some unit → ∃ outcome,
      unit.audience = .answered outcome ∧ (outcome = .ok ↔ frontend.Good (.package package))) ∧
    ∀ unit outcome, s.outcome? unit = some outcome →
      ((∃ cause, ReflTransGen frontend.Needs unit cause ∧ TransGen frontend.Needs cause cause) →
        outcome ≠ .ok) ∧
      ((∀ cause, ReflTransGen frontend.Needs unit cause →
        ¬ frontend.Broken cause ∧ ¬ TransGen frontend.Needs cause cause) → outcome = .ok) := by
  have running := run.running_of_lenient unstopped lenient
  refine ⟨?_, ?_, ?_⟩
  · intro file unit known
    exact run.answered_iff_good running quiet (State.audience?_file known)
  · intro package unit known
    exact run.answered_iff_good running quiet (State.audience?_package known)
  · intro unit outcome told
    constructor
    · rintro ⟨cause, reached, cycle⟩ rfl
      exact ((run.good_of_ok told).reaches reached).acyclic cycle
    · intro sane
      cases outcome with
      | ok => rfl
      | failed failure =>
        obtain ⟨cause, reached, broken | cycle⟩ := run.faulty_of_failed running told
        · exact ((sane cause reached).1 broken).elim
        · exact ((sane cause reached).2 cycle).elim

theorem verdict_iff_good_shop_ring :
    (∃ trace s, Run shop true trace s ∧ (∀ entry ∈ trace, entry.2.stops = false) ∧
      s.Quiet shop ∧ s.outcome? (.file "main.go") = some .ok) ∧
    ∃ trace s, Run ring true trace s ∧ (∀ entry ∈ trace, entry.2.stops = false) ∧
      s.Quiet ring ∧ ∃ failure, s.outcome? (.file "a.go") = some (.failed failure) := by
  constructor
  · have settles : State.settles { keepGoing := true } shopEvents (fun trace s =>
        trace.all (!·.2.stops) && (s.files.units.get? "main.go").isSome) = true := by
      decide +kernel
    obtain ⟨more, s, run, quiet, check⟩ := Run.of_settles obeys_shopEvents settles
    simp only [Bool.and_eq_true, List.all_eq_true, Bool.not_eq_true_eq_eq_false,
      Option.isSome_iff_exists] at check
    obtain ⟨unstopped, unit, known⟩ := check
    obtain ⟨outcome, answered, deserved⟩ :=
      (verdict_iff_good run unstopped (Or.inl rfl) quiet).1 _ _ known
    refine ⟨_, s, run, unstopped, quiet, State.outcome?_file.mpr ⟨unit, known, ?_⟩⟩
    rw [answered, deserved.mpr shop_good, Audience.outcome?]
  · have settles : State.settles { keepGoing := true } ringEvents (fun trace s =>
        trace.all (!·.2.stops) && (s.outcome? (.file "a.go")).isSome) = true := by
      decide +kernel
    obtain ⟨more, s, run, quiet, check⟩ := Run.of_settles obeys_ringEvents settles
    simp only [Bool.and_eq_true, List.all_eq_true, Bool.not_eq_true_eq_eq_false,
      Option.isSome_iff_exists] at check
    obtain ⟨unstopped, outcome, told⟩ := check
    have cycle : TransGen ring.Needs (.file "a.go") (.file "a.go") :=
      .head (b := .package "b") (by decide +kernel) <|
      .head (b := .file "b.go") (by decide +kernel) <|
      .head (b := .package "a") (by decide +kernel) <| .single (by decide +kernel)
    have bad := ((verdict_iff_good run unstopped (Or.inl rfl) quiet).2.2 _ _ told).1
      ⟨_, .refl, cycle⟩
    cases outcome with
    | ok => exact (bad rfl).elim
    | failed failure => exact ⟨_, s, run, unstopped, quiet, failure, told⟩

end Run

end GoFront.Build
