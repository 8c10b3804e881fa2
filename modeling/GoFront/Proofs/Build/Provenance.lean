import GoFront.Proofs.Build.Dependency
import GoFront.Proofs.Build.Owed
import GoFront.Proofs.Build.Searching
import GoFront.Proofs.Build.Waiting.Acyclic

/-!
Whatever the compiler holds was given to it by the frontend: every import that is asked for stands
in a file, every member that is waited for was located, and every report says what the parse gave.
-/
namespace GoFront

namespace Frontend
open Build

/-- The questions that can come up: a task asks for a package that its file imports, calls and
packages ask for files. -/
inductive Wants (frontend : Frontend) : Question → Prop where
  | task {file package : String} (needs : frontend.Needs (.file file) (.package package)) :
      Wants frontend (.package package, .task file)
  | call (file : String) (number : Nat) : Wants frontend (.file file, .call number)
  | members (file : String) : Wants frontend (.file file, .members)

theorem Wants.needs {frontend : Frontend} {unit : UnitName} {file : String}
    (wanted : frontend.Wants (unit, .task file)) : frontend.Needs (.file file) unit := by
  cases wanted with
  | task needs => exact needs

theorem Wants.package_name {frontend : Frontend} {unit : UnitName} {file : String}
    (wanted : frontend.Wants (unit, .task file)) : .package unit.name = unit := by
  cases wanted with
  | task => rfl

/-- The report is true of the frontend. -/
def Warrants (frontend : Frontend) : Report → Prop
  | .parsed file result => result = frontend.prepare file
  | .importResolved file notice => frontend.Wants (notice.unit, .task file)

end Frontend

namespace Build

theorem FileUnit.Heeds.parsed_eq {unit next : FileUnit} {report : Report}
    {deliveries : List Delivery} {parsed : ParsedFile}
    (heeds : unit.Heeds report next deliveries) (read : next.parsed = some parsed) :
    unit.parsed = some parsed ∨ ∃ file, report = .parsed file (.ok parsed) := by
  cases heeds with
  | wait | finish =>
    obtain rfl := Option.some.inj read
    exact Or.inr ⟨_, rfl⟩
  | _ => exact Or.inl read

namespace PackageUnit

variable {unit : PackageUnit} {file : String}

theorem mem_outstanding_of_complete {outcome : Outcome}
    (member : file ∈ (unit.complete outcome).1.outstanding) : file ∈ unit.outstanding := by
  unfold complete at member
  split at member
  · exact member
  · simp at member

theorem Hears.mem_outstanding {next : PackageUnit} {about : String} {outcome : Outcome}
    {deliveries : List Delivery} (hears : unit.Hears about outcome next deliveries)
    (member : file ∈ next.outstanding) : file ∈ unit.outstanding := by
  cases hears with
  | ignore => exact member
  | record => exact (List.mem_filter.mp member).1
  | finish => simp at member

theorem Fresh.mem_outstanding_of_start (fresh : unit.Fresh) {files : List String}
    (member : file ∈ (unit.start files).1.outstanding) : file ∈ files := by
  cases files with
  | nil =>
    rw [start_nil fresh] at member
    simpa [fresh.outstanding] using mem_outstanding_of_complete member
  | cons first rest =>
    obtain ⟨started, _⟩ := start_of_fresh fresh (List.cons_ne_nil first rest)
    exact (started.outstanding file).mp member

end PackageUnit

namespace State

/-- Everything in the state stems from the frontend. -/
structure Grounded (frontend : Frontend) (s : State) : Prop where
  owed : ∀ {question}, 0 < s.owed question → frontend.Wants question
  importer : ∀ request ∈ s.importRequests, request.replyTo = .task request.fromFile
  unsent : ∀ {file task}, s.tasks.get? file = some task → ∀ unsent pending,
    task.phase = .resolving unsent pending →
    ∀ site ∈ unsent, frontend.Needs (.file file) (.package site.package)
  reports : ∀ report ∈ s.reports, frontend.Warrants report
  parsed : ∀ {file unit}, s.files.units.get? file = some unit → ∀ parsed, unit.parsed = some parsed →
    frontend.prepare file = .ok parsed
  recorded : ∀ {file package}, (file, package) ∈ s.imports.graph.imports →
    frontend.Needs (.file file) (.package package) ∧ ∃ unit, s.imports.units.get? package = some unit
  located : ∀ located ∈ s.located, located.result = frontend.locate located.lookup.package
  outstanding : ∀ {package unit}, s.imports.units.get? package = some unit →
    ∀ file ∈ unit.outstanding, frontend.Needs (.package package) (.file file)

namespace Grounded

variable {frontend : Frontend} {s next : State} {event : Event}

theorem wants_mail (grounded : s.Grounded frontend) {delivery : Delivery}
    (member : delivery ∈ s.mail) : frontend.Wants delivery.question :=
  grounded.owed (owed_pos_of_mail member)

theorem needs_import (grounded : s.Grounded frontend) {request : ImportRequest}
    (member : request ∈ s.importRequests) :
    frontend.Needs (.file request.fromFile) (.package request.package) := by
  have wanted := grounded.owed (owed_pos_of_importRequest member)
  rw [ImportRequest.question, grounded.importer request member] at wanted
  exact wanted.needs

theorem wants_issued (grounded : s.Grounded frontend) (step : s.Step event next) :
    ∀ question ∈ s.issued next, frontend.Wants question := by
  intro question member
  cases step.issues member with
  | call => exact .call _ _
  | task known => exact .task (grounded.unsent known _ _ rfl _ List.mem_cons_self)
  | members file => exact .members file

theorem initial (keepGoing : Bool) : Grounded frontend { keepGoing } where
  owed owed := by simp [owed_initial] at owed
  importer request member := by simp at member
  unsent known := by simp at known
  reports report member := by simp at member
  parsed known := by simp at known
  recorded member := by simp at member
  located located member := by simp at member
  outstanding known := by simp at known

theorem unsent_step (grounded : s.Grounded frontend) (obeys : event.Obeys frontend)
    (step : s.Step event next) :
    ∀ {file task}, next.tasks.get? file = some task → ∀ unsent pending,
      task.phase = .resolving unsent pending →
      ∀ site ∈ unsent, frontend.Needs (.file file) (.package site.package) := by
  have old := @grounded.unsent
  intro file task
  cases step with
  | enlist | giveUp => exact Table.forall_set old (by rintro _ _ ⟨⟩)
  | @ask file site rest pending known =>
    refine Table.forall_set old ?_
    intro unsent _ phase other member
    obtain ⟨rfl, _⟩ := TaskPhase.resolving.inj phase
    exact old known _ _ rfl other (List.mem_cons_of_mem _ member)
  | @parsed file result known =>
    refine Table.forall_set old ?_
    intro unsent pending phase site member
    cases result with
    | error failure => simp [FileTask.finishParse] at phase
    | ok parsed =>
      simp only [FileTask.finishParse] at phase
      split at phase
      · simp at phase
      · obtain ⟨rfl, _⟩ := TaskPhase.resolving.inj phase
        exact .imports obeys.symm (ParsedFile.mem_imports.mp (List.mem_map_of_mem member))
  | @relay index notice file pending read known =>
    refine Table.forall_set old ?_
    intro unsent _ phase site member
    dsimp only at phase
    split at phase
    · simp at phase
    · obtain ⟨rfl, _⟩ := TaskPhase.resolving.inj phase
      simp at member
  | _ => exact old

theorem reports_step (grounded : s.Grounded frontend) (obeys : event.Obeys frontend)
    (step : s.Step event next) : ∀ report ∈ next.reports, frontend.Warrants report := by
  intro report member
  cases step.reported report member with
  | before old => exact grounded.reports report old
  | parsed now =>
    subst now
    exact obeys
  | gaveUp known => exact .task (grounded.unsent known _ _ rfl _ List.mem_cons_self)
  | relayed read => exact grounded.wants_mail read

theorem parsed_step (grounded : s.Grounded frontend) (step : s.Step event next) :
    ∀ {file unit}, next.files.units.get? file = some unit →
      ∀ parsed, unit.parsed = some parsed → frontend.prepare file = .ok parsed := by
  cases step with
  | join read known =>
    refine Table.forall_set grounded.parsed ?_
    intro parsed parse
    exact grounded.parsed known parsed parse
  | enlist => exact Table.forall_set grounded.parsed (by simp)
  | @heed report rest unit read known =>
    refine Table.forall_set grounded.parsed ?_
    intro parsed parse
    rcases (unit.heed_heeds report).parsed_eq parse with old | ⟨file, rfl⟩
    · exact grounded.parsed known parsed old
    · have warranted := grounded.reports _ (read ▸ List.mem_cons_self)
      exact warranted.symm
  | _ => exact grounded.parsed

theorem recorded_step (grounded : s.Grounded frontend) (step : s.Step event next) :
    ∀ {file package}, (file, package) ∈ next.imports.graph.imports →
      frontend.Needs (.file file) (.package package) ∧
        ∃ unit, next.imports.units.get? package = some unit := by
  have kept : ∀ {changed : String} {unit : PackageUnit} {file package : String},
      (file, package) ∈ s.imports.graph.imports → frontend.Needs (.file file) (.package package) ∧
        ∃ known, (s.imports.units.set changed unit).get? package = some known :=
    fun edge => ⟨(grounded.recorded edge).1, Table.exists_set (grounded.recorded edge).2⟩
  have added : ∀ {unit : PackageUnit} {request : ImportRequest}, request ∈ s.importRequests →
      ∀ {file package}, (file, package) ∈
        (s.imports.graph.record request.fromFile request.package).imports →
      frontend.Needs (.file file) (.package package) ∧
        ∃ known, (s.imports.units.set request.package unit).get? package = some known := by
    intro unit request member file package edge
    rcases ImportGraph.mem_record.mp edge with new | old
    · obtain ⟨rfl, rfl⟩ := Prod.mk.inj new
      exact ⟨grounded.needs_import member, Table.exists_set_self⟩
    · exact kept old
  intro file package
  cases step with
  | @follow request _ _ read | @search request _ read =>
    have member : request ∈ s.importRequests := by simp [read]
    exact added member
  | reuse | lost | knot | start | hear => exact kept
  | @sever located rest unit files desk deliveries read known found safe released severs =>
    intro edge
    rw [severs.graph_eq] at edge
    obtain ⟨needs, known⟩ := kept edge
    exact ⟨needs, severs.known known⟩
  | _ => exact grounded.recorded

theorem located_step (grounded : s.Grounded frontend) (obeys : event.Obeys frontend)
    (step : s.Step event next) :
    ∀ located ∈ next.located, located.result = frontend.locate located.lookup.package := by
  cases step with
  | @found package result lookup searching same =>
    intro located member
    rcases List.mem_append.mp member with old | new
    · exact grounded.located located old
    · obtain rfl := List.mem_singleton.mp new
      exact same ▸ obeys
  | lost read | knot read | start read | sever read =>
    exact fun located member => grounded.located located (by simp [read, member])
  | _ => exact grounded.located

theorem outstanding_step (grounded : s.Grounded frontend) (searched : s.Searched)
    (step : s.Step event next) :
    ∀ {package unit}, next.imports.units.get? package = some unit →
      ∀ file ∈ unit.outstanding, frontend.Needs (.package package) (.file file) := by
  have old := @grounded.outstanding
  have started : ∀ {located : Located} {rest : List Located} {unit : PackageUnit}
      {files : List String}, s.located = located :: rest →
      s.imports.units.get? located.lookup.package = some unit → located.result = .ok files →
      ∀ file ∈ (unit.start (files.map Path.normalize)).1.outstanding,
        frontend.Needs (.package located.lookup.package) (.file file) := by
    intro located rest unit files read known found file member
    have fresh := searched.fresh (by simp [searches, read]) known
    have answer := grounded.located located (by simp [read])
    exact .member (answer.symm.trans found) (fresh.mem_outstanding_of_start member)
  intro package unit
  cases step with
  | follow read known | reuse read known =>
    refine Table.forall_set old ?_
    intro file member
    exact old known file member
  | search => exact Table.forall_set old (by simp)
  | lost read known | knot read known =>
    exact Table.forall_set old fun file member =>
      old known file (PackageUnit.mem_outstanding_of_complete member)
  | start read known found => exact Table.forall_set old (started read known found)
  | sever read known found safe released severs =>
    refine severs.forall_units ?_ (Table.forall_set old (started read known found))
    intro package unit lost waits file member
    exact waits file ((unit.memberDone_hears lost _).mem_outstanding member)
  | @hear index notice file package others unit read about waiting known =>
    exact Table.forall_set old fun other member =>
      old known other ((unit.memberDone_hears file _).mem_outstanding member)
  | _ => exact old

theorem step (tidy : s.Tidy) (searched : s.Searched) (grounded : s.Grounded frontend)
    (obeys : event.Obeys frontend) (step : s.Step event next) : next.Grounded frontend where
  owed owed := (step.owed_pos tidy owed).elim grounded.owed (grounded.wants_issued step _)
  importer := by
    cases step with
    | ask =>
      intro request member
      rcases List.mem_append.mp member with old | new
      · exact grounded.importer request old
      · obtain rfl := List.mem_singleton.mp new
        rfl
    | reject read | follow read | reuse read | turnAway read | search read =>
      exact fun request member => grounded.importer request (by simp [read, member])
    | _ => exact grounded.importer
  unsent := grounded.unsent_step obeys step
  reports := grounded.reports_step obeys step
  parsed := grounded.parsed_step step
  recorded := grounded.recorded_step step
  located := grounded.located_step obeys step
  outstanding := grounded.outstanding_step searched step

end Grounded

end State

theorem Run.grounded {frontend : Frontend} {keepGoing : Bool} {trace : Trace} {s : State}
    (run : Run frontend keepGoing trace s) : s.Grounded frontend :=
  run.invariant (.initial keepGoing) fun earlier grounded obeys step =>
    grounded.step earlier.tidy earlier.searched obeys step

end Build

end GoFront
