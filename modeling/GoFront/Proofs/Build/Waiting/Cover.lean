import GoFront.Proofs.Build.Provenance

/-!
The graph of waiting covers all waiting. As long as the compiler is not let go, a task that waits
for a live package is recorded as importing it, a package that waits for a member has asked for it,
and the graph has no cycle.
-/
namespace GoFront.Build
open Relation

theorem Audience.Change.mem_subscribers {unit : UnitName} {before after : Audience}
    {deliveries : List Delivery} (change : Change unit before after deliveries) {address : Address}
    (member : address ∈ after.subscribers) : address ∈ before.subscribers := by
  cases change with
  | keep => exact member
  | announce => simp [subscribers] at member

namespace ImportGraph.Waits

variable {graph : ImportGraph} {units : Table PackageUnit} {u v : UnitName}

theorem of_record {file package : String} (waits : (graph.record file package).Waits units u v) :
    graph.Waits units u v ∨ u = .file file ∧ v = .package package := by
  cases waits with
  | imports recorded known live =>
    rcases mem_record.mp recorded with new | old
    · obtain ⟨rfl, rfl⟩ := Prod.mk.inj new
      exact Or.inr ⟨rfl, rfl⟩
    · exact Or.inl (.imports old known live)
  | member known live outstanding => exact Or.inl (.member known live outstanding)

/-- A unit that changes and is live only if it was adds edges only to its members. -/
theorem of_set {package : String} {unit changed : PackageUnit}
    (waits : graph.Waits (units.set package changed) u v)
    (known : units.get? package = some unit)
    (live : changed.isLive = true → unit.isLive = true) :
    graph.Waits units u v ∨ changed.isLive = true ∧ u = .package package ∧
      ∃ file ∈ changed.outstanding, v = .file file := by
  cases waits with
  | @imports file other entry recorded read isLive =>
    rw [Table.get?_set] at read
    split at read
    · rename_i same
      subst same
      obtain rfl := Option.some.inj read
      exact Or.inl (.imports recorded known (live isLive))
    · exact Or.inl (.imports recorded read isLive)
  | @member other file entry read isLive outstanding =>
    rw [Table.get?_set] at read
    split at read
    · rename_i same
      subst same
      obtain rfl := Option.some.inj read
      exact Or.inr ⟨isLive, rfl, file, outstanding, rfl⟩
    · exact Or.inl (.member read isLive outstanding)

theorem of_shrunk {package : String} {unit changed : PackageUnit}
    (waits : graph.Waits (units.set package changed) u v)
    (known : units.get? package = some unit)
    (live : changed.isLive = true → unit.isLive = true)
    (fewer : ∀ file ∈ changed.outstanding, file ∈ unit.outstanding) : graph.Waits units u v := by
  rcases waits.of_set known live with old | ⟨isLive, rfl, file, outstanding, rfl⟩
  · exact old
  · exact .member known (live isLive) (fewer file outstanding)

end ImportGraph.Waits

namespace ImportDesk.Acyclic

variable {desk : ImportDesk}

theorem empty : Acyclic {} := by
  intro unit cycle
  obtain ⟨_, waits, _⟩ := TransGen.head'_iff.mp cycle
  cases waits with
  | imports recorded => simp at recorded
  | member known => simp at known

theorem shrink (acyclic : desk.Acyclic) {package : String} {unit : PackageUnit}
    (known : desk.units.get? package = some unit) {changed : PackageUnit}
    (live : changed.isLive = true → unit.isLive = true)
    (fewer : ∀ file ∈ changed.outstanding, file ∈ unit.outstanding) :
    Acyclic { desk with units := desk.units.set package changed } :=
  fun u cycle => acyclic u (TransGen.mono (fun _ _ waits => waits.of_shrunk known live fewer) _ _ cycle)

theorem follow (acyclic : desk.Acyclic) {request : ImportRequest} {unit : PackageUnit}
    (known : desk.units.get? request.package = some unit)
    (safe : desk.importCycle request = none) (address : Address) :
    Acyclic { desk with
      units := desk.units.set request.package (unit.subscribe address).1
      graph := desk.graph.record request.fromFile request.package } := by
  refine acyclic_of_edges_from (a := .file request.fromFile) acyclic ?_
  intro u v waits
  rcases waits.of_record with old | ⟨rfl, rfl⟩
  · exact Or.inl (old.of_shrunk known (by simp [unit.isLive_subscribe]) fun _ => id)
  · exact Or.inr ⟨rfl, not_reaches_of_importCycle safe⟩

theorem search (acyclic : desk.Acyclic) {file package : String} {subscribers : List Address}
    (unknown : desk.units.get? package = none)
    (recorded : ∀ {file other}, (file, other) ∈ desk.graph.imports →
      ∃ unit, desk.units.get? other = some unit) :
    Acyclic { desk with
      units := desk.units.set package { name := package, audience := .waiting subscribers }
      graph := desk.graph.record file package } := by
  -- A package without a unit waits for nothing, so no search for a cycle is needed.
  have deadEnd : ¬ ReflTransGen desk.Waits (.package package) (.file file) := by
    intro reached
    rcases ReflTransGen.cases_head reached with same | ⟨_, waits, _⟩
    · simp at same
    · cases waits with
      | member known => simp [unknown] at known
  refine acyclic_of_edges_from (a := .file file) acyclic ?_
  intro u v waits
  rcases waits.of_record with old | ⟨rfl, rfl⟩
  · left
    cases old with
    | imports edge read live =>
      rw [Table.get?_set] at read
      split at read
      · rename_i same
        obtain ⟨unit, known⟩ := recorded edge
        simp [same, unknown] at known
      · exact .imports edge read live
    | member read live outstanding =>
      rw [Table.get?_set] at read
      split at read
      · obtain rfl := Option.some.inj read
        simp at outstanding
      · exact .member read live outstanding
  · exact Or.inr ⟨rfl, deadEnd⟩

theorem start (acyclic : desk.Acyclic) {package : String} {unit : PackageUnit}
    {files : List String} (known : desk.units.get? package = some unit) (fresh : unit.Fresh)
    (safe : desk.memberCycle package files = none) :
    Acyclic { desk with units := desk.units.set package (unit.start files).1 } := by
  refine acyclic_of_edges_from (a := .package package) acyclic ?_
  intro u v waits
  rcases waits.of_set known fun _ => fresh.live with old | ⟨_, rfl, file, outstanding, rfl⟩
  · exact Or.inl old
  · have member := fresh.mem_outstanding_of_start outstanding
    exact Or.inr ⟨rfl, not_reaches_of_memberCycle safe file member⟩

end ImportDesk.Acyclic

namespace PackageUnit

/-- A package that hears of a member waits for it no longer. -/
theorem Hears.not_mem {unit next : PackageUnit} {file : String} {outcome : Outcome}
    {deliveries : List Delivery} (hears : unit.Hears file outcome next deliveries)
    (live : next.isLive = true) : file ∉ next.outstanding := by
  cases hears with
  | ignore idle => exact idle.resolve_left (by simp [live])
  | record => simp
  | finish => simp

/-- The members that are asked for are those that are waited for, each once. -/
theorem Fresh.members_of_start {unit : PackageUnit} (fresh : unit.Fresh) (files : List String) :
    (unit.start files).1.members.Nodup ∧
      ∀ file ∈ (unit.start files).1.outstanding, file ∈ (unit.start files).1.members := by
  cases files with
  | nil =>
    obtain ⟨subscribers, isOpen⟩ := isLive_iff.mp fresh.live
    rw [start_nil fresh, complete_of_waiting unit isOpen]
    simp [fresh.members]
  | cons first rest =>
    obtain ⟨started, _⟩ := start_of_fresh fresh (List.cons_ne_nil first rest)
    exact ⟨started.unique, fun file waits =>
      (started.members file).mpr ((started.outstanding file).mp waits)⟩

end PackageUnit

namespace State

/-- All waiting is on record, and what is waited for has been asked for. -/
structure Covered (s : State) : Prop where
  acyclic : s.imports.Acyclic
  recorded : ∀ {package unit}, s.imports.units.get? package = some unit → ∀ file,
    .task file ∈ unit.audience.subscribers → (file, package) ∈ s.imports.graph.imports
  enlisted : ∀ {package unit}, s.imports.units.get? package = some unit → unit.isLive = true →
    ∀ file ∈ unit.outstanding, ∃ line, s.imports.pending.get? file = some line ∧ package ∈ line
  owed : ∀ {file line}, s.imports.pending.get? file = some line →
    line.length ≤ s.owed (.file file, .members)

namespace Covered

variable {frontend : Frontend} {s next : State} {event : Event}

theorem initial (keepGoing : Bool) : Covered { keepGoing } where
  acyclic := .empty
  recorded known := by simp at known
  enlisted known := by simp at known
  owed waiting := by simp at waiting

theorem acyclic_step (searched : s.Searched) (grounded : s.Grounded frontend)
    (covered : s.Covered) (step : s.Step event next) (alive : next.shutdown.owned = true) :
    next.imports.Acyclic := by
  have acyclic := covered.acyclic
  cases step with
  | follow read known live safe => exact acyclic.follow known safe _
  | @reuse request rest unit read known done =>
    exact acyclic.shrink known (by simp [unit.isLive_subscribe]) fun _ => id
  | search read unknown => exact acyclic.search unknown fun edge => (grounded.recorded edge).2
  | lost read known | knot read known =>
    exact acyclic.shrink known (by simp [PackageUnit.isLive_complete])
      fun _ => PackageUnit.mem_outstanding_of_complete
  | start read known found safe =>
    exact acyclic.start known (searched.fresh (by simp [searches, read]) known) safe
  | sever read known found safe released => simp [released] at alive
  | @hear index notice file package others unit read about waiting known =>
    have hears := unit.memberDone_hears file notice.outcome
    exact acyclic.shrink known (fun live => (hears.busy live).1) fun _ => hears.mem_outstanding
  | _ => exact acyclic

theorem recorded_step (grounded : s.Grounded frontend) (covered : s.Covered)
    (step : s.Step event next) (alive : next.shutdown.owned = true) :
    ∀ {package unit}, next.imports.units.get? package = some unit → ∀ file,
      .task file ∈ unit.audience.subscribers → (file, package) ∈ next.imports.graph.imports := by
  intro package unit
  have old := @covered.recorded
  have kept : ∀ (request : ImportRequest) {package unit},
      s.imports.units.get? package = some unit → ∀ file, .task file ∈ unit.audience.subscribers →
      (file, package) ∈ (s.imports.graph.record request.fromFile request.package).imports :=
    fun request _ _ known file member => ImportGraph.mem_record.mpr (Or.inr (old known file member))
  have added : ∀ {request rest file}, s.importRequests = request :: rest →
      .task file = request.replyTo →
      (file, request.package) ∈ (s.imports.graph.record request.fromFile request.package).imports := by
    intro request rest file read same
    rw [grounded.importer request (by simp [read])] at same
    exact ImportGraph.mem_record.mpr (Or.inl (by rw [Address.task.inj same]))
  cases step with
  | @follow request rest unit read known live safe =>
    obtain ⟨subscribers, isOpen⟩ := PackageUnit.isLive_iff.mp live
    refine Table.forall_set (kept request) ?_
    intro file member
    simp only [PackageUnit.subscribe, isOpen, Audience.subscribe, Audience.subscribers] at member
    rcases List.mem_append.mp member with earlier | new
    · exact kept request known file (by simpa [isOpen, Audience.subscribers] using earlier)
    · exact added read (List.mem_singleton.mp new)
  | @reuse request rest unit read known done =>
    obtain ⟨outcome, answered⟩ := PackageUnit.isLive_eq_false.mp done
    refine Table.forall_set old ?_
    intro file member
    simp [PackageUnit.subscribe, answered, Audience.subscribe, Audience.subscribers] at member
  | @search request rest read unknown running =>
    refine Table.forall_set (kept request) ?_
    intro file member
    exact added read (List.mem_singleton.mp member)
  | @lost located rest unit fault read known =>
    exact Table.forall_set old fun file member => old known file
      ((unit.complete_change _).mem_subscribers member)
  | @knot located rest unit files cycle read known =>
    exact Table.forall_set old fun file member => old known file
      ((unit.complete_change _).mem_subscribers member)
  | @start located rest unit files read known found safe =>
    exact Table.forall_set old fun file member => old known file
      ((unit.start_change _).mem_subscribers member)
  | sever read known found safe released => simp [released] at alive
  | @hear index notice file package others unit read about waiting known =>
    exact Table.forall_set old fun name member => old known name
      ((unit.memberDone_hears file _).change.mem_subscribers member)
  | _ => exact old

theorem enlisted_step (searched : s.Searched) (covered : s.Covered) (step : s.Step event next)
    (alive : next.shutdown.owned = true) :
    ∀ {package unit}, next.imports.units.get? package = some unit → unit.isLive = true →
      ∀ file ∈ unit.outstanding,
        ∃ line, next.imports.pending.get? file = some line ∧ package ∈ line := by
  intro package unit
  have old := @covered.enlisted
  cases step with
  | @follow request rest unit read known live safe | @reuse request rest unit read known done =>
    refine Table.forall_set old ?_
    intro live file waits
    exact old known (by rwa [unit.isLive_subscribe] at live) file waits
  | search => exact Table.forall_set old (by simp)
  | lost | knot => exact Table.forall_set old (by simp [PackageUnit.isLive_complete])
  | @start located rest unit files read known found safe =>
    have fresh := searched.fresh (by simp [searches, read]) known
    obtain ⟨unique, asked⟩ := fresh.members_of_start (files.map Path.normalize)
    simp only [ImportDesk.get?_enroll unique]
    intro held live file waits
    rw [Table.get?_set] at held
    split at held
    · rename_i same
      subst same
      obtain rfl := Option.some.inj held
      rw [if_pos (asked file waits)]
      exact ⟨_, rfl, List.mem_append_right _ (List.mem_singleton_self _)⟩
    · obtain ⟨line, waiting, member⟩ := old held live file waits
      rw [waiting]
      split
      · exact ⟨line ++ [located.lookup.package], rfl, List.mem_append_left _ member⟩
      · exact ⟨line, rfl, member⟩
  | sever read known found safe released => simp [released] at alive
  | @hear index notice file package others unit read about waiting known =>
    have hears := unit.memberDone_hears file notice.outcome
    -- Only the line of the file gets shorter, and only by the package that hears of it.
    have away : ∀ {other : String}, other ≠ file → ∀ {package},
        (∃ line, s.imports.pending.get? other = some line ∧ package ∈ line) →
        ∃ line, (if others = [] then s.imports.pending.erase file
          else s.imports.pending.set file others).get? other = some line ∧ package ∈ line := by
      rintro other away package ⟨line, waiting, member⟩
      refine ⟨line, ?_, member⟩
      split <;> simp [away, waiting]
    intro held live other waits
    rw [Table.get?_set] at held
    split at held
    · rename_i same
      subst same
      obtain rfl := Option.some.inj held
      have earlier := old known (hears.busy live).1 other (hears.mem_outstanding waits)
      refine away (fun same => ?_) earlier
      rw [same] at waits
      exact hears.not_mem live waits
    · rename_i apart
      have earlier := old held live other waits
      by_cases this : other = file
      · subst this
        obtain ⟨line, again, member⟩ := earlier
        obtain rfl := Option.some.inj (waiting.symm.trans again)
        have member := (List.mem_cons.mp member).resolve_left apart
        refine ⟨others, ?_, member⟩
        rw [if_neg (List.ne_nil_of_mem member)]
        simp
      · exact away this earlier
  | _ => exact old

theorem owed_step (tidy : s.Tidy) (searched : s.Searched) (covered : s.Covered)
    (step : s.Step event next) (alive : next.shutdown.owned = true) :
    ∀ {file line}, next.imports.pending.get? file = some line →
      line.length ≤ next.owed (.file file, .members) := by
  intro file line
  have grown := step.owed_of_unread tidy (.file file, .members)
  have shrunk := step.owed_of_read tidy
  have kept : (∀ delivery, s.read? event = some delivery →
      delivery.question ≠ (.file file, .members)) →
      s.imports.pending.get? file = some line → line.length ≤ next.owed (.file file, .members) := by
    intro unread waiting
    have before := covered.owed waiting
    rw [grown unread]
    omega
  cases step with
  | @start located rest unit files read known found safe =>
    have fresh := searched.fresh (by simp [searches, read]) known
    obtain ⟨unique, _⟩ := fresh.members_of_start (files.map Path.normalize)
    intro waiting
    simp only [ImportDesk.get?_enroll unique] at waiting
    split at waiting
    · rename_i member
      obtain rfl := Option.some.inj waiting
      rw [grown (by simp [read?]), List.length_append, List.length_singleton]
      refine Nat.add_le_add ?_ (List.count_pos_iff.mpr ?_)
      · cases before : s.imports.pending.get? file with
        | none => simp
        | some line => exact covered.owed before
      · simp [issued, CompileRequest.question, member]
    · exact kept (by simp [read?]) waiting
  | sever read known found safe released => simp [released] at alive
  | @hear index notice about package others unit read isAbout waiting known =>
    intro held
    by_cases this : file = about
    · subst this
      have before := covered.owed waiting
      have answered := shrunk _ read
      obtain rfl : line = others := by
        split at held
        · simp at held
        · simpa using held.symm
      have asked : Delivery.question ⟨.members, notice⟩ = (.file file, .members) := Prod.ext isAbout rfl
      rw [asked] at answered
      rw [List.length_cons] at before
      omega
    · refine kept (fun other again same => ?_) (by split at held <;> simpa [this] using held)
      obtain rfl := Option.some.inj (read.symm.trans again)
      rw [Delivery.question, isAbout] at same
      exact this (UnitName.file.inj (Prod.mk.inj same).1).symm
  | @drop index delivery read unread =>
    intro waiting
    refine kept (fun other again same => ?_) waiting
    obtain rfl := Option.some.inj (read.symm.trans again)
    obtain ⟨about, address⟩ := Prod.mk.inj same
    rw [Unread, address] at unread
    simp [unread file about] at waiting
  | relay read | accept read =>
    refine kept (fun other again same => ?_)
    obtain rfl := Option.some.inj (read.symm.trans again)
    simp [Delivery.question] at same
  | _ => exact kept (by simp [read?])

theorem step (tidy : s.Tidy) (searched : s.Searched) (grounded : s.Grounded frontend)
    (covered : s.Covered) (step : s.Step event next) (alive : next.shutdown.owned = true) :
    next.Covered where
  acyclic := covered.acyclic_step searched grounded step alive
  recorded := covered.recorded_step grounded step alive
  enlisted := covered.enlisted_step searched step alive
  owed := covered.owed_step tidy searched step alive

end Covered

theorem Step.owned {s next : State} {event : Event} (step : s.Step event next)
    (alive : next.shutdown.owned = true) : s.shutdown.owned = true := by
  cases step with
  | release => simp at alive
  | _ => exact alive

end State

theorem Run.covered {frontend : Frontend} {keepGoing : Bool} {trace : Trace} {s : State}
    (run : Run frontend keepGoing trace s) (alive : s.shutdown.owned = true) : s.Covered := by
  induction run with
  | start => exact .initial keepGoing
  | step earlier _ taken ih =>
    have step := State.step_of_tidy earlier.tidy taken
    exact (ih (step.owned alive)).step earlier.tidy earlier.searched earlier.grounded step alive

end GoFront.Build
