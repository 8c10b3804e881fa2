import GoFront.Proofs.Build.Provenance

/-!
Success is never reported over a failure. A unit that is complete with success has everything it
needs complete with success, whatever was lost, refused or stopped on the way.
-/
namespace GoFront.Build
open Relation

/-! ### Units -/

/-- The work on a file leaves no import out, where `ok` are the units known to be good. -/
structure FileUnit.Sound (ok : UnitName → Prop) (unit : FileUnit) : Prop where
  unparsed : unit.parsed = none → unit.waitingOn = [] ∧ unit.audience.outcome? ≠ some .ok
  imports : ∀ parsed, unit.parsed = some parsed → ∀ package ∈ parsed.file.importPaths,
    package ∈ unit.waitingOn ∨ ok (.package package) ∨
      ∃ failure, unit.audience.outcome? = some (.failed failure)
  done : unit.audience.outcome? = some .ok → unit.waitingOn = []

namespace FileUnit.Sound

variable {ok later : UnitName → Prop} {unit next : FileUnit}

theorem mono (sound : unit.Sound ok) (keeps : ∀ name, ok name → later name) : unit.Sound later :=
  { sound with
    imports := fun parsed parse package imported =>
      (sound.imports parsed parse package imported).imp id (Or.imp (keeps _) id) }

theorem subscribe (sound : unit.Sound ok) (address : Address) :
    (unit.subscribe address).1.Sound ok := by
  have same : (unit.subscribe address).1.audience.outcome? = unit.audience.outcome? :=
    Audience.outcome?_subscribe _ _ _
  exact ⟨same ▸ sound.unparsed, same ▸ sound.imports, same ▸ sound.done⟩

theorem heed (sound : unit.Sound ok) {report : Report} {deliveries : List Delivery}
    (heeds : unit.Heeds report next deliveries)
    (told : ∀ file notice, report = .importResolved file notice → notice.outcome = .ok →
      ok (.package notice.unit.name)) : next.Sound ok := by
  have parsed : ∀ {package : String}, package ∈ unit.waitingOn → unit.parsed ≠ none := by
    intro package waits unparsed
    simp [(sound.unparsed unparsed).1] at waits
  cases heeds with
  | ignore => exact sound
  | @wait _ parse isOpen unparsed imports =>
    refine ⟨by simp, ?_, ?_⟩
    · intro again same package imported
      obtain rfl := Option.some.inj same
      exact Or.inl (Names.mem_ofList.mpr (ParsedFile.mem_imports.mpr imported))
    · intro answered
      obtain ⟨subscribers, isOpen⟩ := Audience.isAnswered_eq_false isOpen
      simp [isOpen, Audience.outcome?] at answered
  | @finish _ parse _ isOpen unparsed imports =>
    refine ⟨by simp, ?_, fun _ => rfl⟩
    intro again same package imported
    obtain rfl := Option.some.inj same
    simp [← ParsedFile.mem_imports, imports] at imported
  | @fail _ failure _ isOpen =>
    refine ⟨fun _ => ⟨rfl, by simp [Audience.outcome?]⟩, ?_, fun _ => rfl⟩
    exact fun _ _ _ _ => Or.inr (Or.inr ⟨failure, rfl⟩)
  | @importFailed _ notice _ isOpen awaited failed =>
    refine ⟨fun unparsed => (parsed awaited unparsed).elim, ?_, fun _ => rfl⟩
    cases outcome : notice.outcome with
    | ok => simp [outcome, Outcome.isFailed] at failed
    | failed failure => exact fun _ _ _ _ => Or.inr (Or.inr ⟨failure, rfl⟩)
  | @importsDone file notice subscribers isOpen awaited good last =>
    refine ⟨fun unparsed => (parsed awaited unparsed).elim, ?_, fun _ => rfl⟩
    intro parse same package imported
    rcases sound.imports parse same package imported with waits | good | ⟨failure, failed⟩
    · -- The file waited for this package alone, and the notice says that it is good.
      rw [last package waits]
      exact Or.inr (Or.inl (told file notice rfl good))
    · exact Or.inr (Or.inl good)
    · simp [isOpen, Audience.outcome?] at failed
  | @importDone file notice isOpen awaited good more =>
    obtain ⟨subscribers, isOpen⟩ := Audience.isAnswered_eq_false isOpen
    refine ⟨fun unparsed => (parsed awaited unparsed).elim, ?_, by simp [isOpen, Audience.outcome?]⟩
    intro parse same package imported
    by_cases this : package = notice.unit.name
    · exact Or.inr (Or.inl (this ▸ told file notice rfl good))
    · refine (sound.imports parse same package imported).imp (fun waits => ?_) id
      exact List.mem_filter.mpr ⟨waits, by simpa using this⟩

theorem imports_ok (sound : unit.Sound ok) {frontend : Frontend} {file : String}
    (parses : ∀ parsed, unit.parsed = some parsed → frontend.prepare file = .ok parsed)
    (good : unit.audience.outcome? = some .ok) :
    ∃ parsed, frontend.prepare file = .ok parsed ∧
      ∀ package ∈ parsed.file.importPaths, ok (.package package) := by
  cases parse : unit.parsed with
  | none => exact ((sound.unparsed parse).2 good).elim
  | some parsed =>
    refine ⟨parsed, parses parsed parse, fun package imported => ?_⟩
    rcases sound.imports parsed parse package imported with waits | known | ⟨failure, failed⟩
    · simp [sound.done good] at waits
    · exact known
    · simp [good] at failed

end FileUnit.Sound

/-- The work on a package leaves no member out, where `ok` are the units known to be good. -/
structure PackageUnit.Sound (frontend : Frontend) (ok : UnitName → Prop) (package : String)
    (unit : PackageUnit) : Prop where
  members : unit.firstFailure ≠ none ∨ (∃ failure, unit.audience.outcome? = some (.failed failure)) ∨
    ∃ files, frontend.locate package = .ok files ∧
      (∀ file, file ∈ unit.members ↔ file ∈ files.map Path.normalize) ∧
      ∀ file ∈ unit.members, file ∈ unit.outstanding ∨ ok (.file file)
  done : unit.audience.outcome? = some .ok → unit.outstanding = [] ∧ unit.firstFailure = none

namespace PackageUnit.Sound

variable {frontend : Frontend} {ok later : UnitName → Prop} {package : String}
  {unit next : PackageUnit}

theorem mono (sound : unit.Sound frontend ok package) (keeps : ∀ name, ok name → later name) :
    unit.Sound frontend later package := by
  refine ⟨sound.members.imp id (Or.imp id ?_), sound.done⟩
  rintro ⟨files, located, listed, reported⟩
  exact ⟨files, located, listed, fun file member => (reported file member).imp id (keeps _)⟩

theorem subscribe (sound : unit.Sound frontend ok package) (address : Address) :
    (unit.subscribe address).1.Sound frontend ok package := by
  have same : (unit.subscribe address).1.audience.outcome? = unit.audience.outcome? :=
    Audience.outcome?_subscribe _ _ _
  exact ⟨same ▸ sound.members, same ▸ sound.done⟩

theorem hear (sound : unit.Sound frontend ok package) {file : String} {outcome : Outcome}
    {deliveries : List Delivery} (hears : unit.Hears file outcome next deliveries)
    (told : outcome = .ok → ok (.file file)) : next.Sound frontend ok package := by
  cases hears with
  | ignore => exact sound
  | record live member more =>
    obtain ⟨subscribers, isOpen⟩ := isLive_iff.mp live
    refine ⟨?_, by simp [isOpen, Audience.outcome?]⟩
    by_cases clean : unit.firstFailure.or outcome.failure? = none
    · obtain ⟨noFailure, good⟩ := Option.or_eq_none_iff.mp clean
      rcases sound.members with failed | failed | ⟨files, located, listed, reported⟩
      · exact (failed noFailure).elim
      · exact Or.inr (Or.inl failed)
      · refine Or.inr (Or.inr ⟨files, located, listed, fun other isMember => ?_⟩)
        by_cases this : other = file
        · exact Or.inr (this ▸ told (Outcome.failure?_eq_none.mp good))
        · exact (reported other isMember).imp
            (fun waits => List.mem_filter.mpr ⟨waits, by simpa using this⟩) id
    · exact Or.inl clean
  | finish isOpen member last =>
    cases clean : unit.firstFailure.or outcome.failure? with
    | some failure => exact ⟨Or.inr (Or.inl ⟨failure, rfl⟩), by simp [Audience.outcome?, Outcome.ofFailure?]⟩
    | none =>
      refine ⟨?_, fun _ => ⟨rfl, rfl⟩⟩
      obtain ⟨noFailure, good⟩ := Option.or_eq_none_iff.mp clean
      rcases sound.members with failed | ⟨failure, failed⟩ | ⟨files, located, listed, reported⟩
      · exact (failed noFailure).elim
      · simp [isOpen, Audience.outcome?] at failed
      · refine Or.inr (Or.inr ⟨files, located, listed, fun other isMember => Or.inr ?_⟩)
        rcases reported other isMember with waits | known
        · exact last other waits ▸ told (Outcome.failure?_eq_none.mp good)
        · exact known

theorem memberDone (kept : unit.Fresh ∨ unit.Sound frontend ok package) {file : String}
    {outcome : Outcome} (told : outcome = .ok → ok (.file file)) :
    (unit.memberDone file outcome).1.Fresh ∨
      (unit.memberDone file outcome).1.Sound frontend ok package := by
  rcases kept with fresh | sound
  · exact Or.inl ((fresh.memberDone file outcome).symm ▸ fresh)
  · exact Or.inr (sound.hear (unit.memberDone_hears file outcome) told)

theorem of_failed {subscribers : List Address} (isOpen : unit.audience = .waiting subscribers)
    (failure : Failure) : (unit.complete (.failed failure)).1.Sound frontend ok package := by
  rw [complete_of_waiting unit isOpen]
  exact ⟨Or.inr (Or.inl ⟨failure, rfl⟩), by simp [Audience.outcome?]⟩

theorem of_start (fresh : unit.Fresh) {files : List String}
    (located : frontend.locate package = .ok files) :
    (unit.start (files.map Path.normalize)).1.Sound frontend ok package := by
  obtain ⟨subscribers, isOpen⟩ := isLive_iff.mp fresh.live
  by_cases empty : files.map Path.normalize = []
  · rw [empty, start_nil fresh, complete_of_waiting unit isOpen]
    refine ⟨Or.inr (Or.inr ⟨files, located, ?_, ?_⟩), fun _ => ⟨rfl, fresh.firstFailure⟩⟩
    · simp [empty, fresh.members]
    · simp [fresh.members]
  · obtain ⟨started, _⟩ := start_of_fresh fresh empty
    refine ⟨Or.inr (Or.inr ⟨files, located, started.members, ?_⟩), ?_⟩
    · exact fun file member => Or.inl ((started.outstanding file).mpr ((started.members file).mp member))
    · simp [started.audience, isOpen, Audience.outcome?]

theorem members_ok (kept : unit.Fresh ∨ unit.Sound frontend ok package)
    (good : unit.audience.outcome? = some .ok) :
    ∃ files, frontend.locate package = .ok files ∧
      (∀ file, file ∈ unit.members ↔ file ∈ files.map Path.normalize) ∧
      ∀ file ∈ unit.members, ok (.file file) := by
  rcases kept with fresh | sound
  · obtain ⟨subscribers, isOpen⟩ := isLive_iff.mp fresh.live
    simp [isOpen, Audience.outcome?] at good
  · obtain ⟨reported, clean⟩ := sound.done good
    rcases sound.members with failed | ⟨failure, failed⟩ | ⟨files, located, listed, members⟩
    · exact (failed clean).elim
    · simp [good] at failed
    · refine ⟨files, located, listed, fun file member => ?_⟩
      rcases members file member with waits | known
      · simp [reported] at waits
      · exact known

end PackageUnit.Sound

/-! ### States -/

namespace State

/-- The unit is complete with success. -/
def Ok (s : State) (unit : UnitName) : Prop := s.outcome? unit = some .ok

/-- Good news is true and no unit leaves out what it needs. -/
structure Sound (frontend : Frontend) (s : State) : Prop where
  mail : ∀ delivery ∈ s.mail, delivery.notice.outcome = .ok → s.Ok delivery.notice.unit
  reports : ∀ file notice, .importResolved file notice ∈ s.reports → notice.outcome = .ok →
    s.Ok notice.unit
  files : ∀ {file unit}, s.files.units.get? file = some unit → unit.Sound s.Ok
  packages : ∀ {package unit}, s.imports.units.get? package = some unit →
    unit.Fresh ∨ unit.Sound frontend s.Ok package

variable {frontend : Frontend} {s next : State} {event : Event}

theorem Step.ok (tidy : s.Tidy) (step : s.Step event next) : ∀ unit, s.Ok unit → next.Ok unit :=
  fun _ ok => step.outcome?_eq tidy ok

theorem mem_mail_of_unread {delivery : Delivery} (member : delivery ∈ s.unread event) :
    delivery ∈ s.mail := by
  cases event with
  | receive index => exact List.mem_of_mem_eraseIdx member
  | _ => exact member

namespace Sound

theorem initial (keepGoing : Bool) : Sound frontend { keepGoing } where
  mail delivery member := by simp at member
  reports file notice member := by simp at member
  files known := by simp at known
  packages known := by simp at known

theorem mail_step (tidy : s.Tidy) (sound : s.Sound frontend) (step : s.Step event next) :
    ∀ delivery ∈ next.mail, delivery.notice.outcome = .ok → next.Ok delivery.notice.unit := by
  obtain ⟨deliveries, talk, mail⟩ := step.talk tidy
  intro delivery member good
  rw [mail] at member
  rcases List.mem_append.mp member with old | new
  · exact step.ok tidy _ (sound.mail delivery (mem_mail_of_unread old) good)
  · exact talk.tells_ok delivery new good

theorem reports_step (tidy : s.Tidy) (sound : s.Sound frontend) (step : s.Step event next) :
    ∀ file notice, .importResolved file notice ∈ next.reports → notice.outcome = .ok →
      next.Ok notice.unit := by
  intro file notice member good
  apply step.ok tidy
  cases step.reported _ member with
  | before old => exact sound.reports file notice old good
  | gaveUp => simp [Notice.cancelled, Notice.failed] at good
  | relayed read => exact sound.mail _ read good

theorem files_step (grounded : s.Grounded frontend) (sound : s.Sound frontend)
    (step : s.Step event next) :
    ∀ {file unit}, next.files.units.get? file = some unit → unit.Sound s.Ok := by
  intro file unit
  cases step with
  | join read known => exact Table.forall_set sound.files ((sound.files known).subscribe _)
  | enlist => exact Table.forall_set sound.files ⟨by simp [Audience.outcome?], by simp, by simp⟩
  | @heed report rest unit read known =>
    refine Table.forall_set sound.files ((sound.files known).heed (unit.heed_heeds report) ?_)
    rintro file notice rfl good
    have warranted := grounded.reports _ (read ▸ List.mem_cons_self)
    rw [warranted.package_name]
    exact sound.reports file notice (read ▸ List.mem_cons_self) good
  | _ => exact sound.files

theorem packages_step (searched : s.Searched) (grounded : s.Grounded frontend)
    (sound : s.Sound frontend) (step : s.Step event next) :
    ∀ {package unit}, next.imports.units.get? package = some unit →
      unit.Fresh ∨ unit.Sound frontend s.Ok package := by
  have old := @sound.packages
  intro package unit
  cases step with
  | follow read known | reuse read known =>
    exact Table.forall_set old ((old known).imp (·.subscribe _) (·.subscribe _))
  | search => exact Table.forall_set old (Or.inl ⟨rfl, rfl, rfl, rfl⟩)
  | lost read known | knot read known =>
    have fresh := searched.fresh (by simp [searches, read]) known
    obtain ⟨subscribers, isOpen⟩ := PackageUnit.isLive_iff.mp fresh.live
    exact Table.forall_set old (Or.inr (.of_failed isOpen _))
  | @start located rest unit files read known found =>
    have fresh := searched.fresh (by simp [searches, read]) known
    have answer := grounded.located located (by simp [read])
    exact Table.forall_set old (Or.inr (.of_start fresh (answer.symm.trans found)))
  | @sever located rest unit files desk deliveries read known found safe released severs =>
    have fresh := searched.fresh (by simp [searches, read]) known
    have answer := grounded.located located (by simp [read])
    refine severs.forall_units ?_
      (Table.forall_set old (Or.inr (.of_start fresh (answer.symm.trans found))))
    exact fun lost kept => PackageUnit.Sound.memberDone kept (by simp)
  | @hear index notice file package others unit read about waiting known =>
    refine Table.forall_set old (PackageUnit.Sound.memberDone (old known) fun good => ?_)
    exact about ▸ sound.mail _ (List.mem_of_getElem? read) good
  | _ => exact old

theorem step (tidy : s.Tidy) (searched : s.Searched) (grounded : s.Grounded frontend)
    (sound : s.Sound frontend) (step : s.Step event next) : next.Sound frontend where
  mail := sound.mail_step tidy step
  reports := sound.reports_step tidy step
  files known := (sound.files_step grounded step known).mono (step.ok tidy)
  packages known := (sound.packages_step searched grounded step known).imp id
    fun kept => kept.mono (step.ok tidy)

end Sound

theorem outcome?_file {file : String} {outcome : Outcome} :
    s.outcome? (.file file) = some outcome ↔
      ∃ unit, s.files.units.get? file = some unit ∧ unit.audience.outcome? = some outcome := by
  simp [outcome?, Audiences.outcome?, audience?, Option.bind_eq_some_iff]

theorem outcome?_package {package : String} {outcome : Outcome} :
    s.outcome? (.package package) = some outcome ↔
      ∃ unit, s.imports.units.get? package = some unit ∧ unit.audience.outcome? = some outcome := by
  simp [outcome?, Audiences.outcome?, audience?, Option.bind_eq_some_iff]

/-- A unit that is complete with success is whole, and all it needs was good before. -/
theorem needs_of_ok {ok : UnitName → Prop} (grounded : s.Grounded frontend)
    (files : ∀ {file unit}, s.files.units.get? file = some unit → unit.Sound ok)
    (packages : ∀ {package unit}, s.imports.units.get? package = some unit →
      unit.Fresh ∨ unit.Sound frontend ok package) {unit : UnitName} (good : s.Ok unit) :
    ¬ frontend.Broken unit ∧ ∀ other, frontend.Needs unit other → ok other := by
  cases unit with
  | file file =>
    obtain ⟨unit, known, good⟩ := outcome?_file.mp good
    obtain ⟨parsed, prepared, imports⟩ := (files known).imports_ok (grounded.parsed known) good
    constructor
    · intro broken
      cases broken with
      | file failed => simp [prepared] at failed
    · intro other needed
      cases needed with
      | imports again imported =>
        obtain rfl := Except.ok.inj (prepared.symm.trans again)
        exact imports _ imported
  | package package =>
    obtain ⟨unit, known, good⟩ := outcome?_package.mp good
    obtain ⟨files, located, listed, members⟩ := PackageUnit.Sound.members_ok (packages known) good
    constructor
    · intro broken
      cases broken with
      | package failed => simp [located] at failed
    · intro other needed
      cases needed with
      | member again member =>
        obtain rfl := Except.ok.inj (located.symm.trans again)
        exact members _ ((listed _).mpr member)

end State

/-! ### Calls -/

/-- The call leaves none of its files out, where `ok` are the units known to be good. -/
structure CompileCall.Sound (ok : UnitName → Prop) (names : List String) (call : CompileCall) :
    Prop where
  files : ∀ name ∈ names, Path.normalize name ∈ call.waiting ∨ call.failure ≠ none ∨
    ok (.file (Path.normalize name))
  done : call.result = some .ok → call.waiting = [] ∧ call.failure = none

namespace CompileCall.Sound

variable {ok later : UnitName → Prop} {names : List String} {call : CompileCall}

theorem start (names : List String) : (CompileCall.start names).Sound ok names where
  files name member := by
    refine Or.inl (Names.mem_distinct.mpr ?_)
    exact List.mem_map_of_mem member
  done ended := by
    simp only [CompileCall.start] at ended ⊢
    split at ended
    · rename_i empty
      exact ⟨empty, trivial⟩
    · simp at ended

theorem mono (sound : call.Sound ok names) (keeps : ∀ name, ok name → later name) :
    call.Sound later names :=
  { sound with
    files := fun name member => (sound.files name member).imp id (Or.imp id (keeps _)) }

theorem accept (sound : call.Sound ok names) {notice : Notice} {next : CompileCall}
    (accepts : call.Accepts notice next) (told : notice.outcome = .ok → ok notice.unit) :
    next.Sound ok names := by
  -- A file that the notice is about is off the list, and good unless the call has failed.
  have reported : ∀ {name : String}, notice.unit = .file name → ∀ other ∈ names,
      Path.normalize other ∈ call.waiting.filter (· ≠ name) ∨ call.blame notice.outcome ≠ none ∨
        ok (.file (Path.normalize other)) := by
    intro name about other member
    by_cases clean : call.blame notice.outcome = none
    · obtain ⟨noFailure, good⟩ := CompileCall.blame_eq_none.mp clean
      by_cases this : Path.normalize other = name
      · exact Or.inr (Or.inr (this ▸ about ▸ told good))
      · rcases sound.files other member with waits | failed | known
        · exact Or.inl (List.mem_filter.mpr ⟨waits, by simpa using this⟩)
        · exact (failed noFailure).elim
        · exact Or.inr (Or.inr known)
    · exact Or.inr (Or.inl clean)
  cases accepts with
  | ignore => exact sound
  | record about awaited more => exact ⟨reported about, by simp⟩
  | @finish name about awaited last =>
    have empty : call.waiting.filter (· ≠ name) = [] := by
      simpa [List.filter_eq_nil_iff] using last
    refine ⟨empty ▸ reported about, ?_⟩
    intro ended
    cases clean : call.blame notice.outcome with
    | none => exact ⟨rfl, rfl⟩
    | some failure => simp [clean, Outcome.ofFailure?] at ended

end CompileCall.Sound

/-- A call that was begun is there and stays sound. -/
theorem State.Step.call_sound {frontend : Frontend} {s next : State} {event : Event}
    {names : List String} {number : Nat} (tidy : s.Tidy) (sound : s.Sound frontend)
    (step : s.Step event next)
    (kept : ∃ call, s.calls[number]? = some call ∧ call.Sound s.Ok names) :
    ∃ call, next.calls[number]? = some call ∧ call.Sound next.Ok names := by
  suffices later : ∃ call, next.calls[number]? = some call ∧ call.Sound s.Ok names by
    obtain ⟨call, read, kept⟩ := later
    exact ⟨call, read, kept.mono (step.ok tidy)⟩
  obtain ⟨call, known, kept⟩ := kept
  have inside := (List.getElem?_eq_some_iff.mp known).1
  cases step with
  | call names => exact ⟨call, (List.getElem?_append_left inside).trans known, kept⟩
  | @send other changed file rest read unsent =>
    by_cases same : other = number
    · subst same
      obtain rfl := Option.some.inj (known.symm.trans read)
      exact ⟨_, List.getElem?_set_self inside, { kept with }⟩
    · exact ⟨call, (List.getElem?_set_ne same).trans known, kept⟩
  | @accept index other notice changed read reader sent waiting =>
    by_cases same : other = number
    · subst same
      obtain rfl := Option.some.inj (known.symm.trans reader)
      have told := sound.mail _ (List.mem_of_getElem? read)
      exact ⟨_, List.getElem?_set_self inside, kept.accept (call.accept_accepts notice) told⟩
    · exact ⟨call, (List.getElem?_set_ne same).trans known, kept⟩
  | _ => exact ⟨call, known, kept⟩

/-- A file that can be compiled, and one that needs a package that is nowhere. -/
def shop : Frontend :=
  .ofMemory [("main.go", "package main\nimport \"p\"\n"), ("p.go", "package p\n"),
      ("bad.go", "package bad\nimport (\n\"p\"\n\"q\"\n)\n")] [("p", ["./p.go"])]

/-- A call for each of the two files, the second at work before the first. -/
def shopEvents : List Event :=
  [.call ["./main.go"], .call ["bad.go"], .send 0, .send 1, .compile 0, .compile 0,
    shop.perform (.parse "bad.go"), .report, .ask "bad.go", .ask "bad.go", .resolve, .resolve,
    shop.perform (.locate "p"), .located, .compile 0, shop.perform (.locate "q"), .located,
    .receive 0, .report, .receive 0, shop.perform (.parse "main.go"), .report, .ask "main.go",
    .resolve, shop.perform (.parse "p.go"), .report, .receive 0, .receive 0, .receive 0, .report,
    .receive 0]

theorem obeys_shopEvents : ∀ event ∈ shopEvents, event.Obeys shop := by
  simp [shopEvents, Event.Obeys, Frontend.perform]

namespace Run

variable {frontend : Frontend} {keepGoing : Bool} {trace : Trace} {s : State}

theorem sound (run : Run frontend keepGoing trace s) : s.Sound frontend :=
  run.invariant (.initial keepGoing) fun earlier sound _ step =>
    sound.step earlier.tidy earlier.searched earlier.grounded step

theorem ok_needs (run : Run frontend keepGoing trace s) {unit other : UnitName}
    (good : s.Ok unit) (needed : frontend.Needs unit other) : s.Ok other :=
  (State.needs_of_ok run.grounded run.sound.files run.sound.packages good).2 other needed

theorem ok_reaches (run : Run frontend keepGoing trace s) {unit other : UnitName}
    (good : s.Ok unit) (reached : ReflTransGen frontend.Needs unit other) : s.Ok other := by
  induction reached with
  | refl => exact good
  | tail _ needed ih => exact run.ok_needs ih needed

/-- Success is deserved. In the step in which a unit becomes good, all it needs is good already. -/
theorem good_of_ok (run : Run frontend keepGoing trace s) {unit : UnitName} (good : s.Ok unit) :
    frontend.Good unit := by
  induction run generalizing unit with
  | start =>
    cases unit <;> simp [State.Ok, State.outcome?, Audiences.outcome?, State.audience?] at good
  | step earlier obeys taken ih =>
    have step := State.step_of_tidy earlier.tidy taken
    have grounded := earlier.grounded
    obtain ⟨whole, needs⟩ := State.needs_of_ok
      (grounded.step earlier.tidy earlier.searched obeys step)
      (earlier.sound.files_step grounded step)
      (earlier.sound.packages_step earlier.searched grounded step) good
    exact .of_needs whole fun other needed => ih (needs other needed)

theorem call_sound (run : Run frontend keepGoing trace s) {before : State} {names : List String}
    (begun : (before, .call names) ∈ trace) :
    ∃ call, s.calls[before.calls.length]? = some call ∧ call.Sound s.Ok names := by
  induction run with
  | start => simp at begun
  | step earlier obeys taken ih =>
    have step := State.step_of_tidy earlier.tidy taken
    rcases List.mem_append.mp begun with old | new
    · exact step.call_sound earlier.tidy earlier.sound (ih old)
    · obtain ⟨rfl, rfl⟩ := Prod.mk.inj (List.mem_singleton.mp new)
      obtain rfl := Option.some.inj taken
      exact ⟨.start names, by simp, .start names⟩

theorem member_ok (run : Run frontend keepGoing trace s) {package : String} {unit : PackageUnit}
    (known : s.imports.units.get? package = some unit)
    (good : unit.audience.outcome? = some .ok) :
    ∃ files, frontend.locate package = .ok files ∧
      (∀ file, file ∈ unit.members ↔ file ∈ files.map Path.normalize) ∧
      ∀ file ∈ unit.members, s.Ok (.file file) :=
  PackageUnit.Sound.members_ok (run.sound.packages known) good

theorem import_ok (run : Run frontend keepGoing trace s) {file : String} {unit : FileUnit}
    (known : s.files.units.get? file = some unit) (good : unit.audience.outcome? = some .ok) :
    ∃ parsed, frontend.prepare file = .ok parsed ∧
      ∀ package ∈ parsed.file.importPaths, s.Ok (.package package) :=
  (run.sound.files known).imports_ok (run.grounded.parsed known) good

theorem call_ok (run : Run frontend keepGoing trace s) {before : State} {names : List String}
    {call : CompileCall} (begun : (before, .call names) ∈ trace)
    (returned : s.calls[before.calls.length]? = some call) (good : call.result = some .ok) :
    ∀ name ∈ names, s.Ok (.file (Path.normalize name)) := by
  obtain ⟨same, read, sound⟩ := run.call_sound begun
  obtain rfl := Option.some.inj (returned.symm.trans read)
  obtain ⟨nothing, noFailure⟩ := sound.done good
  intro name member
  rcases sound.files name member with waits | failed | known
  · simp [nothing] at waits
  · exact (failed noFailure).elim
  · exact known

/-- Success is never reported over a failure, in any state of any run: not for a package over its
members, not for a file over its imports, not for either over anything further down, and not for a
call over anything that its files need. -/
theorem no_success_over_failure (run : Run frontend keepGoing trace s) :
    (∀ package unit, s.imports.units.get? package = some unit →
      unit.audience.outcome? = some .ok → ∃ files, frontend.locate package = .ok files ∧
        (∀ file, file ∈ unit.members ↔ file ∈ files.map Path.normalize) ∧
        ∀ file ∈ unit.members, s.Ok (.file file)) ∧
    (∀ file unit, s.files.units.get? file = some unit → unit.audience.outcome? = some .ok →
      ∃ parsed, frontend.prepare file = .ok parsed ∧
        ∀ package ∈ parsed.file.importPaths, s.Ok (.package package)) ∧
    (∀ unit cause, ReflTransGen frontend.Needs unit cause →
      ¬ s.Ok cause ∨ frontend.Broken cause ∨ TransGen frontend.Needs cause cause → ¬ s.Ok unit) ∧
    ∀ before names call, (before, .call names) ∈ trace →
      s.calls[before.calls.length]? = some call → call.result = some .ok →
      ∀ name ∈ names, ∀ unit, ReflTransGen frontend.Needs (.file (Path.normalize name)) unit →
        s.Ok unit := by
  refine ⟨fun _ _ => run.member_ok, fun _ _ => run.import_ok, ?_, ?_⟩
  · intro unit cause reached reason good
    have deserved := (run.good_of_ok good).reaches reached
    rcases reason with bad | broken | cycle
    · exact bad (run.ok_reaches good reached)
    · exact deserved.not_broken broken
    · exact deserved.acyclic cycle
  · intro before names call begun returned good name member unit reached
    exact run.ok_reaches (run.call_ok begun returned good name member) reached

theorem no_success_over_failure_shop : ∃ more s,
    Run shop true (({ keepGoing := true }, .call ["./main.go"]) :: more) s ∧
    (∃ call, s.calls[0]? = some call ∧ call.result = some .ok) ∧ s.Ok (.file "p.go") ∧
    ¬ s.Ok (.package "q") ∧ ¬ s.Ok (.file "bad.go") := by
  have settles : State.settles { keepGoing := true } shopEvents (fun _ s =>
      (s.calls[0]?).any (·.result == some .ok) && s.outcome? (.package "q") != some .ok) = true := by
    decide +kernel
  obtain ⟨more, s, run, _, check⟩ := Run.of_settles obeys_shopEvents settles
  simp only [Bool.and_eq_true, Option.any_eq_true, beq_iff_eq, bne_iff_ne] at check
  obtain ⟨⟨call, returned, good⟩, missing⟩ := check
  obtain ⟨_, _, units, calls⟩ := no_success_over_failure run
  have path : ReflTransGen shop.Needs (.file (Path.normalize "./main.go")) (.file "p.go") :=
    .head (b := .package "p") (by decide +kernel) (.single (by decide +kernel))
  have needs : shop.Needs (.file "bad.go") (.package "q") := by decide +kernel
  exact ⟨more, s, run, ⟨call, returned, good⟩,
    calls _ _ call List.mem_cons_self returned good _ List.mem_cons_self _ path, missing,
    units _ _ (.single needs) (Or.inl missing)⟩

end Run

end GoFront.Build
