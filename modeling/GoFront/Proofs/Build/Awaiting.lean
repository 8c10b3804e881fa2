import GoFront.Proofs.Build.Provenance

/-!
Nobody waits in vain. A call waits for a file only while an answer is owed to it, a task waits for
exactly the packages that owe it an answer, and a file unit keeps up with its task: once the
reports on their way are handled it waits for what the task waits for.
-/
namespace GoFront.Build

namespace State

variable {frontend : Frontend} {s next : State} {event : Event}

/-! ### Calls -/

/-- A call that is not over waits for some file, and each such file is still to be asked for or
owes it an answer. -/
def CallServed (s : State) (number : Nat) (call : CompileCall) : Prop :=
  call.result = none → call.waiting ≠ [] ∧ ∀ file ∈ call.waiting,
    file ∈ call.unsent ∨ 0 < s.owed (.file file, .call number)

def CallsServed (s : State) : Prop :=
  ∀ {number : Nat} {call : CompileCall}, s.calls[number]? = some call → s.CallServed number call

theorem Step.owed_call {number : Nat} (tidy : s.Tidy) (step : s.Step event next) {file : String}
    (unread : ∀ delivery, s.read? event = some delivery →
      delivery.question ≠ (.file file, .call number))
    (owed : 0 < s.owed (.file file, .call number)) : 0 < next.owed (.file file, .call number) := by
  rw [step.owed_of_unread tidy _ unread]
  omega

theorem CallServed.start (number : Nat) (names : List String) :
    s.CallServed number (.start names) := by
  intro isOpen
  refine ⟨fun empty => ?_, fun file waits => Or.inl waits⟩
  simp only [CompileCall.start] at empty isOpen
  simp [empty] at isOpen

theorem CallServed.send {number : Nat} {call : CompileCall} {file : String} {rest : List String}
    (served : s.CallServed number call) (unsent : call.unsent = file :: rest)
    (owed : ∀ file, 0 < s.owed (.file file, .call number) → 0 < next.owed (.file file, .call number))
    (asked : 0 < next.owed (.file file, .call number)) :
    next.CallServed number { call with unsent := rest } := by
  intro isOpen
  obtain ⟨waits, served⟩ := served isOpen
  refine ⟨waits, fun name member => ?_⟩
  rcases served name member with later | before
  · rw [unsent] at later
    rcases List.mem_cons.mp later with rfl | later
    · exact Or.inr asked
    · exact Or.inl later
  · exact Or.inr (owed name before)

theorem CallServed.accept {number : Nat} {call after : CompileCall} {notice : Notice}
    (served : s.CallServed number call) (isOpen : call.result = none)
    (accepts : call.Accepts notice after)
    (owed : ∀ file, notice.unit ≠ .file file → 0 < s.owed (.file file, .call number) →
      0 < next.owed (.file file, .call number)) : next.CallServed number after := by
  intro stillOpen
  obtain ⟨waits, served⟩ := served isOpen
  cases accepts with
  | ignore unawaited =>
    refine ⟨waits, fun file member => (served file member).imp id (owed file ?_)⟩
    exact fun about => unawaited file about member
  | @record name about awaited more =>
    refine ⟨more, fun file member => ?_⟩
    obtain ⟨member, away⟩ := List.mem_filter.mp member
    refine (served file member).imp id (owed file fun same => ?_)
    simp [UnitName.file.inj (same.symm.trans about)] at away
  | finish => simp at stillOpen

theorem CallsServed.initial (keepGoing : Bool) : CallsServed { keepGoing } := by
  intro number call known
  simp at known

theorem CallsServed.step (tidy : s.Tidy) (served : s.CallsServed) (step : s.Step event next) :
    next.CallsServed := by
  intro number call known
  have owed : ∀ {file : String}, (∀ delivery, s.read? event = some delivery →
      delivery.question ≠ (.file file, .call number)) →
      0 < s.owed (.file file, .call number) → 0 < next.owed (.file file, .call number) :=
    fun unread => step.owed_call tidy unread
  have kept : (call.result = none → ∀ delivery, s.read? event = some delivery →
      delivery.address ≠ .call number) → s.calls[number]? = some call →
      next.CallServed number call := by
    intro unread known isOpen
    obtain ⟨waits, served⟩ := served known isOpen
    refine ⟨waits, fun file member => (served file member).imp id (owed ?_)⟩
    exact fun delivery read same => unread isOpen delivery read (Prod.mk.inj same).2
  have grown := step.owed_of_unread tidy
  cases step with
  | call names =>
    rcases Nat.lt_or_ge number s.calls.length with old | new
    · exact kept (by simp [read?]) ((List.getElem?_append_left old).symm.trans known)
    · obtain rfl : call = .start names := by
        rw [List.getElem?_append_right new] at known
        simpa using List.mem_of_getElem? known
      exact .start number names
  | @send other changed file rest read unsent =>
    by_cases same : other = number
    · subst same
      have inside := (List.getElem?_eq_some_iff.mp read).1
      obtain rfl := Option.some.inj ((List.getElem?_set_self inside).symm.trans known)
      refine (served read).send unsent (fun name => owed (by simp [read?])) ?_
      rw [grown _ (by simp [read?])]
      simp [issued, CompileRequest.question]
    · exact kept (by simp [read?]) ((List.getElem?_set_ne same).symm.trans known)
  | @accept index other notice changed read reader sent waiting =>
    have told : ∀ delivery, s.read? (.receive index) = some delivery →
        delivery = ⟨.call other, notice⟩ :=
      fun delivery again => Option.some.inj (again.symm.trans read)
    by_cases same : other = number
    · subst same
      have inside := (List.getElem?_eq_some_iff.mp reader).1
      obtain rfl := Option.some.inj ((List.getElem?_set_self inside).symm.trans known)
      refine (served reader).accept waiting (changed.accept_accepts notice) fun file away => ?_
      refine owed fun delivery again same => ?_
      rw [told delivery again] at same
      exact away (Prod.mk.inj same).1
    · refine kept (fun _ delivery again => ?_) ((List.getElem?_set_ne same).symm.trans known)
      rw [told delivery again]
      simpa using same
  | @drop index delivery read unread =>
    refine kept (fun isOpen other again reader => ?_) known
    obtain rfl := Option.some.inj (read.symm.trans again)
    rw [Unread, reader] at unread
    have ended := unread call known
    simp [isOpen] at ended
  | hear read | relay read =>
    refine kept ?_ known
    intro _ delivery again
    obtain rfl := Option.some.inj (read.symm.trans again)
    simp
  | _ => exact kept (by simp [read?]) known

/-! ### Tasks -/

/-- The task of a file is owed exactly the answers it waits for, each once. A file without a task
is owed nothing. -/
def TaskServed (s : State) (file : String) : Option FileTask → Prop
  | none | some ⟨_, .parsing⟩ => ∀ package, s.owed (.package package, .task file) = 0
  | some ⟨_, .resolving unsent pending⟩ =>
    (unsent.map (·.package) ++ pending).Nodup ∧
      ∀ package, s.owed (.package package, .task file) = pending.count package
  | some ⟨_, .finished⟩ => True

def TasksServed (s : State) : Prop := ∀ file, s.TaskServed file (s.tasks.get? file)

theorem TaskServed.congr {file : String} {task : Option FileTask}
    (same : ∀ package, next.owed (.package package, .task file) =
      s.owed (.package package, .task file)) (served : s.TaskServed file task) :
    next.TaskServed file task := by
  match task with
  | none | some ⟨_, .parsing⟩ => exact fun package => (same package).trans (served package)
  | some ⟨_, .resolving unsent pending⟩ =>
    exact ⟨served.1, fun package => (same package).trans (served.2 package)⟩
  | some ⟨_, .finished⟩ => trivial

theorem TasksServed.initial (keepGoing : Bool) : TasksServed { keepGoing } := by
  intro file package
  exact owed_initial keepGoing _

theorem Step.owed_task {file : String} (tidy : s.Tidy) (step : s.Step event next)
    (unread : ∀ delivery, s.read? event = some delivery → delivery.address ≠ .task file)
    (silent : event ≠ .ask file) (package : String) :
    next.owed (.package package, .task file) = s.owed (.package package, .task file) := by
  have unissued : (.package package, .task file) ∉ s.issued next := by
    intro member
    cases step.issues member with
    | task => exact silent rfl
  rw [step.owed_of_unread tidy _ fun delivery read same => unread delivery read (Prod.mk.inj same).2,
    List.count_eq_zero.mpr unissued, Nat.add_zero]

theorem count_filter_ne (names : List String) (name other : String) :
    (names.filter (· ≠ name)).count other = if other = name then 0 else names.count other := by
  split
  · rename_i same
    simp [List.count_eq_zero, same]
  · rename_i away
    exact List.count_filter (by simpa using away)

/-- An answer that a task reads was the only one that its package owed. -/
theorem TaskServed.owed_after_relay {file : String} {pending : List String} {notice : Notice}
    (served : s.TaskServed file (some ⟨file, .resolving [] pending⟩)) (tidy : s.Tidy)
    (step : s.Step event next) (read : s.read? event = some ⟨.task file, notice⟩)
    (silent : s.issued next = []) (wanted : frontend.Wants (notice.unit, .task file))
    (package : String) :
    next.owed (.package package, .task file) =
      (pending.filter (· ≠ notice.unit.name)).count package := by
  obtain ⟨unique, owed⟩ := served
  have once := List.nodup_iff_count_le_one.mp unique notice.unit.name
  have answered := step.owed_of_read tidy _ read
  have about : Delivery.question ⟨.task file, notice⟩ = (.package notice.unit.name, .task file) :=
    Prod.ext wanted.package_name.symm rfl
  rw [about, owed, silent, List.count_nil] at answered
  rw [List.map_nil, List.nil_append] at once
  rw [count_filter_ne]
  split
  · rename_i same
    rw [same]
    omega
  · rename_i away
    rw [step.owed_of_unread tidy _ ?_, owed, silent, List.count_nil, Nat.add_zero]
    intro delivery again same
    obtain rfl := Option.some.inj (read.symm.trans again)
    rw [about] at same
    exact away (UnitName.package.inj (Prod.mk.inj same).1).symm

theorem TaskServed.drop {file : String} {index : Nat} {delivery : Delivery}
    (served : s.TaskServed file (s.tasks.get? file)) (tidy : s.Tidy)
    (step : s.Step (.receive index) next) (read : s.mail[index]? = some delivery)
    (unread : s.Unread delivery) (silent : s.issued next = []) :
    next.TaskServed file (s.tasks.get? file) := by
  cases known : s.tasks.get? file with
  | none =>
    rw [known] at served
    intro package
    have balance := step.owed_eq tidy (.package package, .task file)
    rw [served package, silent, List.count_nil] at balance
    omega
  | some task =>
    obtain ⟨name, phase⟩ := task
    cases phase with
    | finished => trivial
    | parsing | resolving =>
      rw [known] at served
      refine served.congr fun package => step.owed_task tidy (fun other again reader => ?_) (by simp) package
      obtain rfl := Option.some.inj (read.symm.trans again)
      rw [Unread, reader] at unread
      simpa using unread _ known

/-- Only the task that changes has to be looked at. -/
theorem TasksServed.set (served : s.TasksServed) {file changed : String} {task : FileTask}
    (here : file = changed → next.TaskServed file (some task))
    (away : file ≠ changed → ∀ package, next.owed (.package package, .task file) =
      s.owed (.package package, .task file)) :
    next.TaskServed file ((s.tasks.set changed task).get? file) := by
  by_cases this : file = changed
  · simpa only [Table.get?_set, this, if_true] using here this
  · simpa only [Table.get?_set, this, if_false] using (served file).congr (away this)

theorem TasksServed.step (tidy : s.Tidy) (grounded : s.Grounded frontend) (served : s.TasksServed)
    (step : s.Step event next) : next.TasksServed := by
  intro file
  have still : (∀ delivery, s.read? event = some delivery → delivery.address ≠ .task file) →
      event ≠ .ask file → ∀ package, next.owed (.package package, .task file) =
        s.owed (.package package, .task file) :=
    fun unread silent package => step.owed_task tidy unread silent package
  have grown := step.owed_of_unread tidy
  have whole := step
  cases step with
  | @enlist index request read unknown running =>
    have same := still (by simp [read?]) (by simp)
    refine served.set ?_ fun _ => same
    rintro rfl
    have absent : s.tasks.get? request.file = none := by
      cases present : s.tasks.get? request.file with
      | none => rfl
      | some task =>
        obtain ⟨unit, known⟩ := tidy.taskUnit present
        simp [unknown] at known
    have nothing := served request.file
    rw [absent] at nothing
    exact fun package => (same package).trans (nothing package)
  | @ask asker site rest pending known running =>
    refine served.set ?_ fun away => still (by simp [read?]) (by simpa using Ne.symm away)
    rintro rfl
    have before := served file
    rw [known] at before
    -- The package goes from those to be asked for to those that owe an answer.
    refine ⟨?_, fun package => ?_⟩
    · rw [← List.append_assoc, List.nodup_append_comm]
      exact before.1
    · rw [grown _ (by simp [read?]), before.2, List.count_append]
      congr 1
      simp only [issued, List.drop_length, List.drop_left, List.map_nil, List.map_cons,
        List.nil_append, ImportRequest.question, List.count_singleton]
      simp
  | @giveUp asker site rest pending known stopped =>
    refine served.set (fun _ => trivial) fun away => ?_
    exact still (by simp [read?]) (by simpa using Ne.symm away)
  | @parsed parsedFile result known =>
    have same := still (by simp [read?]) (by simp)
    refine served.set ?_ fun _ => same
    rintro rfl
    have nothing := served file
    rw [known] at nothing
    cases result with
    | error failure => trivial
    | ok parsed =>
      simp only [FileTask.finishParse]
      split
      · trivial
      · refine ⟨by simpa using parsed.nodup_imports, fun package => ?_⟩
        exact (same package).trans (nothing package)
  | @relay index notice reader pending read known =>
    refine served.set ?_ fun away => still (fun delivery again => ?_) (by simp)
    · rintro rfl
      have before := served file
      rw [known] at before
      have wanted := grounded.wants_mail (List.mem_of_getElem? read)
      have left := before.owed_after_relay tidy whole read (by simp [issued]) wanted
      split
      · trivial
      · exact ⟨by simpa using before.1.filter _, left⟩
    · obtain rfl := Option.some.inj (read.symm.trans again)
      simpa using Ne.symm away
  | @drop index delivery read unread =>
    exact (served file).drop tidy whole read unread (by simp [issued])
  | hear read | accept read =>
    refine (served file).congr (still (fun delivery again => ?_) (by simp))
    obtain rfl := Option.some.inj (read.symm.trans again)
    simp
  | _ => exact (served file).congr (still (by simp [read?]) (by simp))

/-! ### File units and their tasks -/

/-- The unit as it will be when the reports on their way are handled, without its listeners. -/
def ahead (s : State) (file : String) (unit : FileUnit) : FileUnit :=
  (s.reports.filter (·.file = file)).foldl (fun unit report => (unit.heed report).1) unit.muted

theorem ahead_append (s : State) (report : Report) (file : String) (unit : FileUnit) :
    ahead { s with reports := s.reports ++ [report] } file unit =
      if report.file = file then ((s.ahead file unit).heed report).1 else s.ahead file unit := by
  by_cases same : report.file = file <;> simp [ahead, List.filter_append, same]

end State

/-- A unit that has heard all its task has to say waits for what the task waits for. -/
def TaskPhase.Matches : TaskPhase → FileUnit → Prop
  | .parsing, unit => unit.audience = .waiting [] ∧ unit.parsed = none
  | .resolving unsent pending, unit => unit.audience = .waiting [] ∧ unit.waitingOn ≠ [] ∧
    ∀ package, package ∈ unit.waitingOn ↔ package ∈ unsent.map (·.package) ∨ package ∈ pending
  | .finished, unit => unit.audience.isAnswered = true

namespace TaskPhase.Matches

variable {unit : FileUnit} {file : String}

theorem parsed (kept : TaskPhase.parsing.Matches unit) (result : Except Failure ParsedFile) :
    (FileTask.finishParse ⟨file, .parsing⟩ result).1.phase.Matches
      (unit.heed (.parsed file result)).1 := by
  obtain ⟨isOpen, unparsed⟩ := kept
  cases result with
  | error failure =>
    rw [FileUnit.heed, FileUnit.complete_of_waiting unit isOpen]
    rfl
  | ok parsed =>
    have parsing : unit.status = .parsing := by simp [FileUnit.status, isOpen, unparsed]
    by_cases imports : parsed.imports = []
    · simp [FileTask.finishParse, FileUnit.heed, FileUnit.symbolsAvailable, parsing, imports,
        Names.ofList, FileUnit.complete, isOpen, Audience.isAnswered, Audience.announce,
        TaskPhase.Matches]
    · have waits : Names.ofList (parsed.imports.map (·.package)) ≠ [] := by simpa using imports
      simp only [FileTask.finishParse, FileUnit.heed, FileUnit.symbolsAvailable, parsing, imports,
        waits, ne_eq, not_true_eq_false, if_false]
      exact ⟨isOpen, waits, fun package => by simp⟩

theorem gaveUp {unsent : List ImportSite} {pending : List String} {notice : Notice}
    (kept : (TaskPhase.resolving unsent pending).Matches unit)
    (awaited : notice.unit.name ∈ unsent.map (·.package)) (failed : notice.outcome.isFailed = true) :
    TaskPhase.finished.Matches (unit.heed (.importResolved file notice)).1 := by
  obtain ⟨isOpen, _, waits⟩ := kept
  rw [FileUnit.heed, FileUnit.importResolved_eq isOpen ((waits _).mpr (Or.inl awaited)),
    if_pos (Or.inl failed)]
  rfl

theorem relayed {pending : List String} {notice : Notice}
    (kept : (TaskPhase.resolving [] pending).Matches unit) (awaited : notice.unit.name ∈ pending) :
    TaskPhase.Matches
      (if notice.outcome.isFailed || pending.filter (· ≠ notice.unit.name) = [] then .finished
        else .resolving [] (pending.filter (· ≠ notice.unit.name)))
      (unit.heed (.importResolved file notice)).1 := by
  obtain ⟨isOpen, _, waits⟩ := kept
  have same : ∀ package, package ∈ unit.waitingOn ↔ package ∈ pending := by simpa using waits
  have empty : unit.waitingOn.filter (· ≠ notice.unit.name) = [] ↔
      pending.filter (· ≠ notice.unit.name) = [] := by
    simp only [List.filter_eq_nil_iff, same]
  rw [FileUnit.heed, FileUnit.importResolved_eq isOpen ((same _).mpr awaited)]
  by_cases ended : notice.outcome.isFailed = true ∨ pending.filter (· ≠ notice.unit.name) = []
  · rw [if_pos (by simpa using ended), if_pos (by rwa [empty])]
    rfl
  · rw [if_neg (by simpa using ended), if_neg (by rwa [empty])]
    obtain ⟨_, more⟩ := not_or.mp ended
    refine ⟨isOpen, mt empty.mp more, fun package => ?_⟩
    simp [same]

end TaskPhase.Matches

namespace State

variable {frontend : Frontend} {s next : State} {event : Event}

/-- Every file unit has a task and will have caught up with it when the reports are handled. -/
def Abreast (s : State) : Prop :=
  ∀ {file : String} {unit : FileUnit}, s.files.units.get? file = some unit →
    ∃ task, s.tasks.get? file = some task ∧ task.phase.Matches (s.ahead file unit)

theorem Abreast.initial (keepGoing : Bool) : Abreast { keepGoing } := by
  intro file unit known
  simp at known

/-- A task reports and goes on to another phase. -/
theorem Abreast.report (abreast : s.Abreast) {file : String} {phase after : TaskPhase}
    {report : Report} (known : s.tasks.get? file = some ⟨file, phase⟩) (about : report.file = file)
    (matched : ∀ {unit}, phase.Matches unit → after.Matches (unit.heed report).1) :
    Abreast { s with tasks := s.tasks.set file ⟨file, after⟩, reports := s.reports ++ [report] } := by
  intro other unit held
  obtain ⟨task, running, kept⟩ := abreast held
  have later : ahead { s with tasks := s.tasks.set file ⟨file, after⟩, reports := s.reports ++ [report] }
      other unit = _ := ahead_append s report other unit
  by_cases same : other = file
  · subst same
    obtain rfl := Option.some.inj (known.symm.trans running)
    refine ⟨⟨other, after⟩, by simp, ?_⟩
    rw [later, if_pos about]
    exact matched kept
  · refine ⟨task, by simp [same, running], ?_⟩
    rw [later, if_neg fun equal => same (equal.symm.trans about)]
    exact kept

theorem Abreast.heed (abreast : s.Abreast) {report : Report} {rest : List Report} {unit : FileUnit}
    (read : s.reports = report :: rest) (known : s.files.units.get? report.file = some unit) :
    Abreast { s with
      reports := rest
      files := ⟨s.files.units.set report.file (unit.heed report).1⟩ } := by
  intro file entry held
  rw [Table.get?_set] at held
  split at held
  · rename_i same
    subst same
    obtain rfl := Option.some.inj held
    obtain ⟨task, running, kept⟩ := abreast known
    refine ⟨task, running, ?_⟩
    simpa [ahead, read, unit.muted_heed] using kept
  · rename_i away
    obtain ⟨task, running, kept⟩ := abreast held
    refine ⟨task, running, ?_⟩
    simpa [ahead, read, Ne.symm away] using kept

theorem Abreast.join (abreast : s.Abreast) {file : String} {unit : FileUnit}
    (known : s.files.units.get? file = some unit) (address : Address) :
    Abreast { s with files := ⟨s.files.units.set file (unit.subscribe address).1⟩ } := by
  intro other entry held
  rw [Table.get?_set] at held
  split at held
  · rename_i same
    subst same
    obtain rfl := Option.some.inj held
    obtain ⟨task, running, kept⟩ := abreast known
    refine ⟨task, running, ?_⟩
    simpa [ahead] using kept
  · exact abreast held

theorem Abreast.enlist (tidy : s.Tidy) (abreast : s.Abreast) {file : String}
    (unknown : s.files.units.get? file = none) (subscribers : List Address) :
    Abreast { s with
      files := ⟨s.files.units.set file { name := file, audience := .waiting subscribers }⟩
      tasks := s.tasks.set file { file } } := by
  intro other entry held
  rw [Table.get?_set] at held
  split at held
  · rename_i same
    subst same
    obtain rfl := Option.some.inj held
    have none : s.reports.filter (·.file = other) = [] := by
      rw [List.filter_eq_nil_iff]
      intro report member
      obtain ⟨unit, known⟩ := tidy.reportUnit report member
      rintro same
      simp [of_decide_eq_true same, unknown] at known
    refine ⟨{ file := other }, by simp, ?_⟩
    simp [ahead, none, TaskPhase.Matches, FileUnit.muted, Audience.muted]
  · rename_i away
    obtain ⟨task, running, kept⟩ := abreast held
    exact ⟨task, by simp [away, running], kept⟩

theorem Abreast.step (tidy : s.Tidy) (grounded : s.Grounded frontend) (served : s.TasksServed)
    (abreast : s.Abreast) (step : s.Step event next) : next.Abreast := by
  cases step with
  | join read known => exact abreast.join known _
  | enlist read unknown => exact abreast.enlist tidy unknown _
  | heed read known => exact abreast.heed read known
  | @ask file site rest pending known running =>
    intro other unit held
    obtain ⟨task, running, kept⟩ := abreast held
    by_cases same : other = file
    · subst same
      obtain rfl := Option.some.inj (known.symm.trans running)
      obtain ⟨isOpen, some, waits⟩ := kept
      refine ⟨⟨other, .resolving rest (pending ++ [site.package])⟩, by simp, isOpen, some, ?_⟩
      refine fun package => (waits package).trans ?_
      simp only [List.map_cons, List.mem_cons, List.mem_append]
      tauto
    · exact ⟨task, by simp [same, running], kept⟩
  | @giveUp file site rest pending known stopped =>
    refine abreast.report known rfl fun kept => kept.gaveUp ?_ rfl
    simp [Notice.cancelled, Notice.failed, UnitName.name]
  | @parsed file result known => exact abreast.report known rfl fun kept => kept.parsed result
  | @relay index notice file pending read known =>
    refine abreast.report known rfl fun kept => kept.relayed ?_
    -- The notice was owed to the task, so the task has asked for it.
    have delivered := List.mem_of_getElem? read
    have owed := owed_pos_of_mail delivered
    have about : Delivery.question ⟨.task file, notice⟩ = (.package notice.unit.name, .task file) :=
      Prod.ext (grounded.wants_mail delivered).package_name.symm rfl
    have before := served file
    rw [known] at before
    rw [about, before.2] at owed
    exact List.count_pos_iff.mp owed
  | _ => exact fun known => abreast known

end State

namespace Run

variable {frontend : Frontend} {keepGoing : Bool} {trace : Trace} {s : State}

theorem callsServed (run : Run frontend keepGoing trace s) : s.CallsServed := by
  induction run with
  | start => exact State.CallsServed.initial keepGoing
  | step earlier _ taken ih =>
    exact State.CallsServed.step earlier.tidy ih (State.step_of_tidy earlier.tidy taken)

theorem tasksServed (run : Run frontend keepGoing trace s) : s.TasksServed :=
  run.invariant (.initial keepGoing) fun earlier served _ step =>
    served.step earlier.tidy earlier.grounded step

theorem abreast (run : Run frontend keepGoing trace s) : s.Abreast := by
  induction run with
  | start => exact State.Abreast.initial keepGoing
  | step earlier _ taken ih =>
    exact State.Abreast.step earlier.tidy earlier.grounded earlier.tasksServed ih
      (State.step_of_tidy earlier.tidy taken)

end Run

end GoFront.Build
