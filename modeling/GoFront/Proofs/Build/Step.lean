import GoFront.Build.Machine
import GoFront.Proofs.Build.Handling

/-!
What one event can do. `Step` lists every way in which an event changes the state, with the state
that it leaves; `step_of_tidy` says that nothing else happens in a tidy state, and `Tidy` is kept
by every step.
-/
namespace GoFront.Build

namespace State

/-- The state refers only to units it knows, each under its own name. -/
structure Tidy (s : State) : Prop where
  fileName : ∀ {file unit}, s.files.units.get? file = some unit → unit.name = file
  imports : s.imports.Tidy
  taskFile : ∀ {file task}, s.tasks.get? file = some task → task.file = file
  taskUnit : ∀ {file task}, s.tasks.get? file = some task →
    ∃ unit, s.files.units.get? file = some unit
  reportUnit : ∀ report ∈ s.reports, ∃ unit, s.files.units.get? report.file = some unit
  lookupUnit : ∀ lookup ∈ s.lookups, ∃ unit, s.imports.units.get? lookup.package = some unit
  locatedUnit : ∀ located ∈ s.located,
    ∃ unit, s.imports.units.get? located.lookup.package = some unit

/-- Nobody waits for the notice. -/
def Unread (s : State) (delivery : Delivery) : Prop :=
  match delivery.address with
  | .members => ∀ file, delivery.notice.unit = .file file → s.imports.pending.get? file = none
  | .task file => ∀ task, s.tasks.get? file = some task → task.phase = .finished
  | .call number => ∀ call, s.calls[number]? = some call → call.result.isSome = true

/-- The ways in which an event changes the state. -/
inductive Step (s : State) : Event → State → Prop where
  | call (names : List String) :
      Step s (.call names) { s with calls := s.calls ++ [.start names] }
  | send {number : Nat} {call : CompileCall} {file : String} {rest : List String}
      (read : s.calls[number]? = some call) (unsent : call.unsent = file :: rest) :
      Step s (.send number)
        { s with
          calls := s.calls.set number { call with unsent := rest }
          requests := s.requests ++ [⟨file, .call number⟩] }
  /-- A request for a known file. -/
  | join {index : Nat} {request : CompileRequest} {unit : FileUnit}
      (read : s.requests[index]? = some request)
      (known : s.files.units.get? request.file = some unit) :
      Step s (.compile index)
        { s with
          requests := s.requests.eraseIdx index
          files := ⟨s.files.units.set request.file (unit.subscribe request.replyTo).1⟩
          mail := s.mail ++ (unit.subscribe request.replyTo).2 }
  /-- A request for an unknown file after shutdown. -/
  | refuse {index : Nat} {request : CompileRequest} (read : s.requests[index]? = some request)
      (unknown : s.files.units.get? request.file = none) (stopped : s.shutdown.raised = true) :
      Step s (.compile index)
        { s with
          requests := s.requests.eraseIdx index
          mail := s.mail ++ [⟨request.replyTo, .cancelled (.file request.file)⟩] }
  /-- A request for an unknown file. -/
  | enlist {index : Nat} {request : CompileRequest} (read : s.requests[index]? = some request)
      (unknown : s.files.units.get? request.file = none) (running : s.shutdown.raised = false) :
      Step s (.compile index)
        { s with
          requests := s.requests.eraseIdx index
          files := ⟨s.files.units.set request.file
            { name := request.file, audience := .waiting [request.replyTo] }⟩
          tasks := s.tasks.set request.file { file := request.file } }
  | heed {report : Report} {rest : List Report} {unit : FileUnit}
      (read : s.reports = report :: rest)
      (known : s.files.units.get? report.file = some unit) :
      Step s .report
        { s with
          reports := rest
          files := ⟨s.files.units.set report.file (unit.heed report).1⟩
          mail := s.mail ++ (unit.heed report).2 }
  | ask {file : String} {site : ImportSite} {rest : List ImportSite} {pending : List String}
      (known : s.tasks.get? file = some ⟨file, .resolving (site :: rest) pending⟩)
      (running : s.shutdown.raised = false) :
      Step s (.ask file)
        { s with
          tasks := s.tasks.set file ⟨file, .resolving rest (pending ++ [site.package])⟩
          importRequests := s.importRequests ++
            [⟨site.package, file, site.position, .task file⟩] }
  | giveUp {file : String} {site : ImportSite} {rest : List ImportSite} {pending : List String}
      (known : s.tasks.get? file = some ⟨file, .resolving (site :: rest) pending⟩)
      (stopped : s.shutdown.raised = true) :
      Step s (.ask file)
        { s with
          tasks := s.tasks.set file ⟨file, .finished⟩
          reports := s.reports ++
            [.importResolved file (.cancelled (.package site.package))] }
  /-- The import of a package that waits for the importing file. -/
  | reject {request : ImportRequest} {rest : List ImportRequest} {unit : PackageUnit}
      {cycle : List String} (read : s.importRequests = request :: rest)
      (known : s.imports.units.get? request.package = some unit) (live : unit.isLive = true)
      (closes : s.imports.importCycle request = some cycle) :
      Step s .resolve
        { s with
          importRequests := rest
          mail := s.mail ++ [⟨request.replyTo, .failed (.package request.package)
            (.cyclicImport request.fromFile request.position cycle)⟩] }
  /-- The import of a live package. -/
  | follow {request : ImportRequest} {rest : List ImportRequest} {unit : PackageUnit}
      (read : s.importRequests = request :: rest)
      (known : s.imports.units.get? request.package = some unit) (live : unit.isLive = true)
      (safe : s.imports.importCycle request = none) :
      Step s .resolve
        { s with
          importRequests := rest
          imports :=
            { s.imports with
              units := s.imports.units.set request.package (unit.subscribe request.replyTo).1
              graph := s.imports.graph.record request.fromFile request.package }
          mail := s.mail ++ (unit.subscribe request.replyTo).2 }
  /-- The import of a complete package. -/
  | reuse {request : ImportRequest} {rest : List ImportRequest} {unit : PackageUnit}
      (read : s.importRequests = request :: rest)
      (known : s.imports.units.get? request.package = some unit) (done : unit.isLive = false) :
      Step s .resolve
        { s with
          importRequests := rest
          imports :=
            { s.imports with
              units := s.imports.units.set request.package (unit.subscribe request.replyTo).1 }
          mail := s.mail ++ (unit.subscribe request.replyTo).2 }
  /-- The import of an unknown package after shutdown. -/
  | turnAway {request : ImportRequest} {rest : List ImportRequest}
      (read : s.importRequests = request :: rest)
      (unknown : s.imports.units.get? request.package = none)
      (stopped : s.shutdown.raised = true) :
      Step s .resolve
        { s with
          importRequests := rest
          mail := s.mail ++ [⟨request.replyTo, .cancelled (.package request.package)⟩] }
  /-- The import of an unknown package. -/
  | search {request : ImportRequest} {rest : List ImportRequest}
      (read : s.importRequests = request :: rest)
      (unknown : s.imports.units.get? request.package = none)
      (running : s.shutdown.raised = false) :
      Step s .resolve
        { s with
          importRequests := rest
          imports :=
            { s.imports with
              units := s.imports.units.set request.package
                { name := request.package, audience := .waiting [request.replyTo] }
              graph := s.imports.graph.record request.fromFile request.package }
          lookups := s.lookups ++ [⟨request.package, request.fromFile, request.position⟩] }
  | parsed {file : String} {result : Except Failure ParsedFile}
      (known : s.tasks.get? file = some ⟨file, .parsing⟩) :
      Step s (.parsed file result)
        { s with
          tasks := s.tasks.set file (FileTask.finishParse ⟨file, .parsing⟩ result).1
          reports := s.reports ++ [.parsed file result] }
  | found {package : String} {result : Except (Setback LocateError) (List String)}
      {lookup : Lookup} (searching : lookup ∈ s.lookups) (same : lookup.package = package) :
      Step s (.found package result)
        { s with
          lookups := s.lookups.filter (·.package ≠ package)
          located := s.located ++ [⟨lookup, result⟩] }
  /-- The search has failed. -/
  | lost {located : Located} {rest : List Located} {unit : PackageUnit}
      {fault : Setback LocateError} (read : s.located = located :: rest)
      (known : s.imports.units.get? located.lookup.package = some unit)
      (failed : located.result = .error fault) :
      Step s .located
        { s with
          located := rest
          imports :=
            { s.imports with
              units := s.imports.units.set located.lookup.package
                (unit.complete (.failed (located.lookup.failure fault))).1 }
          mail := s.mail ++ (unit.complete (.failed (located.lookup.failure fault))).2 }
  /-- A member waits for the package that has been found. -/
  | knot {located : Located} {rest : List Located} {unit : PackageUnit}
      {files cycle : List String} (read : s.located = located :: rest)
      (known : s.imports.units.get? located.lookup.package = some unit)
      (found : located.result = .ok files)
      (closes : s.imports.memberCycle located.lookup.package (files.map Path.normalize) =
        some cycle) :
      Step s .located
        { s with
          located := rest
          imports :=
            { s.imports with
              units := s.imports.units.set located.lookup.package
                (unit.complete (.failed (.cyclicImport located.lookup.fromFile
                  located.lookup.position cycle))).1 }
          mail := s.mail ++ (unit.complete (.failed (.cyclicImport located.lookup.fromFile
            located.lookup.position cycle))).2 }
  /-- The members of a package that has been found are asked for. -/
  | start {located : Located} {rest : List Located} {unit : PackageUnit} {files : List String}
      (read : s.located = located :: rest)
      (known : s.imports.units.get? located.lookup.package = some unit)
      (found : located.result = .ok files)
      (safe : s.imports.memberCycle located.lookup.package (files.map Path.normalize) = none)
      (owned : s.shutdown.owned = true) :
      Step s .located
        { s with
          located := rest
          imports :=
            { s.imports with
              units := s.imports.units.set located.lookup.package
                (unit.start (files.map Path.normalize)).1
              pending := ImportDesk.enroll s.imports.pending located.lookup.package
                (unit.start (files.map Path.normalize)).1.members }
          requests := s.requests ++ (unit.start (files.map Path.normalize)).1.members.map
            fun file => ⟨file, .members⟩
          mail := s.mail ++ (unit.start (files.map Path.normalize)).2 }
  /-- The members of a package that has been found cannot be asked for. -/
  | sever {located : Located} {rest : List Located} {unit : PackageUnit} {files : List String}
      {desk : ImportDesk} {deliveries : List Delivery} (read : s.located = located :: rest)
      (known : s.imports.units.get? located.lookup.package = some unit)
      (found : located.result = .ok files)
      (safe : s.imports.memberCycle located.lookup.package (files.map Path.normalize) = none)
      (released : s.shutdown.owned = false)
      (severs : ImportDesk.Severs
        { s.imports with
          units := s.imports.units.set located.lookup.package
            (unit.start (files.map Path.normalize)).1 }
        deliveries desk)
      (tidy : desk.Tidy) :
      Step s .located
        { s with
          located := rest
          imports := desk
          mail := s.mail ++ ((unit.start (files.map Path.normalize)).2 ++ deliveries) }
  /-- The first package that waits for a member hears of it. -/
  | hear {index : Nat} {notice : Notice} {file package : String} {others : List String}
      {unit : PackageUnit} (read : s.mail[index]? = some ⟨.members, notice⟩)
      (about : notice.unit = .file file)
      (waiting : s.imports.pending.get? file = some (package :: others))
      (known : s.imports.units.get? package = some unit) :
      Step s (.receive index)
        { s with
          imports :=
            { s.imports with
              pending := if others = [] then s.imports.pending.erase file
                else s.imports.pending.set file others
              units := s.imports.units.set package (unit.memberDone file notice.outcome).1 }
          mail := s.mail.eraseIdx index ++ (unit.memberDone file notice.outcome).2 }
  | drop {index : Nat} {delivery : Delivery} (read : s.mail[index]? = some delivery)
      (unread : s.Unread delivery) :
      Step s (.receive index) { s with mail := s.mail.eraseIdx index }
  | relay {index : Nat} {notice : Notice} {file : String} {pending : List String}
      (read : s.mail[index]? = some ⟨.task file, notice⟩)
      (known : s.tasks.get? file = some ⟨file, .resolving [] pending⟩) :
      Step s (.receive index)
        { s with
          mail := s.mail.eraseIdx index
          tasks := s.tasks.set file
            { file
              phase := if notice.outcome.isFailed || pending.filter (· ≠ notice.unit.name) = []
                then .finished else .resolving [] (pending.filter (· ≠ notice.unit.name)) }
          reports := s.reports ++ [.importResolved file notice] }
  | accept {index number : Nat} {notice : Notice} {call : CompileCall}
      (read : s.mail[index]? = some ⟨.call number, notice⟩)
      (known : s.calls[number]? = some call) (sent : call.unsent = [])
      (waiting : call.result = none) :
      Step s (.receive index)
        { s with
          mail := s.mail.eraseIdx index
          calls := s.calls.set number (call.accept notice)
          shutdown := { s.shutdown with
            raised := s.shutdown.raised || (call.isFirstFailure notice && !s.keepGoing) } }
  | stop : Step s .stop { s with shutdown := { s.shutdown with raised := true } }
  | release : Step s .release { s with shutdown := { raised := true, owned := false } }

variable {s next : State}

theorem step_compile (tidy : s.Tidy) {index : Nat} (taken : s.step (.compile index) = some next) :
    s.Step (.compile index) next := by
  simp only [step] at taken
  split at taken
  · rename_i request read
    obtain rfl := Option.some.inj taken
    cases known : s.files.units.get? request.file with
    | some unit =>
      have name := tidy.fileName known
      have result := Step.join read known
      simpa [withFiles, apply, FileDesk.handleCompile, known, FileDesk.update, name] using result
    | none =>
      cases stopped : s.shutdown.raised with
      | true =>
        have result := Step.refuse read known stopped
        simpa [withFiles, apply, FileDesk.handleCompile, known, stopped] using result
      | false =>
        have result := Step.enlist read known stopped
        simpa [withFiles, apply, FileDesk.handleCompile, known, stopped] using result
  · simp at taken

theorem step_report (tidy : s.Tidy) (taken : s.step .report = some next) :
    s.Step .report next := by
  simp only [step] at taken
  split at taken
  · simp at taken
  · rename_i report rest read
    obtain rfl := Option.some.inj taken
    obtain ⟨unit, known⟩ := tidy.reportUnit report (by simp [read])
    have name := tidy.fileName known
    have result := Step.heed read known
    simpa [withFiles, apply, FileDesk.handleReport_eq, known, FileDesk.update, name] using result

theorem step_ask (tidy : s.Tidy) {file : String} (taken : s.step (.ask file) = some next) :
    s.Step (.ask file) next := by
  simp only [step] at taken
  split at taken
  · simp at taken
  · rename_i task known
    obtain ⟨name, phase⟩ := task
    obtain rfl : name = file := tidy.taskFile known
    cases phase with
    | parsing => simp [FileTask.sendNext?] at taken
    | finished => simp [FileTask.sendNext?] at taken
    | resolving unsent pending =>
      cases unsent with
      | nil => simp [FileTask.sendNext?] at taken
      | cons site rest =>
        cases stopped : s.shutdown.raised with
        | true =>
          simp only [FileTask.sendNext?, stopped, FileTask.stop, if_true] at taken
          obtain rfl := Option.some.inj taken
          exact .giveUp known stopped
        | false =>
          simp only [FileTask.sendNext?, stopped, Bool.not_true, Bool.false_eq_true,
            if_false] at taken
          obtain rfl := Option.some.inj taken
          exact .ask known stopped

theorem step_resolve (tidy : s.Tidy) (taken : s.step .resolve = some next) :
    s.Step .resolve next := by
  simp only [step] at taken
  split at taken
  · simp at taken
  · rename_i request rest read
    obtain rfl := Option.some.inj taken
    have resolves := ImportDesk.handleImport_resolves tidy.imports s.shutdown.raised request
    generalize s.imports.handleImport s.shutdown.raised request = change at resolves ⊢
    cases resolves with
    | reject known live closes => simpa [withImports, apply] using Step.reject read known live closes
    | follow known live safe => simpa [withImports, apply] using Step.follow read known live safe
    | reuse known done => simpa [withImports, apply] using Step.reuse read known done
    | turnAway unknown stops => simpa [withImports, apply] using Step.turnAway read unknown stops
    | search unknown goesOn => simpa [withImports, apply] using Step.search read unknown goesOn

theorem step_located (tidy : s.Tidy) (taken : s.step .located = some next) :
    s.Step .located next := by
  simp only [step] at taken
  split at taken
  · simp at taken
  · rename_i located rest read
    obtain rfl := Option.some.inj taken
    obtain ⟨unit, known⟩ := tidy.locatedUnit located (by simp [read])
    have locates := ImportDesk.handleLocated_locates tidy.imports known s.shutdown.owned
    generalize s.imports.handleLocated s.shutdown.owned located = change at locates ⊢
    cases locates with
    | lost failed => simpa [withImports, apply] using Step.lost read known failed
    | knot found closes => simpa [withImports, apply] using Step.knot read known found closes
    | start found safe owned => simpa [withImports, apply] using Step.start read known found safe owned
    | sever found safe released severs tidyNext =>
      simpa [withImports, apply] using Step.sever read known found safe released severs tidyNext

theorem step_receive_members (tidy : s.Tidy) {index : Nat} {notice : Notice}
    (read : s.mail[index]? = some ⟨.members, notice⟩)
    (taken : deliver? { s with mail := s.mail.eraseIdx index } ⟨.members, notice⟩ = some next) :
    s.Step (.receive index) next := by
  obtain rfl := Option.some.inj taken
  have hears := ImportDesk.handleMember_hears tidy.imports notice
  generalize s.imports.handleMember notice = change at hears ⊢
  cases hears with
  | drop unread => simpa [withImports, apply] using Step.drop read unread
  | hear about waiting known => simpa [withImports, apply] using Step.hear read about waiting known

theorem step_receive_task (tidy : s.Tidy) {index : Nat} {file : String} {notice : Notice}
    (read : s.mail[index]? = some ⟨.task file, notice⟩)
    (taken : deliver? { s with mail := s.mail.eraseIdx index } ⟨.task file, notice⟩ = some next) :
    s.Step (.receive index) next := by
  simp only [deliver?] at taken
  split at taken
  · rename_i unknown
    obtain rfl := Option.some.inj taken
    exact .drop read (by simp [Unread, unknown])
  · rename_i task known
    obtain ⟨name, phase⟩ := task
    obtain rfl : name = file := tidy.taskFile known
    cases phase with
    | parsing => simp [FileTask.receive?] at taken
    | finished =>
      obtain rfl := Option.some.inj taken
      exact .drop read (by simp [Unread, known])
    | resolving unsent pending =>
      cases unsent with
      | cons site rest => simp [FileTask.receive?] at taken
      | nil =>
        simp only [FileTask.receive?] at taken
        obtain rfl := Option.some.inj taken
        exact .relay read known

theorem step_receive_call {index number : Nat} {notice : Notice}
    (read : s.mail[index]? = some ⟨.call number, notice⟩)
    (taken : deliver? { s with mail := s.mail.eraseIdx index } ⟨.call number, notice⟩ =
      some next) : s.Step (.receive index) next := by
  simp only [deliver?] at taken
  split at taken
  · rename_i unknown
    obtain rfl := Option.some.inj taken
    exact .drop read (by simp [Unread, unknown])
  · rename_i call known
    split at taken
    · rename_i ended
      obtain rfl := Option.some.inj taken
      exact .drop read (by simp [Unread, known, ended])
    · rename_i waiting
      split at taken
      · simp at taken
      · rename_i collecting
        have sent : call.unsent = [] := by
          simp only [CompileCall.isCollecting] at collecting
          simp at collecting
          exact collecting.1
        have result := Step.accept read known sent (by simpa using waiting)
        obtain rfl := Option.some.inj taken
        split
        · rename_i stops
          simpa [State.stop, Shutdown.trigger, stops] using result
        · rename_i goesOn
          simpa [goesOn] using result

theorem step_receive (tidy : s.Tidy) {index : Nat} (taken : s.step (.receive index) = some next) :
    s.Step (.receive index) next := by
  simp only [step] at taken
  split at taken
  · rename_i delivery read
    obtain ⟨address, notice⟩ := delivery
    cases address with
    | members => exact step_receive_members tidy read taken
    | task file => exact step_receive_task tidy read taken
    | call number => exact step_receive_call read taken
  · simp at taken

/-- In a tidy state an event does one of the things that `Step` lists. -/
theorem step_of_tidy (tidy : s.Tidy) {event : Event} (taken : s.step event = some next) :
    s.Step event next := by
  cases event with
  | call names =>
    obtain rfl := Option.some.inj taken
    exact .call names
  | send number =>
    simp only [step] at taken
    split at taken
    · rename_i call read
      split at taken
      · simp at taken
      · rename_i file rest unsent
        obtain rfl := Option.some.inj taken
        exact .send read unsent
    · simp at taken
  | compile index => exact step_compile tidy taken
  | report => exact step_report tidy taken
  | ask file => exact step_ask tidy taken
  | resolve => exact step_resolve tidy taken
  | parsed file result =>
    simp only [step] at taken
    split at taken
    · simp at taken
    · rename_i task known
      obtain ⟨name, phase⟩ := task
      obtain rfl : name = file := tidy.taskFile known
      cases phase with
      | parsing =>
        obtain rfl := Option.some.inj taken
        exact .parsed known
      | resolving _ _ => simp [FileTask.isParsing] at taken
      | finished => simp [FileTask.isParsing] at taken
  | found package result =>
    simp only [step] at taken
    split at taken
    · simp at taken
    · rename_i lookup searching
      obtain rfl := Option.some.inj taken
      exact .found (List.mem_of_find?_eq_some searching) (by simpa using List.find?_some searching)
  | located => exact step_located tidy taken
  | receive index => exact step_receive tidy taken
  | stop =>
    obtain rfl := Option.some.inj taken
    exact .stop
  | release =>
    obtain rfl := Option.some.inj taken
    exact .release

/-! ### Tidiness -/

theorem Tidy.initial (keepGoing : Bool) : Tidy { keepGoing } where
  fileName known := by simp at known
  imports := ⟨fun known => by simp at known, fun waiting => by simp at waiting⟩
  taskFile known := by simp at known
  taskUnit known := by simp at known
  reportUnit report member := by simp at member
  lookupUnit lookup member := by simp at member
  locatedUnit located member := by simp at member

theorem Tidy.setFile (tidy : s.Tidy) {file : String} (unit : FileUnit) (name : unit.name = file) :
    Tidy { s with files := ⟨s.files.units.set file unit⟩ } :=
  { tidy with
    fileName := Table.forall_set tidy.fileName name
    taskUnit := fun known => Table.exists_set (tidy.taskUnit known)
    reportUnit := fun report member => Table.exists_set (tidy.reportUnit report member) }

theorem Tidy.setPackage (tidy : s.Tidy) {package : String} (unit : PackageUnit)
    (name : unit.name = package) :
    Tidy { s with
      imports := { s.imports with units := s.imports.units.set package unit } } :=
  { tidy with
    imports := tidy.imports.set name
    lookupUnit := fun lookup member => Table.exists_set (tidy.lookupUnit lookup member)
    locatedUnit := fun located member => Table.exists_set (tidy.locatedUnit located member) }

theorem Tidy.setTask (tidy : s.Tidy) {file : String} (task : FileTask) (name : task.file = file)
    (known : ∃ unit, s.files.units.get? file = some unit) :
    Tidy { s with tasks := s.tasks.set file task } :=
  { tidy with
    taskFile := Table.forall_set tidy.taskFile name
    taskUnit := Table.forall_set tidy.taskUnit known }

theorem Tidy.addReport (tidy : s.Tidy) (report : Report)
    (known : ∃ unit, s.files.units.get? report.file = some unit) :
    Tidy { s with reports := s.reports ++ [report] } :=
  { tidy with
    reportUnit := by
      intro other member
      rcases List.mem_append.mp member with old | new
      · exact tidy.reportUnit other old
      · exact List.mem_singleton.mp new ▸ known }

theorem Tidy.step {event : Event} (tidy : s.Tidy) (step : s.Step event next) : next.Tidy := by
  cases step with
  | call | send | refuse | reject | turnAway | drop | accept | stop | release =>
    exact { tidy with }
  | @join index request unit read known =>
    exact { tidy.setFile (unit.subscribe request.replyTo).1
      ((FileUnit.subscribe_name unit _).trans (tidy.fileName known)) with }
  | @enlist index request read unknown running =>
    have opened := tidy.setFile
      { name := request.file, audience := .waiting [request.replyTo] } rfl
    exact { opened.setTask { file := request.file } rfl Table.exists_set_self with }
  | @heed report rest unit read known =>
    have kept := tidy.setFile (unit.heed report).1
      ((FileUnit.heed_name unit report).trans (tidy.fileName known))
    exact { kept with
      reportUnit := fun report member => kept.reportUnit report (by simp [read, member]) }
  | @ask file site rest pending known running =>
    exact { tidy.setTask ⟨file, .resolving rest (pending ++ [site.package])⟩ rfl
      (tidy.taskUnit known) with }
  | @giveUp file site rest pending known stopped =>
    have ended := tidy.setTask ⟨file, .finished⟩ rfl (tidy.taskUnit known)
    exact { ended.addReport (.importResolved file (.cancelled (.package site.package)))
      (tidy.taskUnit known) with }
  | @follow request rest unit read known =>
    have joined := tidy.setPackage (unit.subscribe request.replyTo).1
      ((PackageUnit.subscribe_name unit _).trans (tidy.imports.name known))
    exact { joined with imports := { joined.imports with } }
  | @reuse request rest unit read known =>
    exact { tidy.setPackage (unit.subscribe request.replyTo).1
      ((PackageUnit.subscribe_name unit _).trans (tidy.imports.name known)) with }
  | @search request rest read unknown running =>
    have opened := tidy.setPackage
      { name := request.package, audience := .waiting [request.replyTo] } rfl
    exact { opened with
      imports := { opened.imports with }
      lookupUnit := by
        intro lookup member
        rcases List.mem_append.mp member with old | new
        · exact opened.lookupUnit lookup old
        · obtain rfl := List.mem_singleton.mp new
          exact Table.exists_set_self }
  | @parsed file result known =>
    have ended := tidy.setTask (FileTask.finishParse ⟨file, .parsing⟩ result).1 rfl
      (tidy.taskUnit known)
    exact { ended.addReport (.parsed file result) (tidy.taskUnit known) with }
  | @found package result lookup searching same =>
    exact { tidy with
      lookupUnit := fun other member => tidy.lookupUnit other (List.mem_filter.mp member).1
      locatedUnit := by
        intro located member
        rcases List.mem_append.mp member with old | new
        · exact tidy.locatedUnit located old
        · obtain rfl := List.mem_singleton.mp new
          exact tidy.lookupUnit lookup searching }
  | @lost located rest unit fault read known failed =>
    have ended := tidy.setPackage
      (unit.complete (.failed (located.lookup.failure fault))).1
      ((PackageUnit.complete_name _ _).trans (tidy.imports.name known))
    exact { ended with
      locatedUnit := fun other member => ended.locatedUnit other (by simp [read, member]) }
  | @knot located rest unit files cycle read known found closes =>
    have ended := tidy.setPackage
      (unit.complete (.failed (.cyclicImport located.lookup.fromFile
        located.lookup.position cycle))).1
      ((PackageUnit.complete_name _ _).trans (tidy.imports.name known))
    exact { ended with
      locatedUnit := fun other member => ended.locatedUnit other (by simp [read, member]) }
  | @start located rest unit files read known found safe owned =>
    have started := tidy.setPackage (unit.start (files.map Path.normalize)).1
      ((unit.start_name _).trans (tidy.imports.name known))
    refine { started with
      imports := ⟨started.imports.name, ?_⟩
      locatedUnit := fun other member => started.locatedUnit other (by simp [read, member]) }
    exact started.imports.enroll Table.exists_set_self
  | @sever located rest unit files desk deliveries read known found safe released severs tidyDesk =>
    exact { tidy with
      imports := tidyDesk
      lookupUnit := fun lookup member =>
        severs.known (Table.exists_set (tidy.lookupUnit lookup member))
      locatedUnit := fun other member =>
        severs.known (Table.exists_set (tidy.locatedUnit other (by simp [read, member]))) }
  | @hear index notice file package others unit read about waiting known =>
    have heard := tidy.setPackage (unit.memberDone file notice.outcome).1
      ((PackageUnit.memberDone_hears _ _ _).name_eq.trans (tidy.imports.name known))
    exact { heard with imports := ⟨heard.imports.name, heard.imports.pop waiting⟩ }
  | @relay index notice file pending read known =>
    have ended := tidy.setTask
      { file
        phase := if notice.outcome.isFailed || pending.filter (· ≠ notice.unit.name) = []
          then .finished else .resolving [] (pending.filter (· ≠ notice.unit.name)) } rfl
      (tidy.taskUnit known)
    exact { ended.addReport (.importResolved file notice) (tidy.taskUnit known) with }

/-- Where a report comes from: it was there before, or it is sent by the end of a parse, by a task
that gives up, or by a task that passes a notice on. -/
inductive Reported (s : State) (event : Event) : Report → Prop where
  | before {report : Report} (member : report ∈ s.reports) : Reported s event report
  | parsed {file : String} {result : Except Failure ParsedFile} (now : event = .parsed file result) :
      Reported s event (.parsed file result)
  | gaveUp {file : String} {site : ImportSite} {rest : List ImportSite} {pending : List String}
      (known : s.tasks.get? file = some ⟨file, .resolving (site :: rest) pending⟩)
      (stopped : s.shutdown.raised = true) :
      Reported s event (.importResolved file (.cancelled (.package site.package)))
  | relayed {file : String} {notice : Notice} (member : ⟨.task file, notice⟩ ∈ s.mail) :
      Reported s event (.importResolved file notice)

theorem Step.reported {event : Event} (step : s.Step event next) :
    ∀ report ∈ next.reports, s.Reported event report := by
  have added : ∀ report, s.Reported event report →
      ∀ other ∈ s.reports ++ [report], s.Reported event other := by
    intro report origin other member
    rcases List.mem_append.mp member with old | new
    · exact .before old
    · exact List.mem_singleton.mp new ▸ origin
  cases step with
  | heed read => exact fun report member => .before (by simp [read, member])
  | giveUp known stopped => exact added _ (.gaveUp known stopped)
  | parsed => exact added _ (.parsed rfl)
  | relay read => exact added _ (.relayed (List.mem_of_getElem? read))
  | _ => exact fun report member => .before member

end State

end GoFront.Build
