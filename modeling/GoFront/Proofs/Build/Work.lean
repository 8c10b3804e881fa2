import GoFront.Proofs.Build.Waiting.Cover

/-!
The work that a run sets going: parses, searches, and requests for the members of packages. Each
log is counted against what the state knows, so that nothing is begun twice.
-/
namespace GoFront

theorem Table.isSome_set_known {α : Type} {table : Table α} {name : String} {old : α}
    (known : table.get? name = some old) (value : α) (other : String) :
    ((table.set name value).get? other).isSome = (table.get? other).isSome := by
  by_cases same : other = name <;> simp [same, known]

namespace Build

/-- Notices, and no work. -/
structure Effects.IsMail (effects : Effects) : Prop where
  requests : effects.requests = []
  lookups : effects.lookups = []
  tasks : effects.tasks = []

theorem Effects.IsMail.append {effects more : Effects} (mail : effects.IsMail)
    (moreMail : more.IsMail) : (effects ++ more).IsMail := by
  obtain ⟨requests, lookups, tasks⟩ := mail
  obtain ⟨moreRequests, moreLookups, moreTasks⟩ := moreMail
  rw [Effects.append_eq]
  exact ⟨by simp [requests, moreRequests], by simp [lookups, moreLookups],
    by simp [tasks, moreTasks]⟩

theorem PackageUnit.Fresh.mem_of_mem_members {unit : PackageUnit} (fresh : unit.Fresh)
    {files : List String} {file : String} (member : file ∈ (unit.start files).1.members) :
    file ∈ files := by
  cases files with
  | nil =>
    obtain ⟨subscribers, isOpen⟩ := isLive_iff.mp fresh.live
    rw [start_nil fresh, complete_of_waiting unit isOpen] at member
    simp [fresh.members] at member
  | cons first rest =>
    obtain ⟨started, _⟩ := start_of_fresh fresh (List.cons_ne_nil first rest)
    exact (started.members file).mp member

/-! ### What the desks set going -/

namespace FileDesk

theorem handleReport_isMail (desk : FileDesk) (report : Report) :
    (desk.handleReport report).2.IsMail := by
  rw [handleReport_eq]
  split <;> exact ⟨rfl, rfl, rfl⟩

/-- A parse begins with the first request for a file. -/
theorem handleCompile_effects (desk : FileDesk) (stopped : Bool) (request : CompileRequest) :
    (desk.handleCompile stopped request).2.requests = [] ∧
    (desk.handleCompile stopped request).2.lookups = [] ∧
    (desk.handleCompile stopped request).2.tasks =
      if (desk.units.get? request.file).isSome || stopped then [] else [request.file] := by
  cases known : desk.units.get? request.file <;> cases stopped <;>
    simp [handleCompile, known, update]

end FileDesk

namespace ImportDesk

theorem complete_isMail (desk : ImportDesk) (package : String) (outcome : Outcome) :
    (desk.complete package outcome).2.IsMail := by
  unfold complete
  split <;> exact ⟨rfl, rfl, rfl⟩

theorem handleMember_isMail (desk : ImportDesk) (notice : Notice) :
    (desk.handleMember notice).2.IsMail := by
  unfold handleMember
  split
  · exact ⟨rfl, rfl, rfl⟩
  · split
    · exact ⟨rfl, rfl, rfl⟩
    · exact ⟨rfl, rfl, rfl⟩
    · dsimp only
      split <;> exact ⟨rfl, rfl, rfl⟩

/-- A search begins with the first import of a package. -/
theorem handleImport_effects (desk : ImportDesk) (stopped : Bool) (request : ImportRequest) :
    (desk.handleImport stopped request).2.requests = [] ∧
    (desk.handleImport stopped request).2.tasks = [] ∧
    (desk.handleImport stopped request).2.lookups =
      if (desk.units.get? request.package).isSome || stopped then []
      else [⟨request.package, request.fromFile, request.position⟩] := by
  unfold handleImport
  cases known : desk.units.get? request.package with
  | none => cases stopped <;> simp
  | some unit =>
    dsimp only
    split
    · split <;> simp [update]
    · simp [update]

theorem requestMembers_unreachable_isMail (desk : ImportDesk) (package : String)
    (files : List String) : (desk.requestMembers false package files).2.IsMail := by
  have folded : ∀ (files : List String) (done : ImportDesk × Effects), done.2.IsMail →
      (files.foldl (requestNext false package) done).2.IsMail := by
    intro files
    induction files with
    | nil => exact fun done mail => mail
    | cons file rest ih =>
      intro done mail
      have lost : (requestMember false package done.1 file).2.IsMail := by
        simp only [requestMember, Bool.false_eq_true, if_false]
        exact handleMember_isMail _ _
      exact ih _ (mail.append lost)
  rw [requestMembers_eq]
  exact folded files (desk, {}) ⟨rfl, rfl, rfl⟩

theorem Severs.isSome_eq {desk next : ImportDesk} {deliveries : List Delivery}
    (severs : Severs desk deliveries next) (package : String) :
    (next.units.get? package).isSome = (desk.units.get? package).isSome := by
  induction severs with
  | done => rfl
  | lose known _ ih => rw [ih, Table.isSome_set_known known]

/-- The unit of a package that has been found, as it is started with its members. -/
def started? (desk : ImportDesk) (located : Located) : Option PackageUnit :=
  match located.result with
  | .error _ => none
  | .ok files =>
    match desk.memberCycle located.lookup.package (files.map Path.normalize) with
    | some _ => none
    | none => (desk.units.get? located.lookup.package).map fun unit =>
        (unit.start (files.map Path.normalize)).1

/-- Members are asked for when their package is started, and the file desk can be reached. -/
theorem handleLocated_effects (desk : ImportDesk) (reachable : Bool) (located : Located) :
    (desk.handleLocated reachable located).2.lookups = [] ∧
    (desk.handleLocated reachable located).2.tasks = [] ∧
    (desk.handleLocated reachable located).2.requests =
      if reachable then
        ((desk.started? located).elim [] (·.members)).map fun file => ⟨file, .members⟩
      else [] := by
  unfold handleLocated started?
  cases located.result with
  | error fault =>
    obtain ⟨requests, lookups, tasks⟩ :=
      desk.complete_isMail located.lookup.package (.failed (located.lookup.failure fault))
    simp [requests, lookups, tasks]
  | ok files =>
    dsimp only
    cases closes : desk.memberCycle located.lookup.package (files.map Path.normalize) with
    | some cycle =>
      obtain ⟨requests, lookups, tasks⟩ := desk.complete_isMail located.lookup.package
        (.failed (.cyclicImport located.lookup.fromFile located.lookup.position cycle))
      simp [requests, lookups, tasks]
    | none =>
      cases known : desk.units.get? located.lookup.package with
      | none => simp
      | some unit =>
        cases reachable with
        | true => simp [update, requestMembers_reachable, Effects.append_eq]
        | false =>
          obtain ⟨requests, lookups, tasks⟩ := requestMembers_unreachable_isMail
            (desk.update (unit.start (files.map Path.normalize))).1 located.lookup.package
            (unit.start (files.map Path.normalize)).1.members
          simp only [update, PackageUnit.start_name] at requests lookups tasks
          simp [update, Effects.append_eq, requests, lookups, tasks]

end ImportDesk

namespace FileTask

@[simp] theorem isParsing_new (file : String) : isParsing { file } = true := rfl

@[simp] theorem isParsing_resolving (file : String) (unsent : List ImportSite)
    (pending : List String) : isParsing ⟨file, .resolving unsent pending⟩ = false := rfl

@[simp] theorem isParsing_finished (file : String) : isParsing ⟨file, .finished⟩ = false := rfl

@[simp] theorem isParsing_finishParse (task : FileTask) (result : Except Failure ParsedFile) :
    (task.finishParse result).1.isParsing = false := by
  cases result with
  | error failure => rfl
  | ok parsed => by_cases none : parsed.imports = [] <;> simp [finishParse, none]

end FileTask

/-! ### Logs -/

namespace Event

def parsed? : Event → Option String
  | .parsed file _ => some file
  | _ => none

def found? : Event → Option String
  | .found package _ => some package
  | _ => none

end Event

namespace State

/-- What the desk that handles an event sets going. -/
def effects (s : State) : Event → Effects
  | .compile index =>
    (s.requests[index]?).elim {} fun request => (s.files.handleCompile s.shutdown.raised request).2
  | .report => s.reports.head?.elim {} fun report => (s.files.handleReport report).2
  | .resolve =>
    s.importRequests.head?.elim {} fun request =>
      (s.imports.handleImport s.shutdown.raised request).2
  | .located =>
    s.located.head?.elim {} fun located => (s.imports.handleLocated s.shutdown.owned located).2
  | .receive index =>
    match s.mail[index]? with
    | some ⟨.members, notice⟩ => (s.imports.handleMember notice).2
    | _ => {}
  | _ => {}

def isParsing (s : State) (file : String) : Bool := (s.tasks.get? file).any (·.isParsing)

/-- The packages whose unit is started in an event. -/
def starts (s : State) : Event → List String
  | .located =>
    s.located.head?.elim [] fun located =>
      ((s.imports.started? located).map fun _ => located.lookup.package).toList
  | _ => []

/-- The members that are asked for in an event, each with its package. -/
def memberRequests (s : State) : Event → List (String × String)
  | .located =>
    s.located.head?.elim [] fun located =>
      (s.effects .located).requests.map fun request => (located.lookup.package, request.file)
  | _ => []

variable {s next : State} {event : Event}

theorem effects_receive_isMail (s : State) (index : Nat) : (s.effects (.receive index)).IsMail := by
  simp only [effects]
  split
  · exact ImportDesk.handleMember_isMail _ _
  · exact ⟨rfl, rfl, rfl⟩

theorem effects_report_isMail (s : State) : (s.effects .report).IsMail := by
  simp only [effects]
  cases s.reports.head? with
  | none => exact ⟨rfl, rfl, rfl⟩
  | some report => exact FileDesk.handleReport_isMail _ _

theorem effects_tasks_eq_nil (other : ∀ index, event ≠ .compile index) :
    (s.effects event).tasks = [] := by
  cases event with
  | compile index => exact (other index rfl).elim
  | report => exact s.effects_report_isMail.tasks
  | receive index => exact (s.effects_receive_isMail index).tasks
  | resolve =>
    simp only [effects]
    cases s.importRequests.head? with
    | none => rfl
    | some request => exact (ImportDesk.handleImport_effects _ _ _).2.1
  | located =>
    simp only [effects]
    cases s.located.head? with
    | none => rfl
    | some located => exact (ImportDesk.handleLocated_effects _ _ _).2.1
  | _ => rfl

theorem effects_lookups_eq_nil (other : event ≠ .resolve) : (s.effects event).lookups = [] := by
  cases event with
  | resolve => exact (other rfl).elim
  | report => exact s.effects_report_isMail.lookups
  | receive index => exact (s.effects_receive_isMail index).lookups
  | compile index =>
    simp only [effects]
    cases s.requests[index]? with
    | none => rfl
    | some request => exact (FileDesk.handleCompile_effects _ _ _).2.1
  | located =>
    simp only [effects]
    cases s.located.head? with
    | none => rfl
    | some located => exact (ImportDesk.handleLocated_effects _ _ _).1
  | _ => rfl

theorem tasks_compile {index : Nat} {request : CompileRequest}
    (read : s.requests[index]? = some request) :
    (s.effects (.compile index)).tasks =
      if (s.files.units.get? request.file).isSome || s.shutdown.raised then [] else [request.file] := by
  simp only [effects, read, Option.elim_some]
  exact (s.files.handleCompile_effects s.shutdown.raised request).2.2

theorem lookups_resolve {request : ImportRequest} {rest : List ImportRequest}
    (read : s.importRequests = request :: rest) :
    (s.effects .resolve).lookups =
      if (s.imports.units.get? request.package).isSome || s.shutdown.raised then []
      else [⟨request.package, request.fromFile, request.position⟩] := by
  simp only [effects, read, List.head?_cons, Option.elim_some]
  exact (s.imports.handleImport_effects s.shutdown.raised request).2.2

/-- A parse begins in the event in which the file becomes known. -/
theorem Step.count_tasks (step : s.Step event next) (file : String) :
    (s.effects event).tasks.count file + (s.files.units.get? file).isSome.toNat =
      (next.files.units.get? file).isSome.toNat := by
  cases step with
  | join read known =>
    rw [tasks_compile read, Table.isSome_set_known known]
    simp [known]
  | refuse read unknown stopped =>
    rw [tasks_compile read]
    simp [stopped]
  | @enlist index request read unknown running =>
    rw [tasks_compile read]
    by_cases same : file = request.file
    · simp [unknown, running, same]
    · simp [unknown, running, same, Ne.symm same]
  | heed read known =>
    rw [effects_tasks_eq_nil (by simp), Table.isSome_set_known known]
    simp
  | _ =>
    rw [effects_tasks_eq_nil (by simp)]
    simp

/-- A search begins in the event in which the package becomes known. -/
theorem Step.count_lookups (step : s.Step event next) (package : String) :
    ((s.effects event).lookups.map (·.package)).count package +
        (s.imports.units.get? package).isSome.toNat =
      (next.imports.units.get? package).isSome.toNat := by
  cases step with
  | reject read known =>
    rw [lookups_resolve read]
    simp [known]
  | follow read known | reuse read known =>
    rw [lookups_resolve read, Table.isSome_set_known known]
    simp [known]
  | turnAway read unknown stopped =>
    rw [lookups_resolve read]
    simp [stopped]
  | @search request rest read unknown running =>
    rw [lookups_resolve read]
    by_cases same : package = request.package
    · simp [unknown, running, same]
    · simp [unknown, running, same, Ne.symm same]
  | lost read known | knot read known | start read known | hear read about waiting known =>
    rw [effects_lookups_eq_nil (by simp), Table.isSome_set_known known]
    simp
  | sever read known found safe released severs =>
    rw [effects_lookups_eq_nil (by simp), severs.isSome_eq, Table.isSome_set_known known]
    simp
  | _ =>
    rw [effects_lookups_eq_nil (by simp)]
    simp

/-- A parse runs from the event in which it begins to the one in which it ends. -/
theorem Step.count_parsed (tidy : s.Tidy) (step : s.Step event next) (file : String) :
    event.parsed?.toList.count file + (next.isParsing file).toNat =
      (s.effects event).tasks.count file + (s.isParsing file).toNat := by
  cases step with
  | join read known =>
    rw [tasks_compile read]
    simp [known, Event.parsed?, isParsing]
  | refuse read unknown stopped =>
    rw [tasks_compile read]
    simp [stopped, Event.parsed?, isParsing]
  | @enlist index request read unknown running =>
    have idle : s.tasks.get? request.file = none := by
      refine Option.eq_none_iff_forall_ne_some.mpr fun task known => ?_
      obtain ⟨unit, isUnit⟩ := tidy.taskUnit known
      simp [unknown] at isUnit
    rw [tasks_compile read]
    by_cases same : file = request.file
    · simp [Event.parsed?, isParsing, unknown, running, same, idle]
    · simp [Event.parsed?, isParsing, unknown, running, same, Ne.symm same]
  | @parsed other result known =>
    rw [effects_tasks_eq_nil (by simp)]
    by_cases same : file = other
    · subst same
      simp [Event.parsed?, isParsing, known]
    · simp [Event.parsed?, isParsing, same, Ne.symm same]
  | @ask other site rest pending known | @giveUp other site rest pending known =>
    rw [effects_tasks_eq_nil (by simp)]
    by_cases same : file = other
    · simp [Event.parsed?, isParsing, same, known]
    · simp [Event.parsed?, isParsing, same]
  | @relay index notice other pending read known =>
    rw [effects_tasks_eq_nil (by simp)]
    by_cases same : file = other
    · subst same
      by_cases last : notice.outcome.isFailed || pending.filter (· ≠ notice.unit.name) = [] <;>
        simp only [last] <;> simp [Event.parsed?, isParsing, known]
    · simp [Event.parsed?, isParsing, same]
  | _ =>
    rw [effects_tasks_eq_nil (by simp)]
    simp [Event.parsed?, isParsing]

theorem count_filter_package (lookups : List Lookup) (package other : String) :
    ((lookups.filter (·.package ≠ package)).map (·.package)).count other =
      if other = package then 0 else (lookups.map (·.package)).count other := by
  simp only [List.count, List.countP_map, List.countP_filter]
  split
  · rename_i same
    exact List.countP_eq_zero.mpr fun lookup _ => by simp [same]
  · rename_i apart
    refine List.countP_congr fun lookup _ => ?_
    simp only [Function.comp_apply, Bool.and_eq_true, beq_iff_eq, decide_eq_true_eq]
    exact ⟨And.left, fun same => ⟨same, fun equal => apart (same ▸ equal)⟩⟩

/-- A search runs from the event in which it begins to the one in which it ends. -/
theorem Step.count_found (searched : s.Searched) (step : s.Step event next) (package : String) :
    event.found?.toList.count package + (next.lookups.map (·.package)).count package =
      ((s.effects event).lookups.map (·.package)).count package +
        (s.lookups.map (·.package)).count package := by
  cases step with
  | reject read known | follow read known | reuse read known =>
    rw [lookups_resolve read]
    simp [known, Event.found?]
  | turnAway read unknown stopped =>
    rw [lookups_resolve read]
    simp [stopped, Event.found?]
  | search read unknown running =>
    rw [lookups_resolve read]
    simp [unknown, running, Event.found?, Nat.add_comm]
  | @found other result lookup searching same =>
    rw [effects_lookups_eq_nil (by simp), count_filter_package]
    have unique : (s.lookups.map (·.package)).Nodup := List.Nodup.of_append_left searched.unique
    by_cases this : package = other
    · have once := List.count_eq_one_of_mem unique (List.mem_map_of_mem searching)
      simp [Event.found?, this, ← same, once]
    · simp [Event.found?, this, Ne.symm this]
  | _ =>
    rw [effects_lookups_eq_nil (by simp)]
    simp [Event.found?]

theorem count_starts_le {located : Located} {rest : List Located}
    (read : s.located = located :: rest) (package : String) :
    (s.starts .located).count package ≤ [located.lookup.package].count package := by
  simp only [starts, read, List.head?_cons, Option.elim_some]
  cases s.imports.started? located <;> simp

/-- A package is started at most once for each search. -/
theorem Step.count_starts (step : s.Step event next) (package : String) :
    (s.starts event).count package + next.searches.count package ≤
      ((s.effects event).lookups.map (·.package)).count package + s.searches.count package := by
  cases step with
  | search read unknown running =>
    rw [lookups_resolve read]
    simp only [starts, searches, unknown, running, List.map_append, List.count_append,
      List.count_nil, Option.isSome_none, Bool.or_self, Bool.false_eq_true, if_false, List.map_cons,
      List.map_nil]
    omega
  | @found other result lookup searching same =>
    have inside := List.count_pos_iff.mpr (List.mem_map_of_mem (f := (·.package)) searching)
    simp only [starts, searches, List.count_nil, List.count_append, List.map_append,
      count_filter_package, List.map_cons, List.map_nil, List.count_singleton, same]
    rw [same] at inside
    by_cases this : other = package
    · subst this
      simp
      omega
    · simp [this, Ne.symm this]
  | lost read | knot read | start read | sever read =>
    have bound := count_starts_le read package
    rw [searches_of_located read]
    simp only [searches, List.count_append, List.count_cons, List.count_nil] at bound ⊢
    omega
  | _ => simp [starts, searches]

theorem members_of_started (searched : s.Searched) {located : Located} {rest : List Located}
    {unit : PackageUnit} (read : s.located = located :: rest)
    (started : s.imports.started? located = some unit) :
    unit.members.Nodup ∧ ∃ files, located.result = .ok files ∧
      ∀ file ∈ unit.members, file ∈ files.map Path.normalize := by
  unfold ImportDesk.started? at started
  split at started
  · simp at started
  · rename_i files found
    split at started
    · simp at started
    · obtain ⟨before, known, rfl⟩ := Option.map_eq_some_iff.mp started
      have fresh := searched.fresh (by simp [searches, read]) known
      exact ⟨(fresh.members_of_start _).1, files, found, fun _ => fresh.mem_of_mem_members⟩

theorem memberRequests_located {located : Located} {rest : List Located}
    (read : s.located = located :: rest) :
    s.memberRequests .located = if s.shutdown.owned then
      ((s.imports.started? located).elim [] (·.members)).map (Prod.mk located.lookup.package)
      else [] := by
  have requests := (s.imports.handleLocated_effects s.shutdown.owned located).2.2
  simp only [memberRequests, effects, read, List.head?_cons, Option.elim_some, requests]
  split
  · rw [List.map_map]
    rfl
  · rfl

/-- A package asks for its members when it is started, for each of them once. -/
theorem count_memberRequests_le (searched : s.Searched) (event : Event) (package file : String) :
    (s.memberRequests event).count (package, file) ≤ (s.starts event).count package := by
  cases event with
  | located =>
    cases read : s.located with
    | nil => simp [memberRequests, read]
    | cons located rest =>
      rw [memberRequests_located read]
      simp only [starts, read, List.head?_cons, Option.elim_some]
      cases s.shutdown.owned with
      | false => simp
      | true =>
        cases started : s.imports.started? located with
        | none => simp
        | some unit =>
          obtain ⟨unique, _⟩ := members_of_started searched read started
          have pairs : (unit.members.map (Prod.mk located.lookup.package)).Nodup :=
            List.Nodup.map (fun _ _ equal => (Prod.mk.inj equal).2) unique
          by_cases same : located.lookup.package = package
          · have once := List.nodup_iff_count_le_one.mp pairs (package, file)
            simpa [same] using once
          · have foreign : (package, file) ∉ unit.members.map (Prod.mk located.lookup.package) := by
              simp [same]
            rw [if_pos rfl, Option.elim_some, List.count_eq_zero.mpr foreign]
            exact Nat.zero_le _
  | _ => simp [memberRequests]

end State

/-!
### Whole runs

The parses and searches of a run that have begun and those that have ended, the packages whose unit
was started, and the members that packages have asked for.
-/

namespace Trace

def parses (trace : Trace) : List String := trace.flatMap fun (s, event) => (s.effects event).tasks

def parsed (trace : Trace) : List String := trace.flatMap fun (_, event) => event.parsed?.toList

def lookups (trace : Trace) : List String :=
  trace.flatMap fun (s, event) => (s.effects event).lookups.map (·.package)

def found (trace : Trace) : List String := trace.flatMap fun (_, event) => event.found?.toList

def starts (trace : Trace) : List String := trace.flatMap fun (s, event) => s.starts event

def memberRequests (trace : Trace) : List (String × String) :=
  trace.flatMap fun (s, event) => s.memberRequests event

variable (trace : Trace) (s : State) (event : Event)

theorem parses_concat :
    Trace.parses (trace ++ [(s, event)]) = trace.parses ++ (s.effects event).tasks := by
  simp [parses]

theorem parsed_concat :
    Trace.parsed (trace ++ [(s, event)]) = trace.parsed ++ event.parsed?.toList := by
  simp [parsed]

theorem lookups_concat : Trace.lookups (trace ++ [(s, event)]) =
    trace.lookups ++ (s.effects event).lookups.map (·.package) := by
  simp [lookups]

theorem found_concat :
    Trace.found (trace ++ [(s, event)]) = trace.found ++ event.found?.toList := by
  simp [found]

theorem starts_concat :
    Trace.starts (trace ++ [(s, event)]) = trace.starts ++ s.starts event := by
  simp [starts]

theorem memberRequests_concat : Trace.memberRequests (trace ++ [(s, event)]) =
    trace.memberRequests ++ s.memberRequests event := by
  simp [memberRequests]

end Trace

/-- The logs of a run, counted against the state it leads to. -/
structure Ledger (trace : Trace) (s : State) : Prop where
  parses : ∀ file, trace.parses.count file = (s.files.units.get? file).isSome.toNat
  parsed : ∀ file, trace.parsed.count file + (s.isParsing file).toNat = trace.parses.count file
  lookups : ∀ package, trace.lookups.count package = (s.imports.units.get? package).isSome.toNat
  found : ∀ package, trace.found.count package + (s.lookups.map (·.package)).count package =
    trace.lookups.count package
  starts : ∀ package, trace.starts.count package + s.searches.count package ≤
    trace.lookups.count package
  memberRequests : ∀ package file,
    trace.memberRequests.count (package, file) ≤ trace.starts.count package

theorem Ledger.step {trace : Trace} {s next : State} {event : Event} (ledger : Ledger trace s)
    (tidy : s.Tidy) (searched : s.Searched) (step : s.Step event next) :
    Ledger (trace ++ [(s, event)]) next where
  parses file := by
    have before := ledger.parses file
    have now := step.count_tasks file
    rw [Trace.parses_concat, List.count_append]
    omega
  parsed file := by
    have before := ledger.parsed file
    have now := step.count_parsed tidy file
    rw [Trace.parses_concat, Trace.parsed_concat, List.count_append, List.count_append]
    omega
  lookups package := by
    have before := ledger.lookups package
    have now := step.count_lookups package
    rw [Trace.lookups_concat, List.count_append]
    omega
  found package := by
    have before := ledger.found package
    have now := step.count_found searched package
    rw [Trace.lookups_concat, Trace.found_concat, List.count_append, List.count_append]
    omega
  starts package := by
    have before := ledger.starts package
    have now := step.count_starts package
    rw [Trace.lookups_concat, Trace.starts_concat, List.count_append, List.count_append]
    omega
  memberRequests package file := by
    have before := ledger.memberRequests package file
    have now := State.count_memberRequests_le searched event package file
    rw [Trace.memberRequests_concat, Trace.starts_concat, List.count_append, List.count_append]
    omega

namespace Ledger

variable {trace : Trace} {s : State} (ledger : Ledger trace s)
include ledger

theorem mem_parses {file : String} :
    file ∈ trace.parses ↔ ∃ unit, s.files.units.get? file = some unit := by
  rw [← List.count_pos_iff, ledger.parses file, ← Option.isSome_iff_exists]
  cases (s.files.units.get? file).isSome <;> simp

theorem mem_parses_of_parsed {file : String} (ended : file ∈ trace.parsed) : file ∈ trace.parses := by
  rw [← List.count_pos_iff] at ended ⊢
  have count := ledger.parsed file
  omega

theorem nodup_parses : trace.parses.Nodup := by
  refine List.nodup_iff_count_le_one.mpr fun file => ?_
  rw [ledger.parses file]
  exact Bool.toNat_le _

theorem nodup_parsed : trace.parsed.Nodup := by
  refine List.nodup_iff_count_le_one.mpr fun file => ?_
  have once := List.nodup_iff_count_le_one.mp ledger.nodup_parses file
  have count := ledger.parsed file
  omega

theorem nodup_lookups : trace.lookups.Nodup := by
  refine List.nodup_iff_count_le_one.mpr fun package => ?_
  rw [ledger.lookups package]
  exact Bool.toNat_le _

theorem nodup_found : trace.found.Nodup := by
  refine List.nodup_iff_count_le_one.mpr fun package => ?_
  have once := List.nodup_iff_count_le_one.mp ledger.nodup_lookups package
  have count := ledger.found package
  omega

theorem nodup_starts : trace.starts.Nodup := by
  refine List.nodup_iff_count_le_one.mpr fun package => ?_
  have once := List.nodup_iff_count_le_one.mp ledger.nodup_lookups package
  have count := ledger.starts package
  omega

theorem nodup_memberRequests : trace.memberRequests.Nodup := by
  refine List.nodup_iff_count_le_one.mpr fun (package, file) => ?_
  have once := List.nodup_iff_count_le_one.mp ledger.nodup_starts package
  exact (ledger.memberRequests package file).trans once

end Ledger

theorem Run.ledger {frontend : Frontend} {keepGoing : Bool} {trace : Trace} {s : State}
    (run : Run frontend keepGoing trace s) : Ledger trace s := by
  induction run with
  | start =>
    constructor <;> simp [Trace.parses, Trace.parsed, Trace.lookups, Trace.found, Trace.starts,
      Trace.memberRequests, State.isParsing, State.searches]
  | step earlier _ taken ih =>
    exact ih.step earlier.tidy earlier.searched (State.step_of_tidy earlier.tidy taken)

end Build

end GoFront
