import GoFront.Build.FileTask
import GoFront.Proofs.Build.FileLifecycle
import Mathlib.Data.List.Nodup
import Mathlib.Data.List.Perm.Subperm

/-!
The course of a file's task from the parse to its last report. Whatever happens to the task and in
whatever order, it reports the parse, asks for a front part of the imports and passes notices on.
The task and the unit of the file keep two lists of the imports that are still missing. They run
out together: when the task is over, what it has reported ends the unit.
-/
namespace GoFront.Build

namespace FileTask

/-! ### Turns -/

inductive Turn where
  /-- The parse is done. -/
  | parsed (result : Except Failure ParsedFile)
  /-- The task may ask for its next import. It sees if the compiler is stopped and if the import
  desk can be reached. -/
  | ask (stopped reachable : Bool)
  | answer (notice : Notice)
  /-- No answer can come any more. -/
  | close

/-- The task gives up at its turn to ask. -/
def Turn.stops : Turn → Bool
  | ask stopped reachable => stopped || !reachable
  | _ => false

def Turn.answer? : Turn → Option Notice
  | answer notice => some notice
  | _ => none

def Message.request? : Message → Option ImportRequest
  | .request asked => some asked
  | .report _ => none

def Message.report? : Message → Option Report
  | .request _ => none
  | .report said => some said

/-- The notice that a report passes on. -/
def relayed? : Report → Option Notice
  | .parsed _ _ => none
  | .importResolved _ notice => some notice

def answers (turns : List Turn) : List Notice := turns.filterMap Turn.answer?

def requests (sent : List Message) : List ImportRequest := sent.filterMap Message.request?

def reports (sent : List Message) : List Report := sent.filterMap Message.report?

def relayed (sent : List Message) : List Notice := (reports sent).filterMap relayed?

/-- The task after its turn and what it sends, or `none` if it is not ready for the turn. -/
def take? (task : FileTask) : Turn → Option (FileTask × Message)
  | .parsed result =>
    if task.isParsing then
      let (task, report) := task.finishParse result
      some (task, .report report)
    else none
  | .ask stopped reachable => task.sendNext? stopped reachable
  | .answer notice => (task.receive? notice).map fun (task, report) => (task, .report report)
  | .close => task.repliesClosed?.map fun (task, report) => (task, .report report)

/-- The task of a file after these turns, and all that it has sent. -/
inductive Course (file : String) : List Turn → List Message → FileTask → Prop where
  | start : Course file [] [] { file }
  | turn {turns : List Turn} {sent : List Message} {task next : FileTask} {turn : Turn}
      {message : Message} (earlier : Course file turns sent task)
      (taken : task.take? turn = some (next, message)) :
      Course file (turns ++ [turn]) (sent ++ [message]) next

/-- The request for the package of an import. -/
def asks (file : String) (site : ImportSite) : Message :=
  .request ⟨site.package, file, site.position, .task file⟩

def tells (file : String) (notice : Notice) : Message := .report (.importResolved file notice)

/-- What a task does at its turn. -/
inductive Takes (file : String) : TaskPhase → Turn → TaskPhase → Message → Prop where
  | refuse (failure : Failure) :
      Takes file .parsing (.parsed (.error failure)) .finished
        (.report (.parsed file (.error failure)))
  | alone {parsed : ParsedFile} (none : parsed.imports = []) :
      Takes file .parsing (.parsed (.ok parsed)) .finished (.report (.parsed file (.ok parsed)))
  | parse {parsed : ParsedFile} (some : parsed.imports ≠ []) :
      Takes file .parsing (.parsed (.ok parsed)) (.resolving parsed.imports [])
        (.report (.parsed file (.ok parsed)))
  | ask (site : ImportSite) (unsent : List ImportSite) (pending : List String) :
      Takes file (.resolving (site :: unsent) pending) (.ask false true)
        (.resolving unsent (pending ++ [site.package])) (asks file site)
  | giveUp (site : ImportSite) (unsent : List ImportSite) (pending : List String)
      {stopped reachable : Bool} (stops : (Turn.ask stopped reachable).stops = true)
      (failure : Failure) :
      Takes file (.resolving (site :: unsent) pending) (.ask stopped reachable) .finished
        (tells file (.failed (.package site.package) failure))
  | last {pending : List String} {notice : Notice}
      (ends : notice.outcome.isFailed = true ∨ pending.filter (· ≠ notice.about) = []) :
      Takes file (.resolving [] pending) (.answer notice) .finished (tells file notice)
  | hear {pending : List String} {notice : Notice} (ok : notice.outcome = .ok)
      (more : pending.filter (· ≠ notice.about) ≠ []) :
      Takes file (.resolving [] pending) (.answer notice)
        (.resolving [] (pending.filter (· ≠ notice.about))) (tells file notice)
  | desert (package : String) (others : List String) :
      Takes file (.resolving [] (package :: others)) .close .finished
        (tells file (.disconnected (.package package)))

variable {file : String} {phase after : TaskPhase} {turn : Turn} {turns : List Turn}
  {message : Message} {sent : List Message} {task : FileTask} {parsed : ParsedFile}
  {asked : List ImportSite} {heard told : List Notice} {notice : Notice}

theorem takes_of_sendNext? {stopped reachable : Bool} {next : FileTask}
    (taken : sendNext? ⟨file, phase⟩ stopped reachable = some (next, message)) :
    ∃ after, next = ⟨file, after⟩ ∧ Takes file phase (.ask stopped reachable) after message := by
  match phase with
  | .parsing | .finished | .resolving [] _ => simp [sendNext?] at taken
  | .resolving (site :: unsent) pending =>
    unfold sendNext? at taken
    dsimp only at taken
    split at taken
    next isStopped =>
      obtain ⟨rfl, rfl⟩ := Prod.mk.inj (Option.some.inj taken)
      exact ⟨_, rfl, .giveUp site unsent pending (by simp [Turn.stops, isStopped]) _⟩
    next goesOn =>
      split at taken
      next away =>
        obtain ⟨rfl, rfl⟩ := Prod.mk.inj (Option.some.inj taken)
        exact ⟨_, rfl, .giveUp site unsent pending (by rw [Turn.stops, away, Bool.or_true]) _⟩
      next there =>
        obtain ⟨rfl, rfl⟩ := Prod.mk.inj (Option.some.inj taken)
        obtain rfl : stopped = false := by simpa using goesOn
        obtain rfl : reachable = true := by simpa using there
        exact ⟨_, rfl, .ask site unsent pending⟩

theorem takes_of_take? {next : FileTask} (taken : take? ⟨file, phase⟩ turn = some (next, message)) :
    ∃ after, next = ⟨file, after⟩ ∧ Takes file phase turn after message := by
  cases turn with
  | ask stopped reachable => exact takes_of_sendNext? taken
  | parsed result =>
    cases phase with
    | resolving => simp [take?, isParsing] at taken
    | finished => simp [take?, isParsing] at taken
    | parsing =>
      obtain ⟨rfl, rfl⟩ := Prod.mk.inj (Option.some.inj taken)
      cases result with
      | error failure => exact ⟨_, rfl, .refuse failure⟩
      | ok parsed =>
        refine ⟨_, rfl, ?_⟩
        dsimp only
        split
        next none => exact .alone none
        next some => exact .parse some
  | answer notice =>
    cases phase with
    | parsing => simp [take?, receive?] at taken
    | finished => simp [take?, receive?] at taken
    | resolving unsent pending =>
      cases unsent with
      | cons site rest => simp [take?, receive?] at taken
      | nil =>
        obtain ⟨rfl, rfl⟩ := Prod.mk.inj (Option.some.inj taken)
        refine ⟨_, rfl, ?_⟩
        split
        next ends =>
          rw [Bool.or_eq_true, decide_eq_true_eq] at ends
          exact .last ends
        next more =>
          rw [Bool.or_eq_true, decide_eq_true_eq, not_or] at more
          have ok : notice.outcome = .ok := by
            cases outcome : notice.outcome with
            | ok => rfl
            | failed failure => exact absurd (by rw [outcome]; rfl) more.1
          exact .hear ok more.2
  | close =>
    match phase with
    | .parsing | .finished | .resolving (_ :: _) _ | .resolving [] [] =>
      simp [take?, repliesClosed?] at taken
    | .resolving [] (package :: others) =>
      obtain ⟨rfl, rfl⟩ := Prod.mk.inj (Option.some.inj taken)
      exact ⟨_, rfl, .desert package others⟩

/-! ### Whole courses -/

/-- The turns of a task that parses a file, asks for these imports and hears these notices. -/
def turnsOf (parsed : ParsedFile) (asked : List ImportSite) (heard : List Notice) : List Turn :=
  .parsed (.ok parsed) :: (asked.map (fun _ => .ask false true) ++ heard.map .answer)

/-- What a task says that has parsed a file, asks for these imports and passes these notices on. -/
def said (file : String) (parsed : ParsedFile) (asked : List ImportSite) (told : List Notice) :
    List Message :=
  .report (.parsed file (.ok parsed)) :: (asked.map (asks file) ++ told.map (tells file))

/-- The imported packages that none of the notices is about. -/
def missing (parsed : ParsedFile) (heard : List Notice) : List String :=
  (parsed.imports.map (·.package)).filter (· ∉ heard.map Notice.about)

/-- The courses that a task can take, by the phase in which it is. -/
inductive Transcript (file : String) : List Turn → List Message → TaskPhase → Prop where
  | parsing : Transcript file [] [] .parsing
  | refused (failure : Failure) :
      Transcript file [.parsed (.error failure)] [.report (.parsed file (.error failure))] .finished
  | alone {parsed : ParsedFile} (none : parsed.imports = []) :
      Transcript file (turnsOf parsed [] []) (said file parsed [] []) .finished
  | asking {parsed : ParsedFile} {asked unsent : List ImportSite} {site : ImportSite}
      (imports : parsed.imports = asked ++ site :: unsent) :
      Transcript file (turnsOf parsed asked []) (said file parsed asked [])
        (.resolving (site :: unsent) (asked.map (·.package)))
  | gaveUp {parsed : ParsedFile} {asked unsent : List ImportSite} {site : ImportSite}
      {stopped reachable : Bool} {failure : Failure}
      (imports : parsed.imports = asked ++ site :: unsent)
      (stops : (Turn.ask stopped reachable).stops = true) :
      Transcript file (turnsOf parsed asked [] ++ [.ask stopped reachable])
        (said file parsed asked [.failed (.package site.package) failure]) .finished
  | collecting {parsed : ParsedFile} {heard : List Notice} {pending : List String}
      (ok : ∀ notice ∈ heard, notice.outcome = .ok) (waits : pending = missing parsed heard) :
      Transcript file (turnsOf parsed parsed.imports heard) (said file parsed parsed.imports heard)
        (.resolving [] pending)
  | answered {parsed : ParsedFile} {heard : List Notice} {notice : Notice}
      (ok : ∀ notice ∈ heard, notice.outcome = .ok)
      (ends : notice.outcome.isFailed = true ∨ missing parsed (heard ++ [notice]) = []) :
      Transcript file (turnsOf parsed parsed.imports (heard ++ [notice]))
        (said file parsed parsed.imports (heard ++ [notice])) .finished
  | deserted {parsed : ParsedFile} {heard : List Notice} {package : String}
      (ok : ∀ notice ∈ heard, notice.outcome = .ok) (waits : package ∈ missing parsed heard) :
      Transcript file (turnsOf parsed parsed.imports heard ++ [.close])
        (said file parsed parsed.imports (heard ++ [.disconnected (.package package)])) .finished

theorem turnsOf_ask (parsed : ParsedFile) (asked : List ImportSite) (site : ImportSite) :
    turnsOf parsed asked [] ++ [.ask false true] = turnsOf parsed (asked ++ [site]) [] := by
  simp [turnsOf]

theorem turnsOf_answer (parsed : ParsedFile) (asked : List ImportSite) (heard : List Notice)
    (notice : Notice) :
    turnsOf parsed asked heard ++ [.answer notice] = turnsOf parsed asked (heard ++ [notice]) := by
  simp [turnsOf]

theorem said_asks (file : String) (parsed : ParsedFile) (asked : List ImportSite)
    (site : ImportSite) :
    said file parsed asked [] ++ [asks file site] = said file parsed (asked ++ [site]) [] := by
  simp [said]

theorem said_tells (file : String) (parsed : ParsedFile) (asked : List ImportSite)
    (told : List Notice) (notice : Notice) :
    said file parsed asked told ++ [tells file notice] =
      said file parsed asked (told ++ [notice]) := by
  simp [said]

theorem missing_nil (parsed : ParsedFile) : missing parsed [] = parsed.imports.map (·.package) :=
  List.filter_eq_self.mpr fun _ _ => by simp

theorem missing_concat (parsed : ParsedFile) (heard : List Notice) (notice : Notice) :
    missing parsed (heard ++ [notice]) = (missing parsed heard).filter (· ≠ notice.about) := by
  rw [missing, missing, List.filter_filter]
  refine List.filter_congr fun package _ => ?_
  rw [Bool.eq_iff_iff]
  simp [and_comm]

/-- A further turn leads from one of these courses to another one. -/
theorem Transcript.concat (earlier : Transcript file turns sent phase)
    (takes : Takes file phase turn after message) :
    Transcript file (turns ++ [turn]) (sent ++ [message]) after := by
  cases earlier with
  | refused | alone | gaveUp | answered | deserted => cases takes
  | parsing =>
    cases takes with
    | refuse failure => exact .refused failure
    | alone none => exact .alone none
    | @parse parsed some =>
      obtain ⟨site, unsent, imports⟩ := List.exists_cons_of_ne_nil some
      rw [imports]
      exact @Transcript.asking file parsed [] unsent site imports
  | @asking parsed asked unsent site imports =>
    cases takes with
    | giveUp _ _ _ stops failure =>
      rw [said_tells]
      exact .gaveUp imports stops
    | ask =>
      have front : parsed.imports = (asked ++ [site]) ++ unsent := by simp [imports]
      have pending : asked.map (·.package) ++ [site.package] =
          (asked ++ [site]).map (·.package) := by simp
      rw [turnsOf_ask parsed asked site, said_asks, pending]
      cases unsent with
      | cons next unsent => exact .asking front
      | nil =>
        rw [List.append_nil] at front
        rw [← front]
        exact .collecting (by simp) (missing_nil parsed).symm
  | @collecting parsed heard pending ok waits =>
    cases takes with
    | last ends =>
      rw [waits, ← missing_concat] at ends
      rw [turnsOf_answer, said_tells]
      exact .answered ok ends
    | hear good more =>
      rw [turnsOf_answer, said_tells, waits, ← missing_concat]
      refine .collecting ?_ rfl
      simpa [or_imp, forall_and] using ⟨ok, good⟩
    | desert package others =>
      rw [said_tells]
      exact .deserted ok (waits ▸ List.mem_cons_self)

theorem Course.transcript (course : Course file turns sent task) :
    task.file = file ∧ Transcript file turns sent task.phase := by
  induction course with
  | start => exact ⟨rfl, .parsing⟩
  | @turn turns sent task next turn message earlier taken ih =>
    obtain ⟨rfl, transcript⟩ := ih
    obtain ⟨after, rfl, takes⟩ := takes_of_take? taken
    exact ⟨rfl, transcript.concat takes⟩

/-! ### What is asked for -/

theorem requests_said (file : String) (parsed : ParsedFile) (asked : List ImportSite)
    (told : List Notice) : requests (said file parsed asked told) =
      asked.map fun site => ⟨site.package, file, site.position, .task file⟩ := by
  have silent : (told.map (tells file)).filterMap Message.request? = [] := by
    simp [List.filterMap_eq_nil_iff, tells, Message.request?]
  rw [requests, said, List.filterMap_cons_none rfl, List.filterMap_append, silent,
    List.append_nil, List.filterMap_map, ← List.filterMap_eq_map]
  rfl

theorem reports_said (file : String) (parsed : ParsedFile) (asked : List ImportSite)
    (told : List Notice) : reports (said file parsed asked told) =
      .parsed file (.ok parsed) :: told.map (.importResolved file) := by
  have silent : (asked.map (asks file)).filterMap Message.report? = [] := by
    simp [List.filterMap_eq_nil_iff, asks, Message.report?]
  have first : Message.report? (.report (.parsed file (.ok parsed))) =
    some (.parsed file (.ok parsed)) := rfl
  rw [reports, said, List.filterMap_cons_some first, List.filterMap_append, silent,
    List.nil_append, List.filterMap_map, ← List.filterMap_eq_map]
  rfl

theorem relayed_said (file : String) (parsed : ParsedFile) (asked : List ImportSite)
    (told : List Notice) : relayed (said file parsed asked told) = told := by
  rw [relayed, reports_said, List.filterMap_cons_none rfl, List.filterMap_map]
  exact List.filterMap_some

theorem answers_turnsOf (parsed : ParsedFile) (asked : List ImportSite) (heard : List Notice) :
    answers (turnsOf parsed asked heard) = heard := by
  have silent : (asked.map fun _ => Turn.ask false true).filterMap Turn.answer? = [] := by
    simp [List.filterMap_eq_nil_iff, Turn.answer?]
  rw [answers, turnsOf, List.filterMap_cons_none rfl, List.filterMap_append, silent,
    List.nil_append, List.filterMap_map]
  exact List.filterMap_some

theorem eq_of_mem_turnsOf {other : ParsedFile}
    (mem : Turn.parsed (.ok other) ∈ turnsOf parsed asked heard) : other = parsed := by
  simpa [turnsOf] using mem

/-! ### What is passed on -/

/-- Each request is answered at most once, and nothing else is answered. -/
def Fair (turns : List Turn) (sent : List Message) : Prop :=
  ((answers turns).map (·.unit)).Subperm
    ((requests sent).map fun request => .package request.package)

theorem Fair.about {file : String} (fair : Fair turns (said file parsed asked told)) :
    ((answers turns).map Notice.about).Subperm (asked.map (·.package)) := by
  obtain ⟨units, perm, sub⟩ := fair
  have named := sub.map UnitName.name
  have about := perm.map UnitName.name
  rw [requests_said, List.map_map, List.map_map] at named
  rw [List.map_map] at about
  exact ⟨units.map UnitName.name, about, named⟩

/-- What a task has asked for and passed on that has parsed a file. -/
structure Account (parsed : ParsedFile) (turns : List Turn) (phase : TaskPhase)
    (asked : List ImportSite) (told : List Notice) : Prop where
  front : asked <+: parsed.imports
  all : phase = .finished → (∀ turn ∈ turns, turn.stops = false) → asked = parsed.imports
  settled : told.Pairwise fun earlier _ => earlier.outcome = .ok
  fits : (told.map Notice.about).Subperm (parsed.imports.map (·.package))
  decides : phase = .finished → (∃ notice ∈ told, notice.outcome.isFailed = true) ∨
    ∀ package ∈ parsed.imports.map (·.package), package ∈ told.map Notice.about

theorem missing_eq_nil : missing parsed heard = [] ↔
    ∀ package ∈ parsed.imports.map (·.package), package ∈ heard.map Notice.about := by
  simp [missing, List.filter_eq_nil_iff]

/-- A failure that the task makes up is about a package that no notice has been about. -/
theorem fits_concat {package : String} {failure : Failure}
    (fits : (heard.map Notice.about).Subperm (parsed.imports.map (·.package)))
    (waits : package ∈ missing parsed heard) :
    ((heard ++ [Notice.failed (.package package) failure]).map Notice.about).Subperm
      (parsed.imports.map (·.package)) := by
  obtain ⟨isImport, unheard⟩ := List.mem_filter.mp waits
  rw [decide_eq_true_eq] at unheard
  rw [List.map_append]
  refine (List.perm_append_singleton _ _).subperm_right.mpr ?_
  exact List.cons_subperm_of_not_mem_of_mem unheard isImport fits

theorem settled_of_ok (ok : ∀ notice ∈ heard, notice.outcome = .ok) :
    heard.Pairwise fun earlier _ => earlier.outcome = .ok :=
  List.pairwise_of_forall_mem_list fun earlier mem _ _ => ok earlier mem

theorem settled_concat (ok : ∀ notice ∈ heard, notice.outcome = .ok) (notice : Notice) :
    (heard ++ [notice]).Pairwise fun earlier _ => earlier.outcome = .ok :=
  List.pairwise_append.mpr ⟨settled_of_ok ok, List.pairwise_singleton _ _,
    fun earlier mem _ _ => ok earlier mem⟩

theorem Transcript.account (transcript : Transcript file turns sent phase)
    (fair : Fair turns sent) (success : .parsed (.ok parsed) ∈ turns) :
    ∃ asked told, sent = said file parsed asked told ∧ Account parsed turns phase asked told := by
  cases transcript with
  | parsing => simp at success
  | refused => simp at success
  | @alone parsed none =>
    obtain rfl := eq_of_mem_turnsOf success
    refine ⟨[], [], rfl, by simp, fun _ _ => none.symm, .nil, by simp, fun _ => .inr ?_⟩
    simp [none]
  | @asking _ asked unsent site imports =>
    obtain rfl := eq_of_mem_turnsOf success
    exact ⟨asked, [], rfl, ⟨site :: unsent, imports.symm⟩, nofun, .nil, List.nil_subperm, nofun⟩
  | @gaveUp _ asked unsent site stopped reachable failure imports stops =>
    obtain rfl := eq_of_mem_turnsOf (by simpa using success)
    have waits : site.package ∈ missing parsed [] := by simp [missing_nil, imports]
    refine ⟨asked, _, rfl, ⟨site :: unsent, imports.symm⟩, fun _ goesOn => ?_, ?_, ?_, ?_⟩
    · have last := goesOn (.ask stopped reachable) (by simp)
      rw [stops] at last
      exact absurd last (by decide)
    · exact List.pairwise_singleton _ _
    · exact @fits_concat parsed [] _ _ List.nil_subperm waits
    · exact fun _ => .inl ⟨_, List.mem_singleton_self _, rfl⟩
  | @collecting _ heard pending ok =>
    obtain rfl := eq_of_mem_turnsOf success
    have fits := fair.about
    rw [answers_turnsOf] at fits
    exact ⟨_, heard, rfl, List.prefix_rfl, nofun, settled_of_ok ok, fits, nofun⟩
  | @answered _ heard notice ok ends =>
    obtain rfl := eq_of_mem_turnsOf success
    have fits := fair.about
    rw [answers_turnsOf] at fits
    refine ⟨_, heard ++ [notice], rfl, List.prefix_rfl, fun _ _ => rfl, settled_concat ok _, fits,
      fun _ => ?_⟩
    rcases ends with failed | complete
    · exact .inl ⟨notice, by simp, failed⟩
    · exact .inr (missing_eq_nil.mp complete)
  | @deserted _ heard package ok waits =>
    obtain rfl := eq_of_mem_turnsOf (by simpa using success)
    have fits := fair.about
    have heardOnly : answers (turnsOf parsed parsed.imports heard ++ [.close]) = heard := by
      rw [answers, List.filterMap_append, ← answers, answers_turnsOf]
      exact List.append_nil _
    rw [heardOnly] at fits
    exact ⟨_, heard ++ [_], rfl, List.prefix_rfl, fun _ _ => rfl, settled_concat ok _,
      fits_concat fits waits, fun _ => .inl ⟨_, List.mem_concat_self, rfl⟩⟩

theorem Account.unique (account : Account parsed turns phase asked told) :
    (told.map Notice.about).Nodup := by
  obtain ⟨_, perm, sub⟩ := account.fits
  exact perm.nodup_iff.mp (parsed.nodup_imports.sublist sub)

end FileTask

/-! ### The unit of the file -/

namespace FileUnit

theorem verdict_isSome {imports : List String} {notices : List Notice} :
    (verdict imports notices).isSome ↔
      (∃ notice ∈ firsts Notice.about imports notices, notice.outcome.isFailed = true) ∨
        ∀ package ∈ imports, package ∈ notices.map Notice.about := by
  rw [mem_map_firsts]
  unfold verdict
  split
  next failure found =>
    obtain ⟨notice, counts, failed⟩ := List.exists_of_findSome?_eq_some found
    have isFailed : notice.outcome.isFailed = true := by
      cases outcome : notice.outcome with
      | ok => simp [outcome, Outcome.failure?] at failed
      | failed => rfl
    exact iff_of_true rfl (.inl ⟨notice, counts, isFailed⟩)
  next clean =>
    have ok : ¬∃ notice ∈ firsts Notice.about imports notices, notice.outcome.isFailed = true := by
      rintro ⟨notice, counts, failed⟩
      rw [Outcome.failure?_eq_none.mp (List.findSome?_eq_none_iff.mp clean notice counts)] at failed
      exact absurd failed (by decide)
    rw [or_iff_right ok]
    split
    next present => exact iff_of_true rfl present
    next absent => exact iff_of_false (by decide) absent

def Operation.ofReport : Report → Operation
  | .parsed _ (.ok parsed) => .symbolsAvailable parsed
  | .parsed _ (.error failure) => .complete (.failed failure)
  | .importResolved _ notice => .importResolved notice

theorem foldl_heed (unit : FileUnit) (reports : List Report) :
    reports.foldl (fun unit report => (unit.heed report).1) unit =
      (carryOut perform unit (reports.map Operation.ofReport)).1 := by
  induction reports generalizing unit with
  | nil => rfl
  | cons report rest ih =>
    have same : unit.perform (.ofReport report) = unit.heed report := by
      match report with
      | .parsed _ (.ok _) | .parsed _ (.error _) | .importResolved _ _ => rfl
    rw [List.foldl_cons, ih, ← same]
    rfl

/-- A parse and notices about imports that settle the matter complete the unit. -/
theorem complete_of_verdict {file : String} {parsed : ParsedFile} {told : List Notice}
    (settled : (verdict parsed.file.importPaths told).isSome) :
    (after file ((.parsed file (.ok parsed) :: told.map (.importResolved file)).map
      Operation.ofReport)).status = .complete := by
  have heard : ((told.map (Report.importResolved file)).map Operation.ofReport).filterMap
      Operation.notice? = told := by
    rw [List.map_map, List.filterMap_map]
    exact List.filterMap_some
  have outcome := @after_verdict file [] ((told.map (.importResolved file)).map Operation.ofReport)
    parsed (by simp) (by simp [Operation.ofReport])
  rw [heard] at outcome
  refine status_eq_complete_iff.mpr (Option.isSome_iff_exists.mp ?_)
  rw [List.map_cons]
  exact outcome ▸ settled

end FileUnit

/-! ### The desk of the files -/

namespace FileDesk

/-- What comes to the desk: a request, while the compiler is stopped or not, or a report. -/
inductive Input where
  | compile (stopped : Bool) (request : CompileRequest)
  | report (report : Report)

def Input.report? : Input → Option Report
  | .compile _ _ => none
  | .report said => some said

def handle (desk : FileDesk) : Input → FileDesk × Effects
  | .compile stopped request => desk.handleCompile stopped request
  | .report report => desk.handleReport report

/-- The desk after these inputs. -/
def after (desk : FileDesk) (inputs : List Input) : FileDesk :=
  inputs.foldl (fun desk input => (desk.handle input).1) desk

/-- The reports about a file that come to the desk. -/
def reportsOn (file : String) (inputs : List Input) : List Report :=
  (inputs.filterMap Input.report?).filter (·.file = file)

/-- Every unit stands under its own name. -/
def Named (desk : FileDesk) : Prop :=
  ∀ file unit, desk.units.get? file = some unit → unit.name = file

variable {desk : FileDesk} {file : String} {unit : FileUnit}

theorem Named.set (named : desk.Named) (unit : FileUnit) :
    Named ⟨desk.units.set unit.name unit⟩ := fun _ _ =>
  Table.forall_set (named _ _) rfl

theorem Named.handle (named : desk.Named) (input : Input) : (desk.handle input).1.Named := by
  cases input with
  | compile stopped request =>
    show (desk.handleCompile stopped request).1.Named
    unfold handleCompile
    split
    · exact named.set _
    · split
      · exact named
      · exact named.set { name := request.file, audience := .waiting [request.replyTo] }
  | report report =>
    show (desk.handleReport report).1.Named
    rw [handleReport_eq]
    split
    · exact named
    · exact named.set _

/-- Only the reports about a file change its unit, apart from the listeners. -/
theorem handle_unit (named : desk.Named) (known : desk.units.get? file = some unit)
    (input : Input) :
    ∃ next, (desk.handle input).1.units.get? file = some next ∧
      next.muted = (reportsOn file [input]).foldl (fun unit report => (unit.heed report).1)
        unit.muted := by
  cases input with
  | compile stopped request =>
    show ∃ next, (desk.handleCompile stopped request).1.units.get? file = some next ∧
      next.muted = unit.muted
    unfold handleCompile
    split
    next other held =>
      have name : other.name = request.file := named _ _ held
      by_cases same : file = request.file
      · subst same
        obtain rfl := Option.some.inj (known.symm.trans held)
        exact ⟨_, by simp [update, name], unit.muted_subscribe request.replyTo⟩
      · exact ⟨unit, by simp [update, name, same, known], rfl⟩
    next unknown =>
      split
      · exact ⟨unit, known, rfl⟩
      · exact ⟨unit, Table.keeps_new unknown known, rfl⟩
  | report report =>
    show ∃ next, (desk.handleReport report).1.units.get? file = some next ∧ _
    rw [handleReport_eq]
    by_cases same : report.file = file
    · subst same
      have name : unit.name = report.file := named _ _ known
      refine ⟨(unit.heed report).1, by simp [known, update, name], ?_⟩
      simp [reportsOn, Input.report?, unit.muted_heed]
    · refine ⟨unit, ?_, by simp [reportsOn, Input.report?, same]⟩
      split
      · exact known
      · rename_i other held
        have name : other.name = report.file := named _ _ held
        simp [update, name, Ne.symm same, known]

theorem named_after (named : desk.Named) (inputs : List Input) : (desk.after inputs).Named := by
  induction inputs generalizing desk with
  | nil => exact named
  | cons input rest ih => exact ih (named.handle input)

theorem after_unit (named : desk.Named) (known : desk.units.get? file = some unit)
    (inputs : List Input) :
    ∃ next, (desk.after inputs).units.get? file = some next ∧
      next.muted = (reportsOn file inputs).foldl (fun unit report => (unit.heed report).1)
        unit.muted := by
  induction inputs generalizing desk unit with
  | nil => exact ⟨unit, known, rfl⟩
  | cons input rest ih =>
    obtain ⟨next, held, heeded⟩ := handle_unit named known input
    obtain ⟨last, reached, heeds⟩ := ih (named.handle input) held
    refine ⟨last, reached, ?_⟩
    rw [heeds, heeded, ← List.foldl_append, reportsOn, reportsOn, ← List.filter_append,
      ← List.filterMap_append]
    rfl

/-- The unit that is made for a file is complete if the reports about it complete it. -/
theorem complete_of_reports {before later : List Input} {replyTo : Address}
    (unknown : ((after {} before).units.get? file) = none)
    (complete : (FileUnit.after file ((reportsOn file later).map .ofReport)).status = .complete) :
    ∃ unit, (after {} (before ++ .compile false ⟨file, replyTo⟩ :: later)).units.get? file =
      some unit ∧ unit.status = .complete := by
  have empty : Named {} := fun file unit known => by simp at known
  have made := (named_after empty before).handle (.compile false ⟨file, replyTo⟩)
  have fresh : ((after {} before).handle (.compile false ⟨file, replyTo⟩)).1.units.get? file =
      some { name := file, audience := .waiting [replyTo] } := by
    simp [FileDesk.handle, handleCompile, unknown]
  obtain ⟨unit, known, heeds⟩ := after_unit made fresh later
  refine ⟨unit, ?_, ?_⟩
  · rw [after, List.foldl_append]
    exact known
  · have alone : FileUnit.muted { name := file, audience := .waiting [replyTo] } = { name := file } :=
      rfl
    rw [alone, FileUnit.foldl_heed] at heeds
    rw [← FileUnit.status_muted, heeds]
    exact complete

end FileDesk

namespace FileTask

variable {file : String} {turns : List Turn} {sent : List Message} {task : FileTask}

/-- What is true of the course of a file's task, however it goes. -/
structure Errand (file : String) (turns : List Turn) (sent : List Message) (task : FileTask) :
    Prop where
  /-- The imports are asked for in order, each once and with its first position. -/
  asks : ∀ parsed, .parsed (.ok parsed) ∈ turns →
    (requests sent).map (·.package) <+: parsed.file.importPaths.eraseDups ∧
    ∀ request ∈ requests sent, request.fromFile = file ∧ request.replyTo = .task file ∧
      parsed.file.importSites.find? (·.package = request.package) =
        some ⟨request.package, request.position⟩
  silent : (∀ parsed, .parsed (.ok parsed) ∉ turns) → requests sent = []
  all : task.phase = .finished → (∀ turn ∈ turns, turn.stops = false) →
    ∀ parsed, .parsed (.ok parsed) ∈ turns →
      (requests sent).map (·.package) = parsed.file.importPaths.eraseDups
  once : ((relayed sent).map (·.unit)).Nodup
  settled : (relayed sent).Pairwise fun earlier _ => earlier.outcome = .ok
  /-- The unit that the desk makes for the file is complete when the task is over and all its
  reports have been handled, whatever else comes to the desk. -/
  completes : task.phase = .finished → ∀ before later replyTo,
    (FileDesk.after {} before).units.get? file = none →
    FileDesk.reportsOn file later = reports sent →
    ∃ unit, (FileDesk.after {} (before ++ .compile false ⟨file, replyTo⟩ :: later)).units.get? file =
      some unit ∧ unit.status = .complete

theorem Transcript.unparsed {phase : TaskPhase} (transcript : Transcript file turns sent phase)
    (failed : ∀ parsed, .parsed (.ok parsed) ∉ turns) :
    phase = .parsing ∧ sent = [] ∨
      phase = .finished ∧ ∃ failure, sent = [.report (.parsed file (.error failure))] := by
  cases transcript with
  | parsing => exact .inl ⟨rfl, rfl⟩
  | refused failure => exact .inr ⟨rfl, failure, rfl⟩
  | @alone parsed | @asking parsed | @gaveUp parsed | @collecting parsed | @answered parsed
  | @deserted parsed => exact absurd (by simp [turnsOf]) (failed parsed)

theorem errand_of_unparsed (transcript : Transcript file turns sent task.phase)
    (failed : ∀ parsed, .parsed (.ok parsed) ∉ turns) : Errand file turns sent task where
  asks parsed success := absurd success (failed parsed)
  all _ _ parsed success := absurd success (failed parsed)
  silent _ := by rcases transcript.unparsed failed with ⟨_, rfl⟩ | ⟨_, failure, rfl⟩ <;> rfl
  once := by
    rcases transcript.unparsed failed with ⟨_, rfl⟩ | ⟨_, failure, rfl⟩ <;> exact List.nodup_nil
  settled := by
    rcases transcript.unparsed failed with ⟨_, rfl⟩ | ⟨_, failure, rfl⟩ <;> exact .nil
  completes ended before later replyTo unknown reported := by
    rcases transcript.unparsed failed with ⟨parsing, _⟩ | ⟨_, failure, rfl⟩
    · simp [parsing] at ended
    · refine FileDesk.complete_of_reports unknown ?_
      rw [reported]
      rfl

theorem errand_of_account {parsed : ParsedFile} {asked : List ImportSite} {told : List Notice}
    (success : .parsed (.ok parsed) ∈ turns)
    (alone : ∀ other, .parsed (.ok other) ∈ turns → other = parsed)
    (account : Account parsed turns task.phase asked told) :
    Errand file turns (said file parsed asked told) task where
  asks other mem := by
    obtain rfl := alone other mem
    rw [requests_said, List.map_map, ← ParsedFile.map_package_imports]
    refine ⟨account.front.map (·.package), fun request isRequest => ?_⟩
    obtain ⟨site, isAsked, rfl⟩ := List.mem_map.mp isRequest
    exact ⟨rfl, rfl, ImportSite.find?_of_mem_firstOfEach (account.front.subset isAsked)⟩
  silent failed := absurd success (failed parsed)
  all ended goesOn other mem := by
    obtain rfl := alone other mem
    rw [requests_said, List.map_map, ← ParsedFile.map_package_imports, account.all ended goesOn]
    rfl
  once := by
    rw [relayed_said]
    refine List.Nodup.of_map UnitName.name ?_
    rw [List.map_map]
    exact account.unique
  settled := by
    rw [relayed_said]
    exact account.settled
  completes ended before later replyTo unknown reported := by
    refine FileDesk.complete_of_reports unknown ?_
    rw [reported, reports_said]
    refine FileUnit.complete_of_verdict (FileUnit.verdict_isSome.mpr ?_)
    have imports : ∀ {package}, package ∈ parsed.file.importPaths ↔
        package ∈ parsed.imports.map (·.package) := ParsedFile.mem_imports.symm
    rcases account.decides ended with ⟨notice, mem, failed⟩ | all
    · -- The only notice about its package is the first one.
      have isImport := imports.mpr (account.fits.subset (List.mem_map_of_mem mem))
      obtain ⟨first, counts, same⟩ := exists_mem_firsts mem isImport
      obtain rfl := List.inj_on_of_nodup_map account.unique (mem_of_mem_firsts counts).1 mem same
      exact .inl ⟨first, counts, failed⟩
    · exact .inr fun package isImport => all package (imports.mp isImport)

/-- Whatever the parse gives, in whatever order the imports are answered and whenever the compiler
is stopped or a desk goes away, a task asks and reports enough to end the unit of its file, if each
of its requests is answered once at most. -/
theorem task_ends_unit (course : Course file turns sent task) (fair : Fair turns sent) :
    Errand file turns sent task := by
  have transcript := course.transcript.2
  by_cases success : ∃ parsed, .parsed (.ok parsed) ∈ turns
  · obtain ⟨parsed, success⟩ := success
    obtain ⟨asked, told, rfl, account⟩ := transcript.account fair success
    refine errand_of_account success (fun other mem => ?_) account
    obtain ⟨_, _, same, _⟩ := transcript.account fair mem
    simpa using (List.cons.inj same).1.symm
  · exact errand_of_unparsed transcript fun parsed mem => success ⟨parsed, mem⟩

/-- The second import is answered and the first one never is. The failure that the task makes up for
it ends the unit; a request in between only adds a listener. -/
theorem task_ends_unit_deserted :
    let turns : List Turn := [.parsed (.ok FileUnit.twoImports), .ask false true, .ask false true,
      .answer ⟨.package "y", .ok⟩, .close]
    let sent : List Message := [.report (.parsed "a.go" (.ok FileUnit.twoImports)),
      .request ⟨"x", "a.go", ⟨2, 1⟩, .task "a.go"⟩, .request ⟨"y", "a.go", ⟨3, 1⟩, .task "a.go"⟩,
      .report (.importResolved "a.go" ⟨.package "y", .ok⟩),
      .report (.importResolved "a.go" (.disconnected (.package "x")))]
    let inputs : List FileDesk.Input := [.compile false ⟨"a.go", .call 0⟩,
      .report (.parsed "a.go" (.ok FileUnit.twoImports)), .compile true ⟨"a.go", .members⟩,
      .report (.importResolved "a.go" ⟨.package "y", .ok⟩),
      .report (.importResolved "a.go" (.disconnected (.package "x")))]
    Course "a.go" turns sent ⟨"a.go", .finished⟩ ∧ Fair turns sent ∧
      ∃ unit, (FileDesk.after {} inputs).units.get? "a.go" = some unit ∧ unit.status = .complete := by
  intro turns sent inputs
  have imports : FileUnit.twoImports.imports = [⟨"x", ⟨2, 1⟩⟩, ⟨"y", ⟨3, 1⟩⟩] := by decide +kernel
  have parse : take? { file := "a.go" } (.parsed (.ok FileUnit.twoImports)) =
      some (⟨"a.go", .resolving [⟨"x", ⟨2, 1⟩⟩, ⟨"y", ⟨3, 1⟩⟩] []⟩,
        .report (.parsed "a.go" (.ok FileUnit.twoImports))) := by
    simp [take?, isParsing, finishParse, imports]
  have course : Course "a.go" turns sent ⟨"a.go", .finished⟩ :=
    ((((Course.start.turn parse).turn rfl).turn rfl).turn rfl).turn rfl
  have fair : Fair turns sent := by
    rw [Fair, ← List.isSubperm_iff]
    decide +kernel
  exact ⟨course, fair, (task_ends_unit course fair).completes rfl [] _ _ rfl rfl⟩

end FileTask

end GoFront.Build
