import GoFront.Proofs.Build.Unit

/-!
The life of a file's unit, whatever operations come to it in whatever order. Its stages go forward
only, its outcome is settled once, and everyone who has subscribed is told it once. Without a
verdict from outside the outcome is decided by the first notice of each import.
-/
namespace GoFront.Build

namespace Status

/-- A unit in the first stage may be in the second later on. -/
def Reaches (now later : Status) : Prop := later = now ∨ now.canAdvance later = true

theorem Reaches.trans {now later last : Status} (first : now.Reaches later)
    (second : later.Reaches last) : now.Reaches last := by
  unfold Reaches at *
  cases now <;> cases later <;> cases last <;> simp_all [canAdvance]

end Status

/-! ### Operations one after the other -/

section
variable {Entity Operation : Type} {perform : Entity → Operation → Entity × List Delivery}
  {unit : Entity} {sent : List Delivery} {done operations : List Operation}

/-- The unit after these operations, and all that they send. -/
def carryOut (perform : Entity → Operation → Entity × List Delivery) (unit : Entity) :
    List Operation → Entity × List Delivery
  | [] => (unit, [])
  | operation :: rest =>
    let (next, sent) := perform unit operation
    let (last, later) := carryOut perform next rest
    (last, sent ++ later)

theorem carryOut_append (more : List Operation) :
    (carryOut perform unit (operations ++ more)).1 =
      (carryOut perform (carryOut perform unit operations).1 more).1 := by
  induction operations generalizing unit with
  | nil => rfl
  | cons operation rest ih => exact ih

/-- What every operation keeps up holds after all of them. -/
theorem carryOut_invariant (invariant : Entity → List Operation → List Delivery → Prop)
    (step : ∀ {unit done sent} operation, invariant unit done sent →
      invariant (perform unit operation).1 (done ++ [operation])
        (sent ++ (perform unit operation).2))
    (holds : invariant unit done sent) (operations : List Operation) :
    invariant (carryOut perform unit operations).1 (done ++ operations)
      (sent ++ (carryOut perform unit operations).2) := by
  induction operations generalizing unit done sent with
  | nil => simpa [carryOut] using holds
  | cons operation rest ih =>
    simpa [carryOut] using ih (step operation holds)

end

/-- The name of the unit that a notice is about, whatever the kind of the unit. -/
def Notice.about (notice : Notice) : String := notice.unit.name

namespace FileUnit

inductive Operation where
  | subscribe (address : Address)
  | symbolsAvailable (parsed : ParsedFile)
  | importResolved (notice : Notice)
  | complete (outcome : Outcome)

def Operation.subscriber? : Operation → Option Address
  | subscribe address => some address
  | _ => none

def Operation.notice? : Operation → Option Notice
  | importResolved notice => some notice
  | _ => none

def perform (unit : FileUnit) : Operation → FileUnit × List Delivery
  | .subscribe address => unit.subscribe address
  | .symbolsAvailable parsed => unit.symbolsAvailable parsed
  | .importResolved notice => unit.importResolved notice
  | .complete outcome => unit.complete outcome

/-- The unit of a file after these operations. -/
def after (name : String) (operations : List Operation) : FileUnit :=
  (carryOut perform { name } operations).1

/-- What the unit of a file has sent after these operations, the oldest first. -/
def sent (name : String) (operations : List Operation) : List Delivery :=
  (carryOut perform { name } operations).2

variable {unit next : FileUnit} {report : Report} {deliveries : List Delivery}

/-! ### The stages -/

theorem status_of_answered {outcome : Outcome} (isOver : unit.audience = .answered outcome) :
    unit.status = .complete := by
  unfold status
  rw [isOver]

theorem status_eq_complete_iff :
    unit.status = .complete ↔ ∃ outcome, unit.audience.outcome? = some outcome := by
  unfold status Audience.outcome?
  cases unit.audience <;> cases unit.parsed <;> simp

theorem status_subscribe (unit : FileUnit) (address : Address) :
    (unit.subscribe address).1.status = unit.status := by
  unfold status subscribe Audience.subscribe
  cases unit.audience <;> cases unit.parsed <;> rfl

/-- A unit waits for imports in its second stage and only then. -/
def Coherent (unit : FileUnit) : Prop := unit.waitingOn = [] ↔ unit.status ≠ .symbolsAvailable

theorem coherent_of_answered {outcome : Outcome} (isOver : unit.audience = .answered outcome)
    (nothing : unit.waitingOn = []) : unit.Coherent := by
  simp [Coherent, status_of_answered isOver, nothing]

theorem coherent_of_waiting {subscribers : List Address} {parsed : ParsedFile}
    (isOpen : unit.audience = .waiting subscribers) (hasParsed : unit.parsed = some parsed)
    (waits : unit.waitingOn ≠ []) : unit.Coherent := by
  simp [Coherent, status, isOpen, hasParsed, waits]

theorem Heeds.coherent (heeds : unit.Heeds report next deliveries) (coherent : unit.Coherent) :
    next.Coherent := by
  cases heeds with
  | ignore => exact coherent
  | finish | fail | importFailed | importsDone => exact coherent_of_answered rfl rfl
  | @wait _ parsed isOpen unparsed imports =>
    obtain ⟨subscribers, isOpen⟩ := Audience.isAnswered_eq_false isOpen
    exact coherent_of_waiting isOpen rfl (by simpa using imports)
  | importDone _ awaited _ more =>
    have waits : unit.waitingOn ≠ [] := List.ne_nil_of_mem awaited
    have stage : unit.status = .symbolsAvailable := not_not.mp (mt coherent.mpr waits)
    exact iff_of_false more (by simpa [status] using stage)

theorem perform_coherent (coherent : unit.Coherent) (operation : Operation) :
    (unit.perform operation).1.Coherent := by
  cases operation with
  | subscribe address => rwa [perform, Coherent, status_subscribe]
  | symbolsAvailable parsed =>
    exact (symbolsAvailable_heeds unit unit.name parsed).coherent coherent
  | importResolved notice => exact (importResolved_heeds unit unit.name notice).coherent coherent
  | complete outcome =>
    rw [perform]
    cases audience : unit.audience with
    | waiting subscribers =>
      rw [complete_of_waiting unit audience]
      exact coherent_of_answered rfl rfl
    | answered first => rwa [complete_of_answered unit audience]

theorem Heeds.reaches (heeds : unit.Heeds report next deliveries) :
    unit.status.Reaches next.status := by
  cases heeds with
  | ignore => exact .inl rfl
  | importDone => exact .inl rfl
  | finish isOpen | fail isOpen | importFailed isOpen | importsDone isOpen =>
    refine .inr ?_
    unfold status
    rw [isOpen]
    cases unit.parsed <;> rfl
  | wait isOpen unparsed =>
    obtain ⟨subscribers, isOpen⟩ := Audience.isAnswered_eq_false isOpen
    refine .inr ?_
    unfold status
    rw [isOpen, unparsed]
    rfl

theorem complete_reaches (unit : FileUnit) (outcome : Outcome) :
    unit.status.Reaches (unit.complete outcome).1.status := by
  cases audience : unit.audience with
  | waiting subscribers =>
    rw [complete_of_waiting unit audience]
    unfold status
    rw [audience]
    cases unit.parsed <;> exact .inr rfl
  | answered first =>
    rw [complete_of_answered unit audience]
    exact .inl rfl

theorem perform_reaches (unit : FileUnit) (operation : Operation) :
    unit.status.Reaches (unit.perform operation).1.status := by
  cases operation with
  | subscribe address => exact .inl (status_subscribe unit address)
  | symbolsAvailable parsed => exact (symbolsAvailable_heeds unit unit.name parsed).reaches
  | importResolved notice => exact (importResolved_heeds unit unit.name notice).reaches
  | complete outcome => exact complete_reaches unit outcome

/-! ### Those who are told -/

theorem perform_name (unit : FileUnit) (operation : Operation) :
    (unit.perform operation).1.name = unit.name := by
  cases operation with
  | subscribe address => rfl
  | symbolsAvailable parsed => exact heed_name unit (.parsed unit.name (.ok parsed))
  | importResolved notice => exact heed_name unit (.importResolved unit.name notice)
  | complete outcome => exact complete_name unit outcome

/-- Apart from newcomers an audience changes only when it is told the outcome. -/
theorem perform_cases (unit : FileUnit) (operation : Operation) :
    (∃ address, operation = .subscribe address) ∨ operation.subscriber? = none ∧
      Audience.Change (.file unit.name) unit.audience (unit.perform operation).1.audience
        (unit.perform operation).2 := by
  cases operation with
  | subscribe address => exact .inl ⟨address, rfl⟩
  | symbolsAvailable parsed =>
    exact .inr ⟨rfl, (symbolsAvailable_heeds unit unit.name parsed).change⟩
  | importResolved notice => exact .inr ⟨rfl, (importResolved_heeds unit unit.name notice).change⟩
  | complete outcome => exact .inr ⟨rfl, unit.complete_change outcome⟩

theorem perform_served {joined : List Address} {sent : List Delivery}
    (served : unit.audience.Served (.file unit.name) joined sent) (operation : Operation) :
    (unit.perform operation).1.audience.Served (.file unit.name)
      (joined ++ [operation].filterMap Operation.subscriber?)
      (sent ++ (unit.perform operation).2) := by
  rcases perform_cases unit operation with ⟨address, rfl⟩ | ⟨quiet, change⟩
  · exact served.subscribe address
  · simpa [quiet] using served.change change

theorem perform_outcome? {outcome : Outcome} (settled : unit.audience.outcome? = some outcome)
    (operation : Operation) : (unit.perform operation).1.audience.outcome? = some outcome := by
  rcases perform_cases unit operation with ⟨address, rfl⟩ | ⟨_, change⟩
  · exact (Audience.outcome?_subscribe _ _ _).trans settled
  · exact change.outcome?_eq settled

/-! ### All operations together -/

theorem carryOut_outcome? {outcome : Outcome} (settled : unit.audience.outcome? = some outcome)
    (operations : List Operation) :
    (carryOut perform unit operations).1.audience.outcome? = some outcome := by
  induction operations generalizing unit with
  | nil => exact settled
  | cons operation rest ih => exact ih (perform_outcome? settled operation)

theorem carryOut_reaches (unit : FileUnit) (operations : List Operation) :
    unit.status.Reaches (carryOut perform unit operations).1.status := by
  induction operations generalizing unit with
  | nil => exact .inl rfl
  | cons operation rest ih => exact (unit.perform_reaches operation).trans (ih _)

theorem after_append (name : String) (operations more : List Operation) :
    after name (operations ++ more) = (carryOut perform (after name operations) more).1 :=
  carryOut_append more

/-- What holds of the unit of a file that these operations have come to. -/
structure Regular (name : String) (unit : FileUnit) (done : List Operation)
    (sent : List Delivery) : Prop where
  name_eq : unit.name = name
  coherent : unit.Coherent
  served : unit.audience.Served (.file name) (done.filterMap Operation.subscriber?) sent

theorem Regular.perform {name : String} {done : List Operation} {sent : List Delivery}
    (regular : Regular name unit done sent) (operation : Operation) :
    Regular name (unit.perform operation).1 (done ++ [operation])
      (sent ++ (unit.perform operation).2) := by
  obtain ⟨rfl, coherent, served⟩ := regular
  refine ⟨unit.perform_name operation, perform_coherent coherent operation, ?_⟩
  rw [List.filterMap_append]
  exact perform_served served operation

theorem regular_after (name : String) (operations : List Operation) :
    Regular name (after name operations) operations (sent name operations) := by
  have fresh : Regular name { name } [] [] := ⟨rfl, by simp [Coherent, status], rfl, rfl⟩
  exact carryOut_invariant (Regular name) (fun operation regular => regular.perform operation)
    fresh operations

/-! ### The verdict -/

/-- The outcome of a file that imports these packages, by the first notice of each: the first
failure, or success when no package is missing. -/
def verdict (imports : List String) (notices : List Notice) : Option Outcome :=
  match (firsts Notice.about imports notices).findSome? (·.outcome.failure?) with
  | some failure => some (.failed failure)
  | none =>
    if ∀ package ∈ imports, package ∈ (firsts Notice.about imports notices).map Notice.about
      then some .ok else none

section
variable {imports : List String} {notice : Notice} {notices : List Notice} {failure : Failure}

theorem verdict_eq_failed : verdict imports notices = some (.failed failure) ↔
    (firsts Notice.about imports notices).findSome? (·.outcome.failure?) = some failure := by
  unfold verdict
  split
  next found => simp [found]
  next none => simp [none]

theorem verdict_eq_ok : verdict imports notices = some .ok ↔
    ∀ package ∈ imports, (notices.find? (·.about = package)).map (·.outcome) = some .ok := by
  have complete : verdict imports notices = some .ok ↔
      (firsts Notice.about imports notices).findSome? (·.outcome.failure?) = none ∧
      ∀ package ∈ imports, package ∈ (firsts Notice.about imports notices).map Notice.about := by
    unfold verdict
    split
    next found => simp [found]
    next none => simp [none]
  rw [complete]
  constructor
  · rintro ⟨clean, present⟩ package isImport
    obtain ⟨notice, counts, rfl⟩ := List.mem_map.mp (present package isImport)
    have ok := Outcome.failure?_eq_none.mp (List.findSome?_eq_none_iff.mp clean notice counts)
    rw [(mem_firsts.mp counts).2, Option.map_some, ok]
  · intro ok
    constructor
    · refine List.findSome?_eq_none_iff.mpr fun notice counts => ?_
      obtain ⟨isImport, first⟩ := mem_firsts.mp counts
      have told := ok _ isImport
      rw [first, Option.map_some, Option.some.injEq] at told
      exact Outcome.failure?_eq_none.mpr told
    · intro package isImport
      obtain ⟨notice, first, _⟩ := Option.map_eq_some_iff.mp (ok package isImport)
      obtain rfl : notice.about = package := by simpa using List.find?_some first
      exact List.mem_map_of_mem (mem_firsts.mpr ⟨isImport, first⟩)

theorem verdict_nil (waits : imports ≠ []) : verdict imports [] = none := by
  obtain ⟨package, isImport⟩ := List.exists_mem_of_ne_nil _ waits
  refine if_neg fun present => ?_
  exact List.not_mem_nil (present package isImport)

theorem verdict_no_imports : verdict [] notices = some .ok := by
  simp [verdict_eq_ok]

theorem verdict_stranger (unasked : notice.about ∉ imports) :
    verdict imports (notice :: notices) = verdict imports notices := by
  unfold verdict
  rw [firsts_cons_of_not_mem unasked]

theorem verdict_failure (asked : notice.about ∈ imports)
    (failed : notice.outcome = .failed failure) :
    verdict imports (notice :: notices) = some (.failed failure) := by
  rw [verdict_eq_failed, firsts_cons_of_mem asked, List.findSome?_cons, failed]
  rfl

theorem verdict_success (asked : notice.about ∈ imports) (ok : notice.outcome = .ok) :
    verdict imports (notice :: notices) =
      verdict (imports.filter (· ≠ notice.about)) notices := by
  have quiet : notice.outcome.failure? = none := Outcome.failure?_eq_none.mpr ok
  have missing (counted : List Notice) :
      (∀ package ∈ imports, package ∈ (notice :: counted).map Notice.about) ↔
        ∀ package ∈ imports.filter (· ≠ notice.about),
          package ∈ counted.map Notice.about := by
    simp only [List.map_cons, List.mem_cons, List.mem_filter, decide_eq_true_eq]
    refine forall_congr' fun package => ?_
    tauto
  unfold verdict
  rw [firsts_cons_of_mem asked, List.findSome?_cons, quiet]
  simp only [missing]

end

theorem status_eq_symbolsAvailable (stage : unit.status = .symbolsAvailable) :
    (∃ subscribers, unit.audience = .waiting subscribers) ∧
      ∃ parsed, unit.parsed = some parsed := by
  unfold status at stage
  split at stage
  · simp at stage
  · rename_i isOpen hasParsed
    exact ⟨⟨_, isOpen⟩, _, hasParsed⟩
  · simp at stage

/-- A notice leaves a file waiting and the verdict open, or it brings the verdict. -/
theorem importResolved_verdict (stage : unit.status = .symbolsAvailable) (notice : Notice)
    (later : List Notice) :
    let next := (unit.importResolved notice).1
    next.status = .symbolsAvailable ∧
        verdict unit.waitingOn (notice :: later) = verdict next.waitingOn later ∨
      next.audience.outcome? = verdict unit.waitingOn (notice :: later) ∧
        next.status = .complete := by
  by_cases awaited : notice.unit.name ∈ unit.waitingOn
  · obtain ⟨⟨subscribers, isOpen⟩, _⟩ := status_eq_symbolsAvailable stage
    have asked : notice.about ∈ unit.waitingOn := awaited
    rw [importResolved_eq isOpen awaited]
    cases outcome : notice.outcome with
    | failed failure =>
      rw [if_pos (.inl rfl), verdict_failure asked outcome]
      exact .inr ⟨rfl, rfl⟩
    | ok =>
      rw [verdict_success asked outcome]
      split
      next ends =>
        have last : unit.waitingOn.filter (· ≠ notice.about) = [] :=
          ends.resolve_left (by simp [Outcome.isFailed])
        rw [last, verdict_no_imports]
        exact .inr ⟨rfl, rfl⟩
      next => exact .inl ⟨stage, rfl⟩
  · have unasked : notice.about ∉ unit.waitingOn := awaited
    have ignored : unit.importResolved notice = (unit, []) := by simp [importResolved, awaited]
    rw [ignored, verdict_stranger unasked]
    exact .inl ⟨stage, rfl⟩

/-- A file that waits for its imports gets the verdict of the notices to come. -/
theorem carryOut_verdict (coherent : unit.Coherent) (stage : unit.status = .symbolsAvailable)
    {operations : List Operation} (undirected : ∀ outcome, .complete outcome ∉ operations) :
    (carryOut perform unit operations).1.audience.outcome? =
      verdict unit.waitingOn (operations.filterMap Operation.notice?) := by
  induction operations generalizing unit with
  | nil =>
    obtain ⟨⟨subscribers, isOpen⟩, _⟩ := status_eq_symbolsAvailable stage
    have waits : unit.waitingOn ≠ [] := fun nothing => coherent.mp nothing stage
    rw [List.filterMap_nil, verdict_nil waits, carryOut, isOpen]
    rfl
  | cons operation rest ih =>
    have later : ∀ outcome, .complete outcome ∉ rest :=
      fun outcome mem => undirected outcome (List.mem_cons_of_mem _ mem)
    have nextCoherent := perform_coherent coherent operation
    cases operation with
    | subscribe address => exact ih nextCoherent ((status_subscribe unit address).trans stage) later
    | symbolsAvailable parsed =>
      have ignored : unit.perform (.symbolsAvailable parsed) = (unit, []) := by
        simp [perform, symbolsAvailable, stage]
      rw [List.filterMap_cons_none rfl, carryOut, ignored]
      exact ih coherent stage later
    | complete outcome => exact absurd List.mem_cons_self (undirected outcome)
    | importResolved notice =>
      -- The notice narrows what is awaited, or it ends the file and what follows changes nothing.
      have heard : Operation.notice? (.importResolved notice) = some notice := rfl
      rw [List.filterMap_cons_some heard]
      rcases importResolved_verdict stage notice (rest.filterMap Operation.notice?) with
        ⟨waiting, same⟩ | ⟨told, ended⟩
      · rw [same]
        exact ih nextCoherent waiting later
      · obtain ⟨outcome, settled⟩ := status_eq_complete_iff.mp ended
        rw [← told, settled]
        exact carryOut_outcome? settled rest

theorem carryOut_parsing (coherent : unit.Coherent) (stage : unit.status = .parsing)
    {operations : List Operation} (unparsed : ∀ parsed, .symbolsAvailable parsed ∉ operations)
    (undirected : ∀ outcome, .complete outcome ∉ operations) :
    (carryOut perform unit operations).1.status = .parsing := by
  induction operations generalizing unit with
  | nil => exact stage
  | cons operation rest ih =>
    refine ih (perform_coherent coherent operation) ?_
      (fun parsed mem => unparsed parsed (.tail _ mem))
      fun outcome mem => undirected outcome (.tail _ mem)
    cases operation with
    | subscribe address => exact (status_subscribe unit address).trans stage
    | symbolsAvailable parsed => exact absurd List.mem_cons_self (unparsed parsed)
    | complete outcome => exact absurd List.mem_cons_self (undirected outcome)
    | importResolved notice =>
      have nothing : unit.waitingOn = [] := coherent.mpr (by rw [stage]; decide)
      have ignored : unit.importResolved notice = (unit, []) := by simp [importResolved, nothing]
      show (unit.importResolved notice).1.status = .parsing
      rw [ignored]
      exact stage

/-- The parse tells what the file imports; without imports it brings the verdict itself. -/
theorem symbolsAvailable_verdict (stage : unit.status = .parsing) (parsed : ParsedFile)
    (later : List Notice) :
    let next := (unit.symbolsAvailable parsed).1
    next.status = .symbolsAvailable ∧
        next.waitingOn = Names.ofList (parsed.imports.map (·.package)) ∨
      next.audience.outcome? = verdict (Names.ofList (parsed.imports.map (·.package))) later ∧
        next.status = .complete := by
  obtain ⟨_, subscribers, isOpen⟩ := status_eq_parsing stage
  unfold symbolsAvailable
  rw [if_neg (not_not.mpr stage)]
  dsimp only
  split
  next none =>
    rw [complete_of_waiting _ (by exact isOpen), none, verdict_no_imports]
    exact .inr ⟨rfl, rfl⟩
  next => exact .inl ⟨by simp [status, isOpen], rfl⟩

theorem verdict_congr {imports others : List String}
    (same : ∀ package, package ∈ imports ↔ package ∈ others) (notices : List Notice) :
    verdict imports notices = verdict others notices := by
  unfold verdict
  rw [firsts_congr same]
  simp only [same]

/-- From the first parse on the notices decide. -/
theorem after_verdict (name : String) {before later : List Operation} {parsed : ParsedFile}
    (unparsed : ∀ other, .symbolsAvailable other ∉ before)
    (undirected : ∀ outcome, .complete outcome ∉ before ++ .symbolsAvailable parsed :: later) :
    (after name (before ++ .symbolsAvailable parsed :: later)).audience.outcome? =
      verdict parsed.file.importPaths (later.filterMap Operation.notice?) := by
  have imports : ∀ package, package ∈ Names.ofList (parsed.imports.map (·.package)) ↔
      package ∈ parsed.file.importPaths := fun package => by simp
  have fresh : FileUnit.Coherent { name } := (regular_after name []).coherent
  have stage : (after name before).status = .parsing :=
    carryOut_parsing fresh rfl unparsed fun outcome mem => undirected outcome (by simp [mem])
  have coherent := perform_coherent (regular_after name before).coherent (.symbolsAvailable parsed)
  rw [after_append, ← verdict_congr imports]
  rcases symbolsAvailable_verdict stage parsed (later.filterMap Operation.notice?) with
    ⟨waiting, awaited⟩ | ⟨told, ended⟩
  · rw [← awaited]
    exact carryOut_verdict coherent waiting fun outcome mem => undirected outcome (by simp [mem])
  · obtain ⟨outcome, settled⟩ := status_eq_complete_iff.mp ended
    rw [← told, settled]
    exact carryOut_outcome? settled later

/-! ### The whole life -/

/-- The life of the unit of a file that these operations come to. Nobody is told before the file is
complete, and everybody who has subscribed by then or later is told once and in order. -/
structure Lifecycle (name : String) (operations : List Operation) : Prop where
  answered : (∃ outcome, (after name operations).audience.outcome? = some outcome) ↔
    (after name operations).status = .complete
  complete : (after name operations).status = .complete →
    (after name operations).audience.subscribers = [] ∧ (after name operations).waitingOn = []
  symbolsAvailable : (after name operations).status = .symbolsAvailable →
    (after name operations).waitingOn ≠ [] ∧ ∃ parsed, (after name operations).parsed = some parsed
  parsing : (after name operations).status = .parsing →
    (after name operations).waitingOn = [] ∧ (after name operations).parsed = none
  forward : ∀ more, (after name operations).status.Reaches (after name (operations ++ more)).status
  settled : ∀ outcome, (after name operations).audience.outcome? = some outcome →
    ∀ more, (after name (operations ++ more)).audience.outcome? = some outcome
  quiet : (after name operations).status ≠ .complete → sent name operations = [] ∧
    (after name operations).audience.subscribers = operations.filterMap Operation.subscriber?
  told : ∀ outcome, (after name operations).audience.outcome? = some outcome →
    sent name operations = (operations.filterMap Operation.subscriber?).map
      fun address => ⟨address, .file name, outcome⟩
  /-- The first notice of each import decides, if the verdict does not come from outside. -/
  decided : ∀ before parsed later, operations = before ++ .symbolsAvailable parsed :: later →
    (∀ other, .symbolsAvailable other ∉ before) → (∀ outcome, .complete outcome ∉ operations) →
    ((after name operations).audience.outcome? = some .ok ↔
      ∀ package ∈ parsed.file.importPaths,
        ((later.filterMap Operation.notice?).find? (·.about = package)).map (·.outcome) =
          some .ok) ∧
    ∀ failure, (after name operations).audience.outcome? = some (.failed failure) ↔
      (firsts Notice.about parsed.file.importPaths
        (later.filterMap Operation.notice?)).findSome? (·.outcome.failure?) = some failure

theorem file_lifecycle (name : String) (operations : List Operation) : Lifecycle name operations where
  answered := status_eq_complete_iff.symm
  complete := by
    intro ended
    obtain ⟨outcome, isSome⟩ := status_eq_complete_iff.mp ended
    have coherent := (regular_after name operations).coherent
    rw [Audience.eq_answered isSome]
    exact ⟨rfl, coherent.mpr (by rw [ended]; decide)⟩
  symbolsAvailable := by
    intro stage
    have coherent := (regular_after name operations).coherent
    exact ⟨fun nothing => coherent.mp nothing stage, (status_eq_symbolsAvailable stage).2⟩
  parsing := by
    intro stage
    have coherent := (regular_after name operations).coherent
    exact ⟨coherent.mpr (by rw [stage]; decide), (status_eq_parsing stage).1⟩
  forward more := by
    rw [after_append]
    exact carryOut_reaches _ more
  settled outcome isSome more := by
    rw [after_append]
    exact carryOut_outcome? isSome more
  quiet := by
    intro isOpen
    have served := (regular_after name operations).served
    cases audience : (after name operations).audience with
    | waiting subscribers =>
      rw [audience] at served
      exact ⟨served.2, served.1⟩
    | answered outcome => exact absurd (status_of_answered audience) isOpen
  told outcome isSome := by
    have served := (regular_after name operations).served
    rw [Audience.eq_answered isSome] at served
    exact served
  decided := by
    rintro before parsed later rfl unparsed undirected
    rw [after_verdict name unparsed undirected]
    exact ⟨verdict_eq_ok, fun failure => verdict_eq_failed⟩

/-- A file that imports two packages, one of them twice. -/
def twoImports : ParsedFile where
  file :=
    { package := ⟨"a", 8, 9⟩
      imports := [⟨⟨"x", .default⟩, 10, 20⟩, ⟨⟨"y", .default⟩, 21, 31⟩, ⟨⟨"x", .blank⟩, 32, 44⟩]
      declarations := []
      lines := ⟨[0, 10, 21, 32], 45⟩ }
  symbols := {}

/-- Neither the second notice about a package nor one about another unit counts; the subscriber who
comes after the failure is told it too. -/
theorem file_lifecycle_failed_import :
    let lost : Outcome := .failed .disconnected
    let before : List Operation := [.subscribe (.call 0), .importResolved ⟨.package "y", .ok⟩]
    let later : List Operation := [.importResolved ⟨.package "x", .ok⟩,
      .importResolved (.cancelled (.file "x")), .symbolsAvailable twoImports,
      .importResolved (.cancelled (.package "z")), .subscribe (.task "b.go"),
      .importResolved ⟨.package "y", lost⟩, .importResolved ⟨.package "y", .ok⟩,
      .subscribe (.call 1)]
    let operations := before ++ .symbolsAvailable twoImports :: later
    (∀ other, .symbolsAvailable other ∉ before) ∧ (∀ outcome, .complete outcome ∉ operations) ∧
      (after "a.go" operations).audience.outcome? = some lost ∧
      sent "a.go" operations = [⟨.call 0, .file "a.go", lost⟩, ⟨.task "b.go", .file "a.go", lost⟩,
        ⟨.call 1, .file "a.go", lost⟩] := by
  intro lost before later operations
  have unparsed : ∀ other, .symbolsAvailable other ∉ before := by simp [before]
  have undirected : ∀ outcome, .complete outcome ∉ operations := by
    simp [operations, before, later]
  have life := file_lifecycle "a.go" operations
  obtain ⟨_, failed⟩ := life.decided before twoImports later rfl unparsed undirected
  have told := (failed .disconnected).mpr (by decide +kernel)
  exact ⟨unparsed, undirected, told, life.told _ told⟩

end FileUnit

end GoFront.Build
