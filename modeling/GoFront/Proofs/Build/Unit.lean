import GoFront.Build.CompileCall
import GoFront.Build.Desk.Files
import GoFront.Build.Unit.Package
import GoFront.Proofs.Names

/-!
What each operation does to a unit or a call. An audience changes in one of two ways: someone joins
it, or it is told an outcome once and for all. The stages of a unit do not depend on who listens.
-/
namespace GoFront.Build

theorem Outcome.failure?_eq_none {outcome : Outcome} : outcome.failure? = none ↔ outcome = .ok := by
  cases outcome <;> simp [failure?]

namespace Audience

/-- The audience of a unit when nobody joins: it stays, or it is told the outcome. -/
inductive Change (unit : UnitName) : Audience → Audience → List Delivery → Prop where
  | keep (audience : Audience) : Change unit audience audience []
  | announce (subscribers : List Address) (outcome : Outcome) :
      Change unit (.waiting subscribers) (.answered outcome)
        (subscribers.map fun address => ⟨address, unit, outcome⟩)

theorem outcome?_subscribe (unit : UnitName) (address : Address) (audience : Audience) :
    (audience.subscribe unit address).1.outcome? = audience.outcome? := by
  cases audience <;> rfl

theorem Change.outcome?_eq {unit : UnitName} {before after : Audience} {deliveries : List Delivery}
    (change : Change unit before after deliveries) {outcome : Outcome}
    (answered : before.outcome? = some outcome) : after.outcome? = some outcome := by
  cases change with
  | keep => exact answered
  | announce => simp [outcome?] at answered

theorem eq_answered {audience : Audience} {outcome : Outcome}
    (answered : audience.outcome? = some outcome) : audience = .answered outcome := by
  cases audience with
  | waiting => simp [outcome?] at answered
  | answered first => rw [Option.some.inj answered]

/-- Who has joined an audience and what was sent to it: nothing while it waits, and then one notice
of the outcome to each in the order of joining. -/
def Served (unit : UnitName) (joined : List Address) (sent : List Delivery) : Audience → Prop
  | waiting subscribers => subscribers = joined ∧ sent = []
  | answered outcome => sent = joined.map fun address => ⟨address, unit, outcome⟩

namespace Served

variable {unit : UnitName} {audience next : Audience} {joined : List Address}
  {sent deliveries : List Delivery}

theorem subscribe (served : audience.Served unit joined sent) (address : Address) :
    (audience.subscribe unit address).1.Served unit (joined ++ [address])
      (sent ++ (audience.subscribe unit address).2) := by
  cases audience with
  | waiting subscribers =>
    obtain ⟨rfl, rfl⟩ := served
    exact ⟨rfl, rfl⟩
  | answered outcome =>
    obtain rfl : sent = _ := served
    simp [Audience.subscribe, Served]

theorem change (served : audience.Served unit joined sent)
    (change : Change unit audience next deliveries) :
    next.Served unit joined (sent ++ deliveries) := by
  cases change with
  | keep => simpa using served
  | announce subscribers outcome =>
    obtain ⟨rfl, rfl⟩ := served
    exact List.nil_append _

end Served

theorem isAnswered_eq_false {audience : Audience} (isOpen : audience.isAnswered = false) :
    ∃ subscribers, audience = .waiting subscribers := by
  cases audience with
  | waiting subscribers => exact ⟨subscribers, rfl⟩
  | answered => simp [isAnswered] at isOpen

/-- The audience without its listeners. -/
def muted : Audience → Audience
  | waiting _ => waiting []
  | answered outcome => answered outcome

@[simp] theorem isAnswered_muted (audience : Audience) :
    audience.muted.isAnswered = audience.isAnswered := by
  cases audience <;> rfl

theorem muted_subscribe (unit : UnitName) (address : Address) (audience : Audience) :
    (audience.subscribe unit address).1.muted = audience.muted := by
  cases audience <;> rfl

end Audience

namespace Report

/-- The file that the report is about. -/
def file : Report → String
  | parsed file _ => file
  | importResolved file _ => file

end Report

namespace FileUnit

/-- The unit after a report of its task. -/
def heed (unit : FileUnit) : Report → FileUnit × List Delivery
  | .parsed _ (.ok parsed) => unit.symbolsAvailable parsed
  | .parsed _ (.error failure) => unit.complete (.failed failure)
  | .importResolved _ notice => unit.importResolved notice

theorem complete_name (unit : FileUnit) (outcome : Outcome) :
    (unit.complete outcome).1.name = unit.name := by
  unfold complete
  split <;> rfl

@[simp] theorem subscribe_name (unit : FileUnit) (address : Address) :
    (unit.subscribe address).1.name = unit.name := rfl

@[simp] theorem heed_name (unit : FileUnit) (report : Report) :
    (unit.heed report).1.name = unit.name := by
  unfold heed
  split
  · unfold symbolsAvailable
    dsimp only
    repeat' split
    · rfl
    · rw [complete_name]
    · rfl
  · rw [complete_name]
  · unfold importResolved
    dsimp only
    repeat' split
    · rfl
    · rw [complete_name]
    · rw [complete_name]
    · rfl

/-- How a report changes a unit. -/
inductive Heeds (unit : FileUnit) : Report → FileUnit → List Delivery → Prop where
  | ignore (report : Report) : Heeds unit report unit []
  | wait {file : String} {parsed : ParsedFile} (isOpen : unit.audience.isAnswered = false)
      (unparsed : unit.parsed = none) (imports : parsed.imports ≠ []) :
      Heeds unit (.parsed file (.ok parsed))
        { unit with
          parsed := some parsed, waitingOn := Names.ofList (parsed.imports.map (·.package)) } []
  | finish {file : String} {parsed : ParsedFile} {subscribers : List Address}
      (isOpen : unit.audience = .waiting subscribers) (unparsed : unit.parsed = none)
      (imports : parsed.imports = []) :
      Heeds unit (.parsed file (.ok parsed))
        { unit with parsed := some parsed, waitingOn := [], audience := .answered .ok }
        (subscribers.map fun address => ⟨address, .file unit.name, .ok⟩)
  | fail {file : String} {failure : Failure} {subscribers : List Address}
      (isOpen : unit.audience = .waiting subscribers) :
      Heeds unit (.parsed file (.error failure))
        { unit with waitingOn := [], audience := .answered (.failed failure) }
        (subscribers.map fun address => ⟨address, .file unit.name, .failed failure⟩)
  | importFailed {file : String} {notice : Notice} {subscribers : List Address}
      (isOpen : unit.audience = .waiting subscribers)
      (awaited : notice.unit.name ∈ unit.waitingOn) (failed : notice.outcome.isFailed = true) :
      Heeds unit (.importResolved file notice)
        { unit with waitingOn := [], audience := .answered notice.outcome }
        (subscribers.map fun address => ⟨address, .file unit.name, notice.outcome⟩)
  | importsDone {file : String} {notice : Notice} {subscribers : List Address}
      (isOpen : unit.audience = .waiting subscribers)
      (awaited : notice.unit.name ∈ unit.waitingOn) (ok : notice.outcome = .ok)
      (last : ∀ package ∈ unit.waitingOn, package = notice.unit.name) :
      Heeds unit (.importResolved file notice)
        { unit with waitingOn := [], audience := .answered .ok }
        (subscribers.map fun address => ⟨address, .file unit.name, .ok⟩)
  | importDone {file : String} {notice : Notice} (isOpen : unit.audience.isAnswered = false)
      (awaited : notice.unit.name ∈ unit.waitingOn) (ok : notice.outcome = .ok)
      (more : unit.waitingOn.filter (· ≠ notice.unit.name) ≠ []) :
      Heeds unit (.importResolved file notice)
        { unit with waitingOn := unit.waitingOn.filter (· ≠ notice.unit.name) } []

theorem complete_of_waiting (unit : FileUnit) {subscribers : List Address}
    (isOpen : unit.audience = .waiting subscribers) (outcome : Outcome) :
    unit.complete outcome =
      ({ unit with waitingOn := [], audience := .answered outcome },
        subscribers.map fun address => ⟨address, .file unit.name, outcome⟩) := by
  simp [complete, isOpen, Audience.isAnswered, Audience.announce, unitName]

theorem complete_of_answered (unit : FileUnit) {first : Outcome}
    (isOver : unit.audience = .answered first) (outcome : Outcome) :
    unit.complete outcome = (unit, []) := by
  simp [complete, isOver, Audience.isAnswered]

theorem complete_change (unit : FileUnit) (outcome : Outcome) :
    Audience.Change (.file unit.name) unit.audience (unit.complete outcome).1.audience
      (unit.complete outcome).2 := by
  cases audience : unit.audience with
  | waiting subscribers =>
    rw [complete_of_waiting unit audience]
    exact .announce subscribers outcome
  | answered first =>
    rw [complete_of_answered unit audience, audience]
    exact .keep _

theorem status_eq_parsing {unit : FileUnit} (parsing : unit.status = .parsing) :
    unit.parsed = none ∧ ∃ subscribers, unit.audience = .waiting subscribers := by
  unfold status at parsing
  split at parsing
  · simp at parsing
  · simp at parsing
  · rename_i isOpen unparsed
    exact ⟨unparsed, _, isOpen⟩

theorem symbolsAvailable_heeds (unit : FileUnit) (file : String) (parsed : ParsedFile) :
    unit.Heeds (.parsed file (.ok parsed)) (unit.symbolsAvailable parsed).1
      (unit.symbolsAvailable parsed).2 := by
  unfold symbolsAvailable
  by_cases parsing : unit.status = .parsing
  · obtain ⟨unparsed, subscribers, isOpen⟩ := status_eq_parsing parsing
    rw [if_neg (not_not.mpr parsing)]
    by_cases imports : parsed.imports = []
    · have empty : Names.ofList (parsed.imports.map (·.package)) = [] := by simp [imports]
      simp only [empty, if_true]
      rw [complete_of_waiting { unit with parsed := some parsed, waitingOn := [] } isOpen]
      exact .finish isOpen unparsed imports
    · have waits : Names.ofList (parsed.imports.map (·.package)) ≠ [] := by simpa using imports
      simp only [waits, if_false]
      exact .wait (by rw [isOpen]; rfl) unparsed imports
  · rw [if_pos parsing]
    exact .ignore _

theorem importResolved_heeds (unit : FileUnit) (file : String) (notice : Notice) :
    unit.Heeds (.importResolved file notice) (unit.importResolved notice).1
      (unit.importResolved notice).2 := by
  unfold importResolved
  by_cases skip : (unit.audience.isAnswered || !unit.waitingOn.contains notice.unit.name) = true
  · rw [if_pos skip]
    exact .ignore _
  · rw [if_neg skip]
    obtain ⟨notAnswered, awaited⟩ : unit.audience.isAnswered = false ∧
        notice.unit.name ∈ unit.waitingOn := by simpa using skip
    obtain ⟨subscribers, isOpen⟩ := Audience.isAnswered_eq_false notAnswered
    have complete := complete_of_waiting
      { unit with waitingOn := unit.waitingOn.filter (· ≠ notice.unit.name) } isOpen
    dsimp only
    split
    · rename_i failed
      rw [complete]
      exact .importFailed isOpen awaited failed
    · rename_i notFailed
      have ok : notice.outcome = .ok := by
        cases outcome : notice.outcome with
        | ok => rfl
        | failed failure => simp [outcome, Outcome.isFailed] at notFailed
      split
      · rename_i last
        rw [complete]
        exact .importsDone isOpen awaited ok (by simpa [List.filter_eq_nil_iff] using last)
      · rename_i more
        exact .importDone notAnswered awaited ok more

/-- An answer to a package that the unit waits for ends it or brings it one answer further. -/
theorem importResolved_eq {unit : FileUnit} {notice : Notice} {subscribers : List Address}
    (isOpen : unit.audience = .waiting subscribers)
    (awaited : notice.unit.name ∈ unit.waitingOn) :
    (unit.importResolved notice).1 =
      if notice.outcome.isFailed = true ∨ unit.waitingOn.filter (· ≠ notice.unit.name) = [] then
        { unit with waitingOn := [], audience := .answered notice.outcome }
      else { unit with waitingOn := unit.waitingOn.filter (· ≠ notice.unit.name) } := by
  have complete := complete_of_waiting
    { unit with waitingOn := unit.waitingOn.filter (· ≠ notice.unit.name) } isOpen
  have heard : (unit.audience.isAnswered || !unit.waitingOn.contains notice.unit.name) = false := by
    simp [isOpen, Audience.isAnswered, awaited]
  simp only [importResolved, heard, Bool.false_eq_true, if_false]
  cases outcome : notice.outcome with
  | failed failure => simp only [Outcome.isFailed, if_true, true_or, complete]
  | ok =>
    simp only [Outcome.isFailed, Bool.false_eq_true, if_false, false_or]
    split
    · rw [complete]
    · rfl

theorem heed_heeds (unit : FileUnit) (report : Report) :
    unit.Heeds report (unit.heed report).1 (unit.heed report).2 := by
  cases report with
  | parsed file result =>
    cases result with
    | ok parsed => exact symbolsAvailable_heeds unit file parsed
    | error failure =>
      rw [heed]
      cases audience : unit.audience with
      | waiting subscribers =>
        rw [complete_of_waiting unit audience]
        exact .fail audience
      | answered outcome =>
        rw [complete_of_answered unit audience]
        exact .ignore _
  | importResolved file notice => exact importResolved_heeds unit file notice

theorem Heeds.change {unit next : FileUnit} {report : Report} {deliveries : List Delivery}
    (heeds : unit.Heeds report next deliveries) :
    Audience.Change (.file unit.name) unit.audience next.audience deliveries := by
  cases heeds with
  | ignore => exact .keep _
  | wait => exact .keep _
  | importDone => exact .keep _
  | finish isOpen => rw [isOpen]; exact .announce _ _
  | fail isOpen => rw [isOpen]; exact .announce _ _
  | importFailed isOpen => rw [isOpen]; exact .announce _ _
  | importsDone isOpen => rw [isOpen]; exact .announce _ _

/-- The unit without its listeners. -/
def muted (unit : FileUnit) : FileUnit := { unit with audience := unit.audience.muted }

@[simp] theorem muted_subscribe (unit : FileUnit) (address : Address) :
    (unit.subscribe address).1.muted = unit.muted := by
  simp [subscribe, muted, Audience.muted_subscribe]

theorem muted_complete (unit : FileUnit) (outcome : Outcome) :
    (unit.muted.complete outcome).1 = (unit.complete outcome).1.muted := by
  cases answered : unit.audience <;>
    simp [complete, muted, answered, Audience.muted, Audience.isAnswered, Audience.announce]

theorem status_muted (unit : FileUnit) : unit.muted.status = unit.status := by
  unfold status muted
  cases unit.audience <;> cases unit.parsed <;> rfl

theorem muted_heed (unit : FileUnit) (report : Report) :
    (unit.muted.heed report).1 = (unit.heed report).1.muted := by
  cases report with
  | parsed file result =>
    cases result with
    | ok parsed =>
      simp only [heed, symbolsAvailable, status_muted]
      split
      · rfl
      · split
        · exact muted_complete { unit with parsed := some parsed, waitingOn := _ } .ok
        · rfl
    | error failure => exact muted_complete unit _
  | importResolved file notice =>
    have answered : unit.muted.audience.isAnswered = unit.audience.isAnswered := by simp [muted]
    have waitingOn : unit.muted.waitingOn = unit.waitingOn := rfl
    simp only [heed, importResolved, answered, waitingOn]
    split
    · rfl
    · split
      · exact muted_complete { unit with waitingOn := _ } _
      · split
        · exact muted_complete { unit with waitingOn := _ } _
        · rfl

end FileUnit

theorem FileDesk.handleReport_eq (desk : FileDesk) (report : Report) :
    desk.handleReport report =
      match desk.units.get? report.file with
      | none => (desk, {})
      | some unit => desk.update (unit.heed report) := by
  cases report with
  | parsed file result => cases result <;> rfl
  | importResolved file notice => rfl

namespace PackageUnit

theorem isLive_iff {unit : PackageUnit} :
    unit.isLive = true ↔ ∃ subscribers, unit.audience = .waiting subscribers := by
  cases audience : unit.audience <;> simp [isLive, audience, Audience.isAnswered]

theorem isLive_eq_false {unit : PackageUnit} :
    unit.isLive = false ↔ ∃ outcome, unit.audience = .answered outcome := by
  cases audience : unit.audience <;> simp [isLive, audience, Audience.isAnswered]

theorem complete_of_waiting (unit : PackageUnit) {subscribers : List Address}
    (isOpen : unit.audience = .waiting subscribers) (outcome : Outcome) :
    unit.complete outcome =
      ({ unit with outstanding := [], audience := .answered outcome },
        subscribers.map fun address => ⟨address, .package unit.name, outcome⟩) := by
  simp [complete, isOpen, Audience.isAnswered, Audience.announce, unitName]

@[simp] theorem complete_name (unit : PackageUnit) (outcome : Outcome) :
    (unit.complete outcome).1.name = unit.name := by
  unfold complete
  split <;> rfl

@[simp] theorem subscribe_name (unit : PackageUnit) (address : Address) :
    (unit.subscribe address).1.name = unit.name := rfl

theorem complete_change (unit : PackageUnit) (outcome : Outcome) :
    Audience.Change (.package unit.name) unit.audience (unit.complete outcome).1.audience
      (unit.complete outcome).2 := by
  cases audience : unit.audience with
  | waiting subscribers =>
    rw [complete_of_waiting unit audience]
    exact .announce subscribers outcome
  | answered first =>
    have same : unit.complete outcome = (unit, []) := by
      simp [complete, audience, Audience.isAnswered]
    rw [same, audience]
    exact .keep _

/-- How the outcome of a member changes a unit. -/
inductive Hears (unit : PackageUnit) (file : String) (outcome : Outcome) :
    PackageUnit → List Delivery → Prop where
  | ignore (idle : unit.isLive = false ∨ file ∉ unit.outstanding) : Hears unit file outcome unit []
  | record (live : unit.isLive = true) (member : file ∈ unit.outstanding)
      (more : unit.outstanding.filter (· ≠ file) ≠ []) :
      Hears unit file outcome
        { unit with
          outstanding := unit.outstanding.filter (· ≠ file)
          firstFailure := unit.firstFailure.or outcome.failure? } []
  | finish {subscribers : List Address} (isOpen : unit.audience = .waiting subscribers)
      (member : file ∈ unit.outstanding) (last : ∀ other ∈ unit.outstanding, other = file) :
      Hears unit file outcome
        { unit with
          outstanding := []
          firstFailure := none
          audience := .answered (.ofFailure? (unit.firstFailure.or outcome.failure?)) }
        (subscribers.map fun address =>
          ⟨address, .package unit.name, .ofFailure? (unit.firstFailure.or outcome.failure?)⟩)

theorem memberDone_hears (unit : PackageUnit) (file : String) (outcome : Outcome) :
    unit.Hears file outcome (unit.memberDone file outcome).1 (unit.memberDone file outcome).2 := by
  unfold memberDone
  by_cases skip : (unit.audience.isAnswered || !unit.outstanding.contains file) = true
  · rw [if_pos skip]
    exact .ignore (by simpa [isLive] using skip)
  · rw [if_neg skip]
    obtain ⟨notAnswered, member⟩ : unit.audience.isAnswered = false ∧ file ∈ unit.outstanding := by
      simpa using skip
    obtain ⟨subscribers, isOpen⟩ := Audience.isAnswered_eq_false notAnswered
    dsimp only
    split
    · rename_i last
      rw [complete_of_waiting _ (by exact isOpen)]
      exact .finish isOpen member (by simpa [List.filter_eq_nil_iff] using last)
    · rename_i more
      exact .record (isLive_iff.mpr ⟨_, isOpen⟩) member more

theorem Hears.change {unit next : PackageUnit} {file : String} {outcome : Outcome}
    {deliveries : List Delivery} (hears : unit.Hears file outcome next deliveries) :
    Audience.Change (.package unit.name) unit.audience next.audience deliveries := by
  cases hears with
  | ignore => exact .keep _
  | record => exact .keep _
  | finish isOpen => rw [isOpen]; exact .announce _ _

theorem Hears.name_eq {unit next : PackageUnit} {file : String} {outcome : Outcome}
    {deliveries : List Delivery} (hears : unit.Hears file outcome next deliveries) :
    next.name = unit.name := by
  cases hears <;> rfl

/-- The package is being searched for: nothing is known about its members. -/
structure Fresh (unit : PackageUnit) : Prop where
  live : unit.isLive = true
  members : unit.members = []
  outstanding : unit.outstanding = []
  firstFailure : unit.firstFailure = none

theorem foldl_addMember_frame (unit : PackageUnit) (files : List String) :
    (files.foldl addMember unit).name = unit.name ∧
      (files.foldl addMember unit).audience = unit.audience ∧
      (files.foldl addMember unit).firstFailure = unit.firstFailure := by
  induction files generalizing unit with
  | nil => exact ⟨rfl, rfl, rfl⟩
  | cons file rest ih =>
    obtain ⟨name, audience, firstFailure⟩ := ih (unit.addMember file)
    rw [List.foldl_cons, name, audience, firstFailure]
    unfold addMember
    split <;> exact ⟨rfl, rfl, rfl⟩

/-- Files that are not outstanding become members, in the order of their first occurrence. -/
theorem foldl_addMember_members (unit : PackageUnit) (files : List String) :
    (files.foldl addMember unit).members =
      unit.members ++ (files.removeAll unit.outstanding).eraseDups := by
  induction files generalizing unit with
  | nil => simp
  | cons first rest ih =>
    rw [List.foldl_cons, ih]
    by_cases known : first ∈ unit.outstanding
    · have same : unit.addMember first = unit := by simp [addMember, known]
      rw [same, List.cons_removeAll, if_neg (by simpa using known)]
    · have grows : ∀ file, file ∈ Names.insert first unit.outstanding ↔
          file = first ∨ file ∈ unit.outstanding := fun file => Names.mem_insert
      have later := removeAll_of_mem_iff grows rest
      have added : (unit.addMember first).members = unit.members ++ [first] ∧
          (unit.addMember first).outstanding = Names.insert first unit.outstanding := by
        simp [addMember, known]
      rw [added.1, added.2, later, List.cons_removeAll, if_pos (by simpa using known),
        List.eraseDups_cons, List.append_assoc, List.singleton_append]

theorem mem_foldl_addMember {unit : PackageUnit} {files : List String} {file : String} :
    file ∈ (files.foldl addMember unit).outstanding ↔ file ∈ files ∨ file ∈ unit.outstanding := by
  induction files generalizing unit with
  | nil => simp
  | cons first rest ih =>
    rw [List.foldl_cons, ih, List.mem_cons]
    by_cases known : first ∈ unit.outstanding
    · have same : unit.addMember first = unit := by simp [addMember, known]
      rw [same]
      constructor
      · tauto
      · rintro ((rfl | later) | earlier)
        · exact .inr known
        · exact .inl later
        · exact .inr earlier
    · have added : (unit.addMember first).outstanding = Names.insert first unit.outstanding := by
        simp [addMember, known]
      rw [added, Names.mem_insert]
      tauto

/-- Members are folded into a unit one by one; repeats change nothing. -/
theorem foldl_addMember (unit : PackageUnit) (files : List String)
    (even : ∀ file, file ∈ unit.members ↔ file ∈ unit.outstanding) (unique : unit.members.Nodup) :
    let next := files.foldl addMember unit
    next.members.Nodup ∧ (∀ file, file ∈ next.members ↔ file ∈ next.outstanding) ∧
    ∀ file, file ∈ next.outstanding ↔ file ∈ files ∨ file ∈ unit.outstanding := by
  refine ⟨?_, fun file => ?_, fun file => mem_foldl_addMember⟩
  · rw [foldl_addMember_members, List.nodup_append]
    refine ⟨unique, nodup_eraseDups _, ?_⟩
    rintro file old other new rfl
    have fresh := (mem_removeAll.mp (List.mem_eraseDups.mp new)).2
    exact fresh ((even file).mp old)
  · rw [foldl_addMember_members, mem_foldl_addMember, List.mem_append, List.mem_eraseDups,
      mem_removeAll, even]
    tauto

@[simp] theorem start_name (unit : PackageUnit) (files : List String) :
    (unit.start files).1.name = unit.name := by
  unfold start
  dsimp only
  split
  · rw [complete_name, (foldl_addMember_frame unit files).1]
  · exact (foldl_addMember_frame unit files).1

theorem start_change (unit : PackageUnit) (files : List String) :
    Audience.Change (.package unit.name) unit.audience (unit.start files).1.audience
      (unit.start files).2 := by
  obtain ⟨name, audience, _⟩ := foldl_addMember_frame unit files
  unfold start
  dsimp only
  split
  · rw [← name, ← audience]
    exact complete_change _ _
  · rw [audience]
    exact .keep _

/-- The members of a package that has been found. -/
structure Started (files : List String) (unit next : PackageUnit) : Prop where
  audience : next.audience = unit.audience
  firstFailure : next.firstFailure = none
  unique : next.members.Nodup
  members : ∀ file, file ∈ next.members ↔ file ∈ files
  outstanding : ∀ file, file ∈ next.outstanding ↔ file ∈ files

theorem start_of_fresh {unit : PackageUnit} (fresh : unit.Fresh) {files : List String}
    (some : files ≠ []) :
    Started files unit (unit.start files).1 ∧ (unit.start files).2 = [] := by
  obtain ⟨_, audience, firstFailure⟩ := foldl_addMember_frame unit files
  obtain ⟨unique, even, members⟩ := foldl_addMember unit files
    (by simp [fresh.members, fresh.outstanding]) (by simp [fresh.members])
  have outstanding : ∀ file, file ∈ (files.foldl addMember unit).outstanding ↔ file ∈ files := by
    simpa [fresh.outstanding] using members
  have nonempty : (files.foldl addMember unit).members ≠ [] := by
    intro empty
    apply some
    apply List.eq_nil_iff_forall_not_mem.mpr
    intro file member
    have present := (even file).mpr ((outstanding file).mpr member)
    simp [empty] at present
  have same : unit.start files = (files.foldl addMember unit, []) := by simp [start, nonempty]
  rw [same]
  exact ⟨⟨audience, firstFailure.trans fresh.firstFailure, unique,
    fun file => (even file).trans (outstanding file), outstanding⟩, rfl⟩

theorem start_nil {unit : PackageUnit} (fresh : unit.Fresh) :
    unit.start [] = unit.complete .ok := by
  simp [start, fresh.members]

end PackageUnit

namespace CompileCall

/-- The failure of a call after a notice. -/
def blame (call : CompileCall) : Outcome → Option Failure
  | .ok => call.failure
  | .failed next => prefer call.failure next

theorem blame_eq_none {call : CompileCall} {outcome : Outcome} :
    call.blame outcome = none ↔ call.failure = none ∧ outcome = .ok := by
  cases outcome with
  | ok => simp [blame]
  | failed next =>
    simp only [blame, prefer, reduceCtorEq, and_false, iff_false]
    split
    · simp
    · split <;> simp

/-- How a notice changes a call. -/
inductive Accepts (call : CompileCall) (notice : Notice) : CompileCall → Prop where
  | ignore (unawaited : ∀ name, notice.unit = .file name → name ∉ call.waiting) :
      Accepts call notice call
  | record {name : String} (about : notice.unit = .file name) (awaited : name ∈ call.waiting)
      (more : call.waiting.filter (· ≠ name) ≠ []) :
      Accepts call notice
        { call with
          waiting := call.waiting.filter (· ≠ name)
          failure := call.blame notice.outcome
          result := none }
  | finish {name : String} (about : notice.unit = .file name) (awaited : name ∈ call.waiting)
      (last : ∀ other ∈ call.waiting, other = name) :
      Accepts call notice
        { call with
          waiting := []
          failure := call.blame notice.outcome
          result := some (.ofFailure? (call.blame notice.outcome)) }

theorem accept_accepts (call : CompileCall) (notice : Notice) :
    call.Accepts notice (call.accept notice) := by
  obtain ⟨unit, outcome⟩ := notice
  cases unit with
  | package name => exact .ignore (by simp)
  | file name =>
    by_cases awaited : name ∈ call.waiting
    · have opened : call.accept ⟨.file name, outcome⟩ =
          { call with
            waiting := call.waiting.filter (· ≠ name)
            failure := call.blame outcome
            result := if call.waiting.filter (· ≠ name) = [] then
              some (.ofFailure? (call.blame outcome)) else none } := by
        cases outcome <;> simp [accept, awaited, blame]
      rw [opened]
      by_cases last : call.waiting.filter (· ≠ name) = []
      · rw [if_pos last, last]
        exact .finish rfl awaited (by simpa [List.filter_eq_nil_iff] using last)
      · rw [if_neg last]
        exact .record rfl awaited last
    · simp only [accept, List.contains_iff_mem, awaited, if_false]
      refine .ignore ?_
      rintro other same
      obtain rfl := UnitName.file.inj same
      exact awaited

/-- A failure that is kept may give way to another one but does not go away. -/
theorem Accepts.failure_eq_none {call next : CompileCall} {notice : Notice}
    (accepts : call.Accepts notice next) (clean : next.failure = none) :
    call.failure = none ∧ call.isFirstFailure notice = false := by
  cases accepts with
  | ignore unawaited =>
    refine ⟨clean, ?_⟩
    cases about : notice.unit with
    | package package => simp [isFirstFailure, about]
    | file file => simp [isFirstFailure, about, unawaited file about]
  | record | finish =>
    obtain ⟨before, ok⟩ := blame_eq_none.mp clean
    refine ⟨before, ?_⟩
    cases about : notice.unit <;> simp [isFirstFailure, about, ok, Outcome.isFailed]

end CompileCall

end GoFront.Build
