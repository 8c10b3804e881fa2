import GoFront.Proofs.Build.FileLifecycle
import GoFront.Proofs.Build.Searching
import Mathlib.Data.List.Induction

/-!
The life of a package's unit, whatever operations come to it in whatever order. The first report of
each member decides its outcome, which is settled when the last member has reported. A complete unit
takes nothing in any more, except that a late start still adds members to it.
-/
namespace GoFront.Build

namespace PackageUnit

inductive Operation where
  | subscribe (address : Address)
  | start (files : List String)
  | memberDone (file : String) (outcome : Outcome)
  | complete (outcome : Outcome)

namespace Operation

def subscriber? : Operation → Option Address
  | subscribe address => some address
  | _ => none

/-- The notice that a member reports. -/
def report? : Operation → Option Notice
  | memberDone file outcome => some ⟨.file file, outcome⟩
  | _ => none

/-- The member files that the operation brings. -/
def files : Operation → List String
  | start files => files
  | _ => []

/-- Someone subscribes or a file reports. -/
def IsRoutine : Operation → Prop
  | subscribe _ | memberDone _ _ => True
  | start _ | complete _ => False

end Operation

def perform (unit : PackageUnit) : Operation → PackageUnit × List Delivery
  | .subscribe address => unit.subscribe address
  | .start files => unit.start files
  | .memberDone file outcome => unit.memberDone file outcome
  | .complete outcome => unit.complete outcome

/-- The unit of a package after these operations. -/
def after (name : String) (operations : List Operation) : PackageUnit :=
  (carryOut perform { name } operations).1

/-- What the unit of a package has sent after these operations, the oldest first. -/
def sent (name : String) (operations : List Operation) : List Delivery :=
  (carryOut perform { name } operations).2

theorem after_append (name : String) (operations more : List Operation) :
    after name (operations ++ more) = (carryOut perform (after name operations) more).1 :=
  carryOut_append more

theorem after_concat (name : String) (operations : List Operation) (operation : Operation) :
    after name (operations ++ [operation]) = ((after name operations).perform operation).1 :=
  after_append name operations [operation]

variable {unit next : PackageUnit} {operation : Operation} {outcome : Outcome}

/-! ### Members -/

theorem nodup_foldl_addMember (unique : unit.outstanding.Nodup) (files : List String) :
    (files.foldl addMember unit).outstanding.Nodup := by
  induction files generalizing unit with
  | nil => exact unique
  | cons first rest ih =>
    refine ih ?_
    unfold addMember
    split
    · exact unique
    · rename_i fresh
      exact Names.nodup_insert unique (by simpa using fresh)

theorem foldl_addMember_of_outstanding {files : List String}
    (known : ∀ file ∈ files, file ∈ unit.outstanding) : files.foldl addMember unit = unit := by
  induction files with
  | nil => rfl
  | cons first rest ih =>
    have same : unit.addMember first = unit := by simp [addMember, known first List.mem_cons_self]
    rw [List.foldl_cons, same]
    exact ih fun file mem => known file (List.mem_cons_of_mem _ mem)

theorem Hears.members_eq {file : String} {deliveries : List Delivery}
    (hears : unit.Hears file outcome next deliveries) : next.members = unit.members := by
  cases hears <;> rfl

theorem complete_members (unit : PackageUnit) (outcome : Outcome) :
    (unit.complete outcome).1.members = unit.members := by
  unfold complete
  split <;> rfl

/-- Only a start adds members, and it adds each file that is not outstanding. -/
theorem perform_members (unit : PackageUnit) (operation : Operation) :
    (unit.perform operation).1.members =
      unit.members ++ (operation.files.removeAll unit.outstanding).eraseDups := by
  cases operation with
  | subscribe address => simp [perform, subscribe, Operation.files]
  | start files =>
    rw [Operation.files, ← foldl_addMember_members]
    unfold perform start
    dsimp only
    split
    · exact complete_members _ _
    · rfl
  | memberDone file outcome =>
    have same := (unit.memberDone_hears file outcome).members_eq
    simp [perform, same, Operation.files]
  | complete outcome => simp [perform, complete_members, Operation.files]

/-! ### A complete unit -/

theorem status_eq_complete_iff : unit.status = .complete ↔
    ∃ outcome, unit.audience.outcome? = some outcome := by
  unfold status Audience.outcome? Audience.isAnswered
  cases unit.audience <;> simp

/-- A complete unit answers who subscribes and takes members in; nothing else happens to it. -/
theorem perform_of_answered (isOver : unit.audience = .answered outcome) (operation : Operation) :
    unit.perform operation = (operation.files.foldl addMember unit,
      operation.subscriber?.toList.map fun address => ⟨address, .package unit.name, outcome⟩) := by
  have ignored : ∀ entry : PackageUnit, entry.audience = .answered outcome →
      ∀ other, entry.complete other = (entry, []) := by
    intro entry answered other
    simp [complete, answered, Audience.isAnswered]
  cases operation with
  | subscribe address =>
    have same : unit.subscribe address = (unit, [⟨address, .package unit.name, outcome⟩]) := by
      obtain ⟨_, _, _, _, _⟩ := unit
      obtain rfl := isOver
      rfl
    exact same
  | start files =>
    have stillOver := (foldl_addMember_frame unit files).2.1.trans isOver
    simp only [perform, start, ignored _ stillOver, ite_self]
    rfl
  | memberDone file outcome =>
    simp [perform, memberDone, isOver, Audience.isAnswered, Operation.files, Operation.subscriber?]
  | complete other => exact ignored unit isOver other

theorem Operation.IsRoutine.files_eq (routine : operation.IsRoutine) : operation.files = [] := by
  cases operation with
  | subscribe | memberDone | complete => rfl
  | start => exact routine.elim

theorem carryOut_of_answered (isOver : unit.audience = .answered outcome)
    {operations : List Operation} (routine : ∀ operation ∈ operations, operation.IsRoutine) :
    (carryOut perform unit operations).1 = unit := by
  induction operations with
  | nil => rfl
  | cons operation rest ih =>
    have nothing := (routine operation List.mem_cons_self).files_eq
    rw [carryOut, perform_of_answered isOver, nothing]
    exact ih fun other mem => routine other (List.mem_cons_of_mem _ mem)

theorem Hears.outstanding_of_completed {file : String} {deliveries : List Delivery}
    (hears : unit.Hears file outcome next deliveries) (isOpen : unit.status ≠ .complete)
    (ended : next.status = .complete) : next.outstanding = [] := by
  cases hears with
  | ignore | record => exact absurd ended isOpen
  | finish => rfl

/-- At the end of its work a unit waits for nobody. -/
theorem outstanding_of_completed (isOpen : unit.status ≠ .complete)
    (ended : (unit.perform operation).1.status = .complete) :
    (unit.perform operation).1.outstanding = [] := by
  have live : unit.isLive = true := by simpa [status, isLive] using isOpen
  obtain ⟨subscribers, waiting⟩ := isLive_iff.mp live
  cases operation with
  | subscribe address =>
    simp [perform, subscribe, waiting, Audience.subscribe, status, Audience.isAnswered] at ended
  | start files =>
    have still := (foldl_addMember_frame unit files).2.1.trans waiting
    unfold perform start at ended ⊢
    dsimp only at ended ⊢
    split at ended
    next none => rw [if_pos none, complete_of_waiting _ still]
    next => simp [status, still, Audience.isAnswered] at ended
  | memberDone file outcome =>
    exact (unit.memberDone_hears file outcome).outstanding_of_completed isOpen ended
  | complete outcome => rw [perform, complete_of_waiting unit waiting]

/-! ### Those who are told -/

/-- Apart from newcomers an audience changes only when it is told the outcome. -/
theorem perform_cases (unit : PackageUnit) (operation : Operation) :
    (∃ address, operation = .subscribe address) ∨ operation.subscriber? = none ∧
      Audience.Change (.package unit.name) unit.audience (unit.perform operation).1.audience
        (unit.perform operation).2 := by
  cases operation with
  | subscribe address => exact .inl ⟨address, rfl⟩
  | start files => exact .inr ⟨rfl, unit.start_change files⟩
  | memberDone file outcome => exact .inr ⟨rfl, (unit.memberDone_hears file outcome).change⟩
  | complete outcome => exact .inr ⟨rfl, unit.complete_change outcome⟩

theorem perform_name (unit : PackageUnit) (operation : Operation) :
    (unit.perform operation).1.name = unit.name := by
  cases operation with
  | subscribe address => rfl
  | start files => exact unit.start_name files
  | memberDone file outcome => exact (unit.memberDone_hears file outcome).name_eq
  | complete outcome => exact unit.complete_name outcome

/-- What holds of the unit of a package that these operations have come to. -/
structure Regular (name : String) (unit : PackageUnit) (done : List Operation)
    (sent : List Delivery) : Prop where
  name_eq : unit.name = name
  served : unit.audience.Served (.package name) (done.filterMap Operation.subscriber?) sent

theorem Regular.perform {name : String} {done : List Operation} {sent : List Delivery}
    (regular : Regular name unit done sent) (operation : Operation) :
    Regular name (unit.perform operation).1 (done ++ [operation])
      (sent ++ (unit.perform operation).2) := by
  obtain ⟨rfl, served⟩ := regular
  refine ⟨unit.perform_name operation, ?_⟩
  rw [List.filterMap_append]
  rcases unit.perform_cases operation with ⟨address, rfl⟩ | ⟨quiet, change⟩
  · exact served.subscribe address
  · simpa [quiet] using served.change change

theorem regular_after (name : String) (operations : List Operation) :
    Regular name (after name operations) operations (sent name operations) := by
  have fresh : Regular name { name } [] [] := ⟨rfl, rfl, rfl⟩
  exact carryOut_invariant (Regular name) (fun operation regular => regular.perform operation)
    fresh operations

/-! ### Reports -/

/-- The outcome of a package that has kept this failure and waits for these members: the first
failure that is reported, or success, when no report is missing. -/
def tally (kept : Option Failure) (awaited : List String) (reports : List Notice) : Option Outcome :=
  if ∀ file ∈ awaited, file ∈ reports.map Notice.about then
    some (.ofFailure?
      (kept.or ((firsts Notice.about awaited reports).findSome? (·.outcome.failure?))))
  else none

section
variable {kept : Option Failure} {awaited : List String} {report : Notice} {reports : List Notice}

theorem tally_nil (waits : awaited ≠ []) : tally kept awaited [] = none := by
  obtain ⟨file, mem⟩ := List.exists_mem_of_ne_nil _ waits
  exact if_neg fun all => List.not_mem_nil (all file mem)

theorem tally_of_none : tally kept [] reports = some (.ofFailure? kept) := by
  simp [tally]

theorem tally_stranger (unawaited : report.about ∉ awaited) :
    tally kept awaited (report :: reports) = tally kept awaited reports := by
  have missing : (∀ file ∈ awaited, file ∈ (report :: reports).map Notice.about) ↔
      ∀ file ∈ awaited, file ∈ reports.map Notice.about := by
    refine forall₂_congr fun file mem => ?_
    have apart : file ≠ report.about := ne_of_mem_of_not_mem mem unawaited
    simp only [List.map_cons, List.mem_cons, apart, false_or]
  simp only [tally, missing, firsts_cons_of_not_mem unawaited]

theorem tally_member (isAwaited : report.about ∈ awaited) :
    tally kept awaited (report :: reports) =
      tally (kept.or report.outcome.failure?) (awaited.filter (· ≠ report.about)) reports := by
  have missing : (∀ file ∈ awaited, file ∈ (report :: reports).map Notice.about) ↔
      ∀ file ∈ awaited.filter (· ≠ report.about), file ∈ reports.map Notice.about := by
    simp only [List.map_cons, List.mem_cons, List.mem_filter, decide_eq_true_eq]
    refine forall_congr' fun file => ?_
    tauto
  have first : kept.or ((firsts Notice.about awaited (report :: reports)).findSome?
        (·.outcome.failure?)) =
      (kept.or report.outcome.failure?).or
        ((firsts Notice.about (awaited.filter (· ≠ report.about)) reports).findSome?
          (·.outcome.failure?)) := by
    rw [firsts_cons_of_mem isAwaited, List.findSome?_cons, Option.or_assoc]
    cases report.outcome.failure? <;> rfl
  simp only [tally, missing, first]

/-- Who has not reported did not report first and not later. -/
theorem filter_reported : awaited.filter (· ∉ (report :: reports).map Notice.about) =
    (awaited.filter (· ≠ report.about)).filter (· ∉ reports.map Notice.about) := by
  rw [List.filter_filter]
  refine List.filter_congr fun file _ => ?_
  rw [Bool.eq_iff_iff]
  simp only [List.map_cons, List.mem_cons, Bool.and_eq_true, decide_eq_true_eq]
  tauto

theorem tally_congr {others : List String} (same : ∀ file, file ∈ awaited ↔ file ∈ others) :
    tally kept awaited reports = tally kept others reports := by
  simp only [tally, same, firsts_congr same]

end

/-- A package that waits for members hears of them one after the other. -/
theorem carryOut_reports (live : unit.isLive = true) (waits : unit.outstanding ≠ [])
    {operations : List Operation} (routine : ∀ operation ∈ operations, operation.IsRoutine) :
    (carryOut perform unit operations).1.outstanding = unit.outstanding.filter
        (· ∉ (operations.filterMap Operation.report?).map Notice.about) ∧
      (carryOut perform unit operations).1.audience.outcome? =
        tally unit.firstFailure unit.outstanding (operations.filterMap Operation.report?) := by
  induction operations generalizing unit with
  | nil =>
    obtain ⟨subscribers, isOpen⟩ := isLive_iff.mp live
    simp [carryOut, tally_nil waits, isOpen, Audience.outcome?]
  | cons operation rest ih =>
    have later : ∀ operation ∈ rest, operation.IsRoutine :=
      fun operation mem => routine operation (List.mem_cons_of_mem _ mem)
    cases operation with
    | start | complete => exact (routine _ List.mem_cons_self).elim
    | subscribe address => exact ih ((unit.isLive_subscribe address).trans live) waits later
    | memberDone file outcome =>
      have heard : Operation.report? (.memberDone file outcome) = some ⟨.file file, outcome⟩ := rfl
      have unfolded : (carryOut perform unit (.memberDone file outcome :: rest)).1 =
          (carryOut perform (unit.memberDone file outcome).1 rest).1 := rfl
      have hears := unit.memberDone_hears file outcome
      rw [List.filterMap_cons_some heard, unfolded]
      generalize (unit.memberDone file outcome).1 = next, (unit.memberDone file outcome).2 = sent
        at hears ⊢
      cases hears with
      | ignore idle =>
        have stranger : file ∉ unit.outstanding := idle.resolve_left (by simp [live])
        rw [tally_stranger (by exact stranger)]
        obtain ⟨outstanding, outcome?⟩ := ih live waits later
        have same : unit.outstanding.filter (· ≠ file) = unit.outstanding :=
          List.filter_eq_self.mpr fun other mem => by simpa using ne_of_mem_of_not_mem mem stranger
        refine ⟨outstanding.trans ?_, outcome?⟩
        rw [filter_reported]
        exact congrArg (List.filter _) same.symm
      | record _ member more =>
        rw [tally_member (by exact member)]
        obtain ⟨outstanding, outcome?⟩ := @ih
          { unit with
            outstanding := unit.outstanding.filter (· ≠ file)
            firstFailure := unit.firstFailure.or outcome.failure? } live more later
        rw [filter_reported]
        exact ⟨outstanding, outcome?⟩
      | finish isOpen member last =>
        have nothing : unit.outstanding.filter (· ≠ file) = [] := by
          simpa [List.filter_eq_nil_iff] using last
        rw [carryOut_of_answered rfl later, tally_member (by exact member)]
        constructor
        · rw [filter_reported]
          exact (congrArg (List.filter _) nothing).symm
        · exact ((congrArg (tally _ · _) nothing).trans tally_of_none).symm

/-! ### One start -/

/-- The reports among the operations, in order. -/
def reportsOf (operations : List Operation) : List Notice :=
  operations.filterMap Operation.report?

/-- The reports that count for a package with these members: the first of each. -/
def counted (files : List String) (operations : List Operation) : List Notice :=
  firsts Notice.about files (reportsOf operations)

/-- Reports of one member do not contradict each other. -/
def Agree (files : List String) (reports : List Notice) : Prop :=
  ∀ report ∈ reports, ∀ other ∈ reports, report.about ∈ files → other.about = report.about →
    other.outcome.isFailed = report.outcome.isFailed

/-- The unit of a package that is started once, between these operations. -/
def afterStart (name : String) (before : List Operation) (files : List String)
    (later : List Operation) : PackageUnit :=
  after name (before ++ .start files :: later)

section
variable {name : String} {before later : List Operation} {files : List String}
  {reports : List Notice}

theorem tally_isSome : (∃ outcome, tally none files reports = some outcome) ↔
    ∀ file ∈ files, file ∈ reports.map Notice.about := by
  unfold tally
  split
  next all => exact iff_of_true ⟨_, rfl⟩ all
  next missing => exact iff_of_false (by simp) missing

theorem tally_eq_ok : tally none files reports = some .ok ↔
    ∀ file ∈ files, (reports.find? (·.about = file)).map (·.outcome) = some .ok := by
  -- A file that fails at once and a package that waits for all succeed alike.
  rw [← FileUnit.verdict_eq_ok]
  have all : (∀ file ∈ files, file ∈ reports.map Notice.about) ↔ _ := mem_map_firsts
  simp only [tally, FileUnit.verdict, all]
  cases (firsts Notice.about files reports).findSome? (·.outcome.failure?) <;>
    simp [Outcome.ofFailure?]

theorem tally_eq_failed (all : ∀ file ∈ files, file ∈ reports.map Notice.about)
    (failure : Failure) : tally none files reports = some (.failed failure) ↔
      (firsts Notice.about files reports).findSome? (·.outcome.failure?) = some failure := by
  rw [tally, if_pos all, Option.none_or]
  cases (firsts Notice.about files reports).findSome? (·.outcome.failure?) <;>
    simp [Outcome.ofFailure?]

/-- Whether a package fails is seen from the reports that count. -/
theorem tally_isFailed : (tally none files reports).map Outcome.isFailed =
    if ∀ file ∈ files, file ∈ reports.map Notice.about then
      some ((firsts Notice.about files reports).any (·.outcome.isFailed))
    else none := by
  have found : ∀ reports : List Notice,
      (Outcome.ofFailure? (reports.findSome? (·.outcome.failure?))).isFailed =
        reports.any (·.outcome.isFailed) := by
    intro reports
    induction reports with
    | nil => rfl
    | cons report rest ih =>
      rw [List.findSome?_cons, List.any_cons, ← ih]
      cases report.outcome <;> simp [Outcome.failure?, Outcome.isFailed, Outcome.ofFailure?]
  unfold tally
  split
  next => rw [Option.map_some, Option.none_or, found]
  next => rfl

/-- If reports agree it does not matter which one of a member is the first. -/
theorem Agree.any_firsts (agree : Agree files reports) :
    (firsts Notice.about files reports).any (·.outcome.isFailed) = true ↔
      ∃ report ∈ reports, report.about ∈ files ∧ report.outcome.isFailed = true := by
  rw [List.any_eq_true]
  constructor
  · rintro ⟨report, counts, failed⟩
    exact ⟨report, (mem_of_mem_firsts counts).1, (mem_of_mem_firsts counts).2, failed⟩
  · rintro ⟨report, mem, isMember, failed⟩
    obtain ⟨first, counts, same⟩ := exists_mem_firsts mem isMember
    have alike := agree report mem first (mem_of_mem_firsts counts).1 isMember same
    exact ⟨first, counts, alike.trans failed⟩

theorem Agree.perm {others : List Notice} (agree : Agree files reports)
    (perm : others.Perm reports) : Agree files others := by
  intro report mem other memOther
  exact agree report (perm.mem_iff.mp mem) other (perm.mem_iff.mp memOther)

theorem tally_isFailed_congr {others : List Notice}
    (reordered : (firsts Notice.about files others).Perm (firsts Notice.about files reports) ∨
      others.Perm reports ∧ Agree files reports) :
    (tally none files others).map Outcome.isFailed =
      (tally none files reports).map Outcome.isFailed := by
  have sameReported : (∀ file ∈ files, file ∈ others.map Notice.about) ↔
      ∀ file ∈ files, file ∈ reports.map Notice.about := by
    rcases reordered with perm | ⟨perm, -⟩
    · refine mem_map_firsts.trans (Iff.trans ?_ mem_map_firsts.symm)
      exact forall₂_congr fun file _ => (perm.map Notice.about).mem_iff
    · exact forall₂_congr fun file _ => (perm.map Notice.about).mem_iff
  have sameFailed : (firsts Notice.about files others).any (·.outcome.isFailed) =
      (firsts Notice.about files reports).any (·.outcome.isFailed) := by
    rcases reordered with perm | ⟨perm, agree⟩
    · exact perm.any_eq
    · rw [Bool.eq_iff_iff, agree.any_firsts, (agree.perm perm).any_firsts]
      simp only [perm.mem_iff]
  rw [tally_isFailed, tally_isFailed, sameFailed]
  exact if_congr sameReported rfl rfl

theorem fresh_after (name : String)
    (routine : ∀ operation ∈ before, operation.IsRoutine) : (after name before).Fresh := by
  induction before using List.reverseRecOn with
  | nil => exact ⟨rfl, rfl, rfl, rfl⟩
  | append_singleton before operation ih =>
    have fresh := ih fun other mem => routine other (List.mem_append_left _ mem)
    have plain := routine operation (by simp)
    rw [after_concat]
    cases operation with
    | subscribe address => exact fresh.subscribe address
    | memberDone file outcome => exact (fresh.memberDone file outcome).symm ▸ fresh
    | start | complete => exact plain.elim

theorem carryOut_members (routine : ∀ operation ∈ later, operation.IsRoutine) :
    (carryOut perform unit later).1.members = unit.members := by
  induction later generalizing unit with
  | nil => rfl
  | cons operation rest ih =>
    have nothing := (routine operation List.mem_cons_self).files_eq
    have later := @ih (unit.perform operation).1
      fun other mem => routine other (List.mem_cons_of_mem _ mem)
    rw [perform_members, nothing, List.nil_removeAll, List.eraseDups_nil, List.append_nil] at later
    exact later

/-- A package that has been found waits for each of its members once. -/
theorem Fresh.outstanding_start (fresh : unit.Fresh) (files : List String) :
    (unit.start files).1.outstanding.Perm files.eraseDups := by
  have same : ∀ file, file ∈ (unit.start files).1.outstanding ↔ file ∈ files := by
    cases files with
    | nil =>
      obtain ⟨subscribers, isOpen⟩ := isLive_iff.mp fresh.live
      simp [start_nil fresh, complete_of_waiting unit isOpen]
    | cons first rest =>
      exact (start_of_fresh fresh (List.cons_ne_nil first rest)).1.outstanding
  have unique : (unit.start files).1.outstanding.Nodup := by
    have folded := nodup_foldl_addMember (fresh.outstanding ▸ List.nodup_nil) files
    unfold start
    dsimp only
    split
    · unfold complete
      split
      · exact folded
      · exact List.nodup_nil
    · exact folded
  refine (List.perm_ext_iff_of_nodup unique (nodup_eraseDups files)).mpr fun file => ?_
  rw [same, List.mem_eraseDups]

theorem Fresh.members_start (fresh : unit.Fresh) (files : List String) :
    (unit.start files).1.members = files.eraseDups := by
  have grown := perform_members unit (.start files)
  rw [fresh.members, fresh.outstanding, List.removeAll_nil] at grown
  exact grown

/-- From the start on the reports decide. -/
theorem afterStart_reports (name : String) (files : List String)
    (early : ∀ operation ∈ before, operation.IsRoutine)
    (routine : ∀ operation ∈ later, operation.IsRoutine) :
    (afterStart name before files later).outstanding =
        ((after name before).start files).1.outstanding.filter
          (· ∉ (reportsOf later).map Notice.about) ∧
      (afterStart name before files later).audience.outcome? =
        tally none files (reportsOf later) := by
  have fresh := fresh_after name early
  have split : afterStart name before files later =
      (carryOut perform ((after name before).start files).1 later).1 := after_append name before _
  rw [split]
  cases files with
  | nil =>
    obtain ⟨subscribers, isOpen⟩ := isLive_iff.mp fresh.live
    rw [start_nil fresh, complete_of_waiting _ isOpen, carryOut_of_answered rfl routine,
      tally_of_none]
    exact ⟨rfl, rfl⟩
  | cons first rest =>
    obtain ⟨started, -⟩ := start_of_fresh fresh (List.cons_ne_nil first rest)
    obtain ⟨subscribers, isOpen⟩ := isLive_iff.mp fresh.live
    have live := isLive_iff.mpr ⟨subscribers, started.audience.trans isOpen⟩
    have waits := List.ne_nil_of_mem ((started.outstanding first).mpr List.mem_cons_self)
    obtain ⟨outstanding, outcome?⟩ := carryOut_reports live waits routine
    refine ⟨outstanding, outcome?.trans ?_⟩
    rw [started.firstFailure]
    exact tally_congr started.outstanding

/-- How a package that is started once sums up its members: the first report of each counts, all of
them are waited for, and of the failures among them the first is the outcome. -/
structure Aggregation (name : String) (before : List Operation) (files : List String)
    (later : List Operation) : Prop where
  unstarted : (after name before).status ≠ .complete
  members : (afterStart name before files later).members = files.eraseDups
  complete : (afterStart name before files later).status = .complete ↔
    ∀ file ∈ files, file ∈ (reportsOf later).map Notice.about
  outstanding : (afterStart name before files later).outstanding.Perm
    (files.eraseDups.filter (· ∉ (reportsOf later).map Notice.about))
  ok : (afterStart name before files later).audience.outcome? = some .ok ↔
    ∀ file ∈ files, ((reportsOf later).find? (·.about = file)).map (·.outcome) = some .ok
  failed : (afterStart name before files later).status = .complete → ∀ failure,
    (afterStart name before files later).audience.outcome? = some (.failed failure) ↔
      (counted files later).findSome? (·.outcome.failure?) = some failure
  quiet : (afterStart name before files later).status ≠ .complete →
    sent name (before ++ .start files :: later) = []
  told : ∀ outcome, (afterStart name before files later).audience.outcome? = some outcome →
    sent name (before ++ .start files :: later) =
      ((before ++ .start files :: later).filterMap Operation.subscriber?).map
        fun address => ⟨address, .package name, outcome⟩
  /-- The order of the reports decides at most which failure is the outcome. -/
  reordered : ∀ others, (∀ operation ∈ others, operation.IsRoutine) →
    ((counted files others).Perm (counted files later) ∨
      (reportsOf others).Perm (reportsOf later) ∧ Agree files (reportsOf later)) →
    (afterStart name before files others).audience.outcome?.map Outcome.isFailed =
      (afterStart name before files later).audience.outcome?.map Outcome.isFailed

theorem members_aggregated (name : String) (files : List String)
    (early : ∀ operation ∈ before, operation.IsRoutine)
    (routine : ∀ operation ∈ later, operation.IsRoutine) : Aggregation name before files later := by
  obtain ⟨outstanding, outcome?⟩ := afterStart_reports name files early routine
  have fresh := fresh_after name early
  have served := (regular_after name (before ++ .start files :: later)).served
  have ended : (afterStart name before files later).status = .complete ↔
      ∀ file ∈ files, file ∈ (reportsOf later).map Notice.about := by
    rw [status_eq_complete_iff, outcome?, tally_isSome]
  exact {
    unstarted := by simpa [status, isLive] using fresh.live
    members := by
      have grown := (carryOut_members routine).trans (fresh.members_start files)
      rwa [afterStart, after_append]
    complete := ended
    outstanding := by
      rw [outstanding]
      exact (fresh.outstanding_start files).filter _
    ok := by rw [outcome?, tally_eq_ok]
    failed := by
      intro complete failure
      rw [outcome?]
      exact tally_eq_failed (ended.mp complete) failure
    quiet := by
      intro isOpen
      cases audience : (afterStart name before files later).audience with
      | waiting subscribers =>
        rw [← afterStart, audience] at served
        exact served.2
      | answered outcome =>
        exact absurd (status_eq_complete_iff.mpr ⟨outcome, by rw [audience]; rfl⟩) isOpen
    told := by
      intro outcome settled
      rw [← afterStart, Audience.eq_answered settled] at served
      exact served
    reordered := by
      intro others routineOthers same
      rw [outcome?, (afterStart_reports name files early routineOthers).2]
      exact tally_isFailed_congr same }

/-- Neither a report before the start counts, nor a second one, nor one about another file. The
failure that comes first is the outcome, and in another order it is another failure. -/
theorem members_aggregated_two_failures :
    let lost : Outcome := .failed .disconnected
    let refused : Outcome := .failed (.cancelled "file b.go")
    let before : List Operation := [.subscribe (.call 0), .memberDone "a.go" .ok]
    let files := ["b.go", "a.go", "b.go"]
    let later : List Operation := [.memberDone "c.go" lost, .memberDone "b.go" refused,
      .subscribe (.task "d.go"), .memberDone "b.go" .ok, .memberDone "a.go" lost, .subscribe (.call 1)]
    let others : List Operation := [.memberDone "a.go" lost, .memberDone "b.go" refused]
    (∀ operation ∈ before, operation.IsRoutine) ∧ (∀ operation ∈ later, operation.IsRoutine) ∧
      (∀ operation ∈ others, operation.IsRoutine) ∧
      (afterStart "util" before files later).members = ["b.go", "a.go"] ∧
      (afterStart "util" before files later).audience.outcome? = some refused ∧
      sent "util" (before ++ .start files :: later) = [⟨.call 0, .package "util", refused⟩,
        ⟨.task "d.go", .package "util", refused⟩, ⟨.call 1, .package "util", refused⟩] ∧
      (afterStart "util" before files others).audience.outcome? = some lost := by
  intro lost refused before files later others
  have early : ∀ operation ∈ before, operation.IsRoutine := by
    simp [before, Operation.IsRoutine]
  have routine : ∀ operation ∈ later, operation.IsRoutine := by
    simp [later, Operation.IsRoutine]
  have swapped : ∀ operation ∈ others, operation.IsRoutine := by
    simp [others, Operation.IsRoutine]
  have sums := members_aggregated "util" files early routine
  have sumsSwapped := members_aggregated "util" files early swapped
  have settled := (sums.failed (sums.complete.mpr (by decide +kernel)) (.cancelled "file b.go")).mpr
    (by decide +kernel)
  have settledSwapped :=
    (sumsSwapped.failed (sumsSwapped.complete.mpr (by decide +kernel)) .disconnected).mpr
      (by decide +kernel)
  exact ⟨early, routine, swapped, sums.members.trans (by decide +kernel), settled,
    sums.told _ settled, settledSwapped⟩

end

/-! ### Starts -/

/-- One of the operations, behind these others, is a start with these files. -/
def Brings (operations before : List Operation) (files : List String) : Prop :=
  ∃ later, operations = before ++ .start files :: later

section
variable {operations before : List Operation} {files : List String}

theorem brings_concat : Brings (operations ++ [operation]) before files ↔
    Brings operations before files ∨ before = operations ∧ operation = .start files := by
  constructor
  · rintro ⟨later, split⟩
    rcases List.eq_nil_or_concat' later with rfl | ⟨later, last, rfl⟩
    · obtain ⟨rfl, same⟩ := List.append_inj' split rfl
      exact .inr ⟨rfl, List.singleton_inj.mp same⟩
    · rw [← List.cons_append, ← List.append_assoc] at split
      exact .inl ⟨later, (List.append_inj' split rfl).1⟩
  · rintro (⟨later, rfl⟩ | ⟨rfl, rfl⟩)
    · exact ⟨later ++ [operation], by simp⟩
    · exact ⟨[], rfl⟩

/-- What holds at every start holds at the last operation, if that brings files. -/
theorem forall_brings_concat {property : List Operation → List String → Prop}
    (nothing : property operations []) :
    (∀ before files, Brings (operations ++ [operation]) before files → property before files) ↔
      (∀ before files, Brings operations before files → property before files) ∧
        property operations operation.files := by
  constructor
  · intro all
    refine ⟨fun before files brings => all before files (brings_concat.mpr (.inl brings)), ?_⟩
    cases operation with
    | start files => exact all operations files (brings_concat.mpr (.inr ⟨rfl, rfl⟩))
    | subscribe | memberDone | complete => exact nothing
  · rintro ⟨earlier, last⟩ before files brings
    rcases brings_concat.mp brings with old | ⟨rfl, rfl⟩
    · exact earlier before files old
    · exact last

theorem status_of_complete {name : String} (ended : (after name operations).status = .complete)
    (more : List Operation) : (after name (operations ++ more)).status = .complete := by
  induction more using List.reverseRecOn with
  | nil => simpa using ended
  | append_singleton more operation ih =>
    obtain ⟨outcome, settled⟩ := status_eq_complete_iff.mp ih
    have isOver := Audience.eq_answered settled
    rw [← List.append_assoc, after_concat, perform_of_answered isOver]
    refine status_eq_complete_iff.mpr ⟨outcome, ?_⟩
    rw [(foldl_addMember_frame _ _).2.1, settled]

/-- A complete unit waits for the files of the starts that came too late. -/
theorem outstanding_eq_nil_iff {name : String}
    (ended : (after name operations).status = .complete) :
    (after name operations).outstanding = [] ↔ ∀ before files, Brings operations before files →
      (after name before).status = .complete → files = [] := by
  induction operations using List.reverseRecOn with
  | nil => simp [after, carryOut, status, Audience.isAnswered] at ended
  | append_singleton operations operation ih =>
    rw [after_concat] at ended ⊢
    by_cases wasOver : (after name operations).status = .complete
    · obtain ⟨outcome, settled⟩ := status_eq_complete_iff.mp wasOver
      rw [forall_brings_concat (fun _ => rfl), ← ih wasOver,
        perform_of_answered (Audience.eq_answered settled)]
      simp only [List.eq_nil_iff_forall_not_mem, mem_foldl_addMember]
      constructor
      · intro none
        exact ⟨fun file mem => none file (.inr mem), fun _ file mem => none file (.inl mem)⟩
      · rintro ⟨earlier, late⟩ file (new | old)
        · exact late wasOver file new
        · exact earlier file old
    · -- The unit is complete now and was not before, so no start can have come too late.
      refine iff_of_true (outstanding_of_completed wasOver ended) ?_
      intro before files brings already
      rcases brings_concat.mp brings with ⟨later, rfl⟩ | ⟨rfl, _⟩
      · exact absurd (status_of_complete already _) wasOver
      · exact absurd already wasOver

/-- A member is repeated if a start brings it again after it has reported. -/
theorem nodup_members_iff (name : String) (operations : List Operation) :
    (after name operations).members.Nodup ↔ ∀ before files, Brings operations before files →
      ∀ file ∈ files, file ∈ (after name before).members →
        file ∈ (after name before).outstanding := by
  induction operations using List.reverseRecOn with
  | nil =>
    refine iff_of_true List.nodup_nil ?_
    rintro before files ⟨later, split⟩
    simp at split
  | append_singleton operations operation ih =>
    rw [after_concat, perform_members, forall_brings_concat (by simp), ← ih, List.nodup_append]
    simp only [nodup_eraseDups, true_and, List.mem_eraseDups, mem_removeAll]
    refine and_congr_right fun _ => ?_
    constructor
    · intro apart file brought isMember
      by_contra reported
      exact apart file isMember file ⟨brought, reported⟩ rfl
    · rintro known file isMember _ ⟨brought, reported⟩ rfl
      exact reported (known _ brought isMember)

/-! ### Nothing leaves the last stage -/

/-- What remains of a complete unit whatever comes to it. Only a start that brings files for which the
unit does not wait changes anything, and only its members. -/
structure Terminal (name : String) (operations : List Operation) : Prop where
  kept : ∀ operation, ((after name operations).perform operation).1.status = .complete ∧
    ((after name operations).perform operation).1.audience = (after name operations).audience
  replayed : ∃ outcome, (after name operations).audience = .answered outcome ∧ ∀ operation,
    ((after name operations).perform operation).2 =
      operation.subscriber?.toList.map fun address => ⟨address, .package name, outcome⟩
  closed : ∀ operation,
    ((after name operations).perform operation).1.members = (after name operations).members ∧
      ((after name operations).perform operation).1.outstanding =
        (after name operations).outstanding ↔
    ∀ file ∈ operation.files, file ∈ (after name operations).outstanding
  outstanding : (after name operations).outstanding = [] ↔
    ∀ before files, Brings operations before files →
      (after name before).status = .complete → files = []
  unique : (after name operations).members.Nodup ↔
    ∀ before files, Brings operations before files → ∀ file ∈ files,
      file ∈ (after name before).members → file ∈ (after name before).outstanding

theorem terminal_but_for_starts {name : String}
    (ended : (after name operations).status = .complete) : Terminal name operations := by
  obtain ⟨outcome, settled⟩ := status_eq_complete_iff.mp ended
  have isOver := Audience.eq_answered settled
  have frame := fun operation : Operation =>
    (foldl_addMember_frame (after name operations) operation.files).2.1
  refine ⟨fun operation => ?_, ⟨outcome, isOver, fun operation => ?_⟩, fun operation => ?_,
    outstanding_eq_nil_iff ended, nodup_members_iff name operations⟩
  · rw [perform_of_answered isOver]
    exact ⟨status_eq_complete_iff.mpr ⟨outcome, by rw [frame, settled]⟩, frame operation⟩
  · rw [perform_of_answered isOver, (regular_after name operations).name_eq]
  · rw [perform_of_answered isOver]
    constructor
    · rintro ⟨-, same⟩ file brought
      rw [← same, mem_foldl_addMember]
      exact .inl brought
    · intro known
      rw [foldl_addMember_of_outstanding known]
      exact ⟨rfl, rfl⟩

theorem terminal_but_for_starts_failed :
    let operations : List Operation := [.subscribe (.call 0), .start ["b.go", "a.go", "b.go"],
      .memberDone "a.go" (.failed .disconnected), .memberDone "b.go" .ok]
    (after "util" operations).status = .complete ∧ Terminal "util" operations := by
  intro operations
  have ended : (after "util" operations).status = .complete := by decide +kernel
  exact ⟨ended, terminal_but_for_starts ended⟩

/-- A start after the end makes a complete unit wait again, for a member that it has twice. -/
theorem start_adds_to_complete :
    let operations : List Operation := [.start ["a.go"], .memberDone "a.go" .ok]
    let done := after "util" operations
    let next := after "util" (operations ++ [.start ["a.go"]])
    done.status = .complete ∧ next.status = .complete ∧ next.members ≠ done.members ∧
      next.outstanding ≠ done.outstanding ∧ next.outstanding ≠ [] ∧ ¬ next.members.Nodup := by
  decide +kernel

end

end PackageUnit

end GoFront.Build
