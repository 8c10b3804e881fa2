import GoFront.Build.Unit.Record
import GoFront.Proofs.Build.PackageLifecycle

/-!
The records of the units run as the units do: each operation on a record gives the record of what
the unit becomes, and sends the same. So the stage, the subscribers and the outcome, which a record
keeps apart, always fit each other.
-/
namespace GoFront.Build

/-- If every operation on the image of a unit gives the image of what it makes of the unit, then so
do all of them one after the other. -/
theorem carryOut_map {Entity Image Operation : Type} {image : Entity → Image}
    {perform : Entity → Operation → Entity × List Delivery}
    {performImage : Image → Operation → Image × List Delivery}
    (follows : ∀ unit operation,
      performImage (image unit) operation = (perform unit operation).map image id)
    (unit : Entity) (operations : List Operation) :
    carryOut performImage (image unit) operations =
      (carryOut perform unit operations).map image id := by
  induction operations generalizing unit with
  | nil => rfl
  | cons operation rest ih =>
    unfold carryOut
    rw [follows]
    dsimp only [Prod.map]
    rw [ih]
    rfl

/-- A unit is in its last stage exactly if its outcome is known, and then nobody waits for it. -/
structure Progress.Settled (progress : Progress) : Prop where
  complete_iff : progress.status = .complete ↔ ∃ outcome, progress.outcome = some outcome
  nobody : progress.status = .complete → progress.subscribers = []

theorem Audience.subscribers_of_isAnswered {audience : Audience}
    (isOver : audience.isAnswered = true) : audience.subscribers = [] := by
  cases audience with
  | waiting => cases isOver
  | answered => rfl

namespace FileRecord

def perform (unit : FileRecord) : FileUnit.Operation → FileRecord × List Delivery
  | .subscribe address => unit.subscribe address
  | .symbolsAvailable parsed => unit.symbolsAvailable parsed
  | .importResolved notice => unit.importResolved notice
  | .complete outcome => unit.complete outcome

end FileRecord

namespace FileUnit

variable (unit : FileUnit)

theorem record_subscribe (address : Address) :
    unit.record.subscribe address = (unit.subscribe address).map record id := by
  obtain ⟨name, parsed, waitingOn, audience⟩ := unit
  cases audience <;> cases parsed <;> rfl

theorem record_complete (outcome : Outcome) :
    unit.record.complete outcome = (unit.complete outcome).map record id := by
  obtain ⟨name, parsed, waitingOn, audience⟩ := unit
  cases audience <;> cases parsed <;> rfl

/-- The work ends here if nothing is left to do. -/
theorem record_complete_if (idle : Prop) [Decidable idle] :
    (if idle then unit.record.complete .ok else (unit.record, [])) =
      (if idle then unit.complete .ok else (unit, [])).map record id := by
  rw [record_complete, apply_ite (Prod.map record id)]
  rfl

theorem record_symbolsAvailable (parsed : ParsedFile) :
    unit.record.symbolsAvailable parsed = (unit.symbolsAvailable parsed).map record id := by
  obtain ⟨name, before, waitingOn, audience⟩ := unit
  cases audience with
  | answered outcome => cases before <;> rfl
  | waiting subscribers =>
    cases before with
    | some before => rfl
    | none =>
      let imports := Names.ofList (parsed.imports.map (·.package))
      exact record_complete_if ⟨name, some parsed, imports, .waiting subscribers⟩ (imports = [])

@[simp] theorem mem_record_waitingOn {package : String} :
    package ∈ unit.record.waitingOn ↔ package ∈ unit.waitingOn := Iff.rfl

theorem status_record_eq_complete :
    unit.record.status = .complete ↔ unit.audience.isAnswered = true := by
  obtain ⟨name, parsed, waitingOn, audience⟩ := unit
  cases audience <;> cases parsed <;> simp [record, status, Audience.isAnswered]

theorem record_importResolved (notice : Notice) :
    unit.record.importResolved notice = (unit.importResolved notice).map record id := by
  unfold FileRecord.importResolved importResolved
  by_cases isOver : unit.audience.isAnswered
  · rw [if_pos (unit.status_record_eq_complete.mpr isOver), if_pos (by simp [isOver])]
    rfl
  by_cases awaited : notice.unit.name ∈ unit.record.waitingOn
  · let left := unit.waitingOn.filter (· ≠ notice.unit.name)
    let next := { unit with waitingOn := left }
    rw [if_neg (mt unit.status_record_eq_complete.mp isOver), if_neg (not_not.mpr awaited),
      if_neg (by simpa [isOver] using awaited)]
    cases result : notice.outcome with
    | failed failure => exact next.record_complete (.failed failure)
    | ok => exact next.record_complete_if (left = [])
  · rw [if_neg (mt unit.status_record_eq_complete.mp isOver), if_pos awaited,
      if_pos (by simpa using .inr awaited)]
    rfl

theorem record_perform (operation : Operation) :
    unit.record.perform operation = (unit.perform operation).map record id := by
  cases operation with
  | subscribe address => exact unit.record_subscribe address
  | symbolsAvailable parsed => exact unit.record_symbolsAvailable parsed
  | importResolved notice => exact unit.record_importResolved notice
  | complete outcome => exact unit.record_complete outcome

theorem record_settled : unit.record.Settled where
  complete_iff := status_eq_complete_iff
  nobody isOver := Audience.subscribers_of_isAnswered (unit.status_record_eq_complete.mp isOver)

end FileUnit

/-- The record of a file after any operations is that of its unit, with the same deliveries. -/
theorem FileRecord.carryOut_perform (name : String) (operations : List FileUnit.Operation) :
    carryOut perform { name } operations =
      ((FileUnit.after name operations).record, FileUnit.sent name operations) :=
  carryOut_map FileUnit.record_perform { name } operations

/-- In the record of a file the stage, the subscribers and the outcome fit each other. -/
theorem FileRecord.carryOut_settled (name : String) (operations : List FileUnit.Operation) :
    (carryOut perform { name } operations).1.Settled := by
  rw [carryOut_perform]
  exact FileUnit.record_settled _

namespace PackageRecord

def perform (unit : PackageRecord) : PackageUnit.Operation → PackageRecord × List Delivery
  | .subscribe address => unit.subscribe address
  | .start files => unit.start files
  | .memberDone file outcome => unit.memberDone file outcome
  | .complete outcome => unit.complete outcome

end PackageRecord

namespace PackageUnit

variable (unit : PackageUnit)

theorem record_subscribe (address : Address) :
    unit.record.subscribe address = (unit.subscribe address).map record id := by
  obtain ⟨name, members, outstanding, firstFailure, audience⟩ := unit
  cases audience <;> rfl

theorem record_complete (outcome : Outcome) :
    unit.record.complete outcome = (unit.complete outcome).map record id := by
  obtain ⟨name, members, outstanding, firstFailure, audience⟩ := unit
  cases audience <;> rfl

@[simp] theorem mem_record_outstanding {file : String} :
    file ∈ unit.record.outstanding ↔ file ∈ unit.outstanding := Iff.rfl

theorem status_record_eq_complete :
    unit.record.status = .complete ↔ unit.audience.isAnswered = true := by
  simp [record, status]

theorem record_complete_if (idle : Prop) [Decidable idle] :
    (if idle then unit.record.complete .ok else (unit.record, [])) =
      (if idle then unit.complete .ok else (unit, [])).map record id := by
  rw [record_complete, apply_ite (Prod.map record id)]
  rfl

theorem record_addMember (file : String) :
    unit.record.addMember file = (unit.addMember file).record := by
  unfold PackageRecord.addMember addMember
  by_cases known : file ∈ unit.record.outstanding
  · rw [if_pos known, if_pos (by simpa using known)]
  · rw [if_neg known, if_neg (by simpa using known)]
    rfl

theorem record_start (files : List String) :
    unit.record.start files = (unit.start files).map record id := by
  have added : files.foldl PackageRecord.addMember unit.record =
      (files.foldl addMember unit).record :=
    List.foldl_hom record fun unit file => unit.record_addMember file
  unfold PackageRecord.start start
  rw [added]
  exact record_complete_if (files.foldl addMember unit) _

theorem record_keepFailure (outcome : Outcome) :
    unit.record.keepFailure outcome =
      { unit with firstFailure := unit.firstFailure.or outcome.failure? }.record := by
  obtain ⟨name, members, outstanding, firstFailure, audience⟩ := unit
  cases firstFailure <;> cases outcome <;> rfl

theorem record_settle : unit.record.settle =
    (if unit.outstanding = [] then
      { unit with firstFailure := none }.complete (.ofFailure? unit.firstFailure)
    else (unit, [])).map record id := by
  obtain ⟨name, members, outstanding, firstFailure, audience⟩ := unit
  unfold PackageRecord.settle
  split
  next last =>
    rw [if_pos (show outstanding = [] from last)]
    cases firstFailure with
    | none => exact record_complete _ .ok
    | some failure => exact record_complete ⟨name, members, outstanding, none, audience⟩ _
  next more =>
    rw [if_neg (show outstanding ≠ [] from more)]
    rfl

theorem record_memberDone (file : String) (outcome : Outcome) :
    unit.record.memberDone file outcome = (unit.memberDone file outcome).map record id := by
  unfold PackageRecord.memberDone memberDone
  by_cases ignored : unit.audience.isAnswered = true ∨ file ∉ unit.outstanding
  · rw [if_pos (by simpa [status_record_eq_complete] using ignored),
      if_pos (by simpa using ignored)]
    rfl
  · rw [if_neg (by simpa [status_record_eq_complete] using ignored),
      if_neg (by simpa using ignored)]
    let left := unit.outstanding.filter (· ≠ file)
    exact (congrArg _ (record_keepFailure { unit with outstanding := left } outcome)).trans
      (record_settle _)

theorem record_perform (operation : Operation) :
    unit.record.perform operation = (unit.perform operation).map record id := by
  cases operation with
  | subscribe address => exact unit.record_subscribe address
  | start files => exact unit.record_start files
  | memberDone file outcome => exact unit.record_memberDone file outcome
  | complete outcome => exact unit.record_complete outcome

theorem record_settled : unit.record.Settled where
  complete_iff := status_eq_complete_iff
  nobody isOver := Audience.subscribers_of_isAnswered (unit.status_record_eq_complete.mp isOver)

end PackageUnit

/-- The record of a package after any operations is that of its unit, with the same deliveries. -/
theorem PackageRecord.carryOut_perform (name : String) (operations : List PackageUnit.Operation) :
    carryOut perform { name } operations =
      ((PackageUnit.after name operations).record, PackageUnit.sent name operations) :=
  carryOut_map PackageUnit.record_perform { name } operations

/-- In the record of a package the stage, the subscribers and the outcome fit each other. -/
theorem PackageRecord.carryOut_settled (name : String) (operations : List PackageUnit.Operation) :
    (carryOut perform { name } operations).1.Settled := by
  rw [carryOut_perform]
  exact PackageUnit.record_settled _

end GoFront.Build
