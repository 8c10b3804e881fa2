import GoFront.Proofs.Build.Run
import Mathlib.Logic.Relation

/-!
The life of a unit. Once a unit is in its table it stays there, and whatever is found under its name
later has come out of it by operations on the unit itself.
-/
namespace GoFront
open Relation

/-- What stands in a table is kept under its name when an entry moves. -/
theorem Table.keeps_set {α : Type} {moves : α → α → Prop} {table : Table α} {name other : String}
    {old value unit : α} (known : table.get? name = some old) (moved : moves old value)
    (there : table.get? other = some unit) :
    ∃ after, (table.set name value).get? other = some after ∧ ReflTransGen moves unit after := by
  by_cases same : other = name
  · subst same
    obtain rfl := Option.some.inj (known.symm.trans there)
    exact ⟨value, by simp, .single moved⟩
  · exact ⟨unit, by simpa [same] using there, .refl⟩

namespace Build

/-- One operation on a file unit. -/
inductive FileUnit.Moves (unit : FileUnit) : FileUnit → Prop where
  | subscribe (address : Address) : Moves unit (unit.subscribe address).1
  | symbolsAvailable (parsed : ParsedFile) : Moves unit (unit.symbolsAvailable parsed).1
  | importResolved (notice : Notice) : Moves unit (unit.importResolved notice).1
  | complete (outcome : Outcome) : Moves unit (unit.complete outcome).1

theorem FileUnit.Moves.heed (unit : FileUnit) (report : Report) :
    unit.Moves (unit.heed report).1 := by
  cases report with
  | parsed file result =>
    cases result with
    | ok parsed => exact .symbolsAvailable parsed
    | error failure => exact .complete (.failed failure)
  | importResolved file notice => exact .importResolved notice

/-- One operation on a package unit. -/
inductive PackageUnit.Moves (unit : PackageUnit) : PackageUnit → Prop where
  | subscribe (address : Address) : Moves unit (unit.subscribe address).1
  | start (files : List String) : Moves unit (unit.start files).1
  | memberDone (file : String) (outcome : Outcome) : Moves unit (unit.memberDone file outcome).1
  | complete (outcome : Outcome) : Moves unit (unit.complete outcome).1

theorem ImportDesk.Severs.becomes {desk next : ImportDesk} {deliveries : List Delivery}
    (severs : Severs desk deliveries next) {package : String} {unit : PackageUnit}
    (known : desk.units.get? package = some unit) :
    ∃ after, next.units.get? package = some after ∧ ReflTransGen PackageUnit.Moves unit after := by
  induction severs generalizing unit with
  | done => exact ⟨unit, known, .refl⟩
  | @lose desk next pending file first changed deliveries found _ ih =>
    obtain ⟨middle, there, became⟩ :=
      Table.keeps_set found (PackageUnit.Moves.memberDone file (.failed .disconnected)) known
    obtain ⟨after, kept, becomes⟩ := ih there
    exact ⟨after, kept, became.trans becomes⟩

namespace State

variable {s next : State} {event : Event}

theorem Step.file_becomes (step : s.Step event next) {file : String} {unit : FileUnit}
    (known : s.files.units.get? file = some unit) :
    ∃ after, next.files.units.get? file = some after ∧ ReflTransGen FileUnit.Moves unit after := by
  cases step with
  | join read found => exact Table.keeps_set found (.subscribe _) known
  | heed read found => exact Table.keeps_set found (.heed _ _) known
  | enlist read unknown => exact ⟨unit, Table.keeps_new unknown known, .refl⟩
  | _ => exact ⟨unit, known, .refl⟩

theorem Step.package_becomes (step : s.Step event next) {package : String} {unit : PackageUnit}
    (known : s.imports.units.get? package = some unit) :
    ∃ after, next.imports.units.get? package = some after ∧
      ReflTransGen PackageUnit.Moves unit after := by
  cases step with
  | follow read found | reuse read found => exact Table.keeps_set found (.subscribe _) known
  | search read unknown => exact ⟨unit, Table.keeps_new unknown known, .refl⟩
  | lost read found | knot read found => exact Table.keeps_set found (.complete _) known
  | start read found => exact Table.keeps_set found (.start _) known
  | hear read about waiting found => exact Table.keeps_set found (.memberDone _ _) known
  | sever read found result safe released severs =>
    obtain ⟨middle, there, became⟩ :=
      Table.keeps_set found (PackageUnit.Moves.start _) known
    obtain ⟨after, kept, becomes⟩ := severs.becomes there
    exact ⟨after, kept, became.trans becomes⟩
  | _ => exact ⟨unit, known, .refl⟩

end State

namespace Run

variable {frontend : Frontend} {keepGoing : Bool} {trace : Trace} {s before : State} {event : Event}

theorem file_becomes (run : Run frontend keepGoing trace s) (taken : (before, event) ∈ trace)
    {file : String} {unit : FileUnit} (known : before.files.units.get? file = some unit) :
    ∃ after, s.files.units.get? file = some after ∧ ReflTransGen FileUnit.Moves unit after := by
  apply run.since taken
  · intro next step
    exact step.file_becomes known
  · rintro s next event step ⟨middle, there, became⟩
    obtain ⟨after, kept, becomes⟩ := step.file_becomes there
    exact ⟨after, kept, became.trans becomes⟩

theorem package_becomes (run : Run frontend keepGoing trace s) (taken : (before, event) ∈ trace)
    {package : String} {unit : PackageUnit}
    (known : before.imports.units.get? package = some unit) :
    ∃ after, s.imports.units.get? package = some after ∧
      ReflTransGen PackageUnit.Moves unit after := by
  apply run.since taken
  · intro next step
    exact step.package_becomes known
  · rintro s next event step ⟨middle, there, became⟩
    obtain ⟨after, kept, becomes⟩ := step.package_becomes there
    exact ⟨after, kept, became.trans becomes⟩

end Run

end Build

end GoFront
