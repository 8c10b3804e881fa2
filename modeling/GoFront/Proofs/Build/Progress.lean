import GoFront.Proofs.Build.Awaiting
import GoFront.Proofs.Build.Waiting.Cover
import Mathlib.Data.Fintype.Card
import Mathlib.Data.Set.Finite.List

/-!
No deadlock. When the compiler cannot move any more, every unit that is not complete would wait for
another one that is not; but waiting is on record, and the record has no cycle.
-/
namespace GoFront.Build
open Relation

/-- In a finite graph without cycles not everyone can wait for someone who waits. -/
theorem not_all_wait {α : Type} {r : α → α → Prop} {waits : α → Prop} (nodes : List α)
    (listed : ∀ a, waits a → a ∈ nodes) (acyclic : ∀ a, ¬ TransGen r a a)
    (leads : ∀ a, waits a → ∃ b, r a b ∧ waits b) (a : α) : ¬ waits a := by
  -- Along the edges nobody comes back, so on finitely many nodes every way ends.
  let later : {a // a ∈ nodes} → {a // a ∈ nodes} → Prop := fun b a => TransGen r a.1 b.1
  have finite : Finite {a // a ∈ nodes} := (List.finite_toSet nodes).to_subtype
  have trans : IsTrans _ later := ⟨fun _ _ _ first second => second.trans first⟩
  have irrefl : Std.Irrefl later := ⟨fun a => acyclic a.1⟩
  have wellFounded := Finite.wellFounded_of_trans_of_irrefl later
  have none : ∀ node : {a // a ∈ nodes}, ¬ waits node.1 := by
    intro node
    induction node using wellFounded.induction with
    | _ node ih =>
      intro isWaiting
      obtain ⟨b, edge, next⟩ := leads node.1 isWaiting
      exact ih ⟨b, listed b next⟩ (.single edge) next
  exact fun isWaiting => none ⟨a, listed a isWaiting⟩ isWaiting

namespace State

/-- The unit is known and not complete. -/
def Open (s : State) (unit : UnitName) : Prop :=
  ∃ subscribers, s.audience? unit = some (.waiting subscribers)

variable {s : State}

theorem open_of_subscriber {unit : UnitName} {address : Address}
    (member : address ∈ s.subscribers unit) :
    ∃ subscribers, s.audience? unit = some (.waiting subscribers) ∧ address ∈ subscribers := by
  unfold subscribers Audiences.subscribers at member
  cases known : s.audience? unit with
  | none => simp [known] at member
  | some audience =>
    cases audience with
    | answered => simp [known, Audience.subscribers] at member
    | waiting subscribers =>
      exact ⟨subscribers, rfl, by simpa [known, Audience.subscribers] using member⟩

theorem open_file {file : String} (isOpen : s.Open (.file file)) :
    ∃ unit subscribers, s.files.units.get? file = some unit ∧ unit.audience = .waiting subscribers := by
  obtain ⟨subscribers, known⟩ := isOpen
  obtain ⟨unit, known, audience⟩ := Option.map_eq_some_iff.mp known
  exact ⟨unit, subscribers, known, audience⟩

theorem open_package {package : String} (isOpen : s.Open (.package package)) :
    ∃ unit, s.imports.units.get? package = some unit ∧ unit.isLive = true := by
  obtain ⟨subscribers, known⟩ := isOpen
  obtain ⟨unit, known, audience⟩ := Option.map_eq_some_iff.mp known
  exact ⟨unit, known, PackageUnit.isLive_iff.mpr ⟨subscribers, audience⟩⟩

/-- All units there are. -/
def unitNames (s : State) : List UnitName :=
  s.files.units.keys.map .file ++ s.imports.units.keys.map .package

theorem mem_unitNames_of_open {unit : UnitName} (isOpen : s.Open unit) : unit ∈ s.unitNames := by
  cases unit with
  | file file =>
    obtain ⟨unit, _, known, _⟩ := open_file isOpen
    exact List.mem_append_left _ (List.mem_map_of_mem (Table.mem_keys.mpr ⟨unit, known⟩))
  | package package =>
    obtain ⟨unit, known, _⟩ := open_package isOpen
    exact List.mem_append_right _ (List.mem_map_of_mem (Table.mem_keys.mpr ⟨unit, known⟩))

/-- A file that is not complete waits for a package that is not complete. -/
theorem waits_of_open_file (idle : s.Idle) (served : s.TasksServed) (abreast : s.Abreast)
    (covered : s.Covered) {file : String} (isOpen : s.Open (.file file)) :
    ∃ unit, s.imports.Waits (.file file) unit ∧ s.Open unit := by
  obtain ⟨unit, subscribers, known, audience⟩ := open_file isOpen
  obtain ⟨task, running, kept⟩ := abreast known
  -- No report is on its way, so the unit waits for what its task waits for.
  have caughtUp : s.ahead file unit = unit.muted := by simp [ahead, idle.reports]
  rw [caughtUp] at kept
  rcases idle.tasks running with finished | ⟨pending, resolving⟩
  · rw [finished] at kept
    simp [TaskPhase.Matches, FileUnit.muted, audience, Audience.muted, Audience.isAnswered] at kept
  · obtain ⟨name, phase⟩ := task
    subst resolving
    obtain ⟨_, some, waits⟩ := kept
    obtain ⟨package, member⟩ := List.exists_mem_of_ne_nil _ some
    have asked : package ∈ pending := by simpa using (waits package).mp member
    have before := served file
    rw [running] at before
    have owed : 0 < s.owed (.package package, .task file) := by
      rw [before.2]
      exact List.count_pos_iff.mpr asked
    obtain ⟨subscribers, isOpen, subscribed⟩ := open_of_subscriber (idle.mem_subscribers owed)
    obtain ⟨unit, known, audience⟩ := Option.map_eq_some_iff.mp isOpen
    have recorded := covered.recorded known file (by rw [audience]; exact subscribed)
    exact ⟨.package package, .imports recorded known (PackageUnit.isLive_iff.mpr ⟨_, audience⟩),
      subscribers, isOpen⟩

/-- A package that is not complete waits for a member that is not complete. -/
theorem waits_of_open_package (idle : s.Idle) (searched : s.Searched) (covered : s.Covered)
    {package : String} (isOpen : s.Open (.package package)) :
    ∃ unit, s.imports.Waits (.package package) unit ∧ s.Open unit := by
  obtain ⟨unit, known, live⟩ := open_package isOpen
  rcases searched.busy known live with searching | busy
  · simp [searches, idle.lookups, idle.located] at searching
  · obtain ⟨file, waits⟩ := List.exists_mem_of_ne_nil _ busy
    obtain ⟨line, waiting, member⟩ := covered.enlisted known live file waits
    have owed : 0 < s.owed (.file file, .members) := by
      have enough := covered.owed waiting
      have nonempty := List.length_pos_of_mem member
      omega
    obtain ⟨subscribers, isOpen, _⟩ := open_of_subscriber (idle.mem_subscribers owed)
    exact ⟨.file file, .member known live waits, subscribers, isOpen⟩

end State

/-- Two packages that import each other, and a file that imports one of them. -/
def ring : Frontend :=
  .ofMemory [("main.go", "package main\nimport \"a\"\n"), ("a.go", "package a\nimport \"b\"\n"),
      ("b.go", "package b\nimport \"a\"\n")] [("a", ["a.go"]), ("b", ["b.go"])]

/-- A compile of the ring, which the last import closes. -/
def ringEvents : List Event :=
  [.call ["main.go"], .send 0, .compile 0, ring.perform (.parse "main.go"), .report,
    .ask "main.go", .resolve, ring.perform (.locate "a"), .located, .compile 0,
    ring.perform (.parse "a.go"), .report, .ask "a.go", .resolve, ring.perform (.locate "b"),
    .located, .compile 0, ring.perform (.parse "b.go"), .report, .ask "b.go", .resolve,
    .receive 0, .report, .receive 0, .receive 0, .report, .receive 0, .receive 0, .report,
    .receive 0]

theorem obeys_ringEvents : ∀ event ∈ ringEvents, event.Obeys ring := by
  simp [ringEvents, Event.Obeys, Frontend.perform]

namespace Run

variable {frontend : Frontend} {keepGoing : Bool} {trace : Trace} {s : State}

theorem not_open (run : Run frontend keepGoing trace s) (alive : s.shutdown.owned = true)
    (quiet : s.Quiet frontend) (unit : UnitName) : ¬ s.Open unit := by
  have idle := quiet.idle
  have covered := run.covered alive
  refine not_all_wait s.unitNames (fun _ => State.mem_unitNames_of_open) covered.acyclic ?_ unit
  intro unit isOpen
  cases unit with
  | file file => exact State.waits_of_open_file idle run.tasksServed run.abreast covered isOpen
  | package package => exact State.waits_of_open_package idle run.searched covered isOpen

theorem call_returned (run : Run frontend keepGoing trace s) (alive : s.shutdown.owned = true)
    (quiet : s.Quiet frontend) {call : CompileCall} (member : call ∈ s.calls) :
    call.result.isSome = true := by
  obtain ⟨number, read⟩ := List.mem_iff_getElem?.mp member
  cases result : call.result with
  | some outcome => rfl
  | none =>
    obtain ⟨some, served⟩ := run.callsServed read result
    obtain ⟨file, waits⟩ := List.exists_mem_of_ne_nil _ some
    rcases served file waits with unsent | owed
    · simp [quiet.idle.unsent call member] at unsent
    · obtain ⟨subscribers, isOpen, _⟩ :=
        State.open_of_subscriber (quiet.idle.mem_subscribers owed)
      exact (run.not_open alive quiet (.file file) ⟨subscribers, isOpen⟩).elim

/-- No deadlock: whatever the frontend says and in whatever order the parts run, when a compiler
whose handle is held cannot move any more, all its work is done and all its calls have returned. -/
theorem no_deadlock (run : Run frontend keepGoing trace s) (alive : s.shutdown.owned = true)
    (quiet : s.Quiet frontend) :
    (∀ file unit, s.files.units.get? file = some unit → unit.status = .complete) ∧
    (∀ package unit, s.imports.units.get? package = some unit → unit.status = .complete) ∧
    ∀ call ∈ s.calls, call.result.isSome = true := by
  refine ⟨?_, ?_, fun call => run.call_returned alive quiet⟩
  · intro file unit known
    cases audience : unit.audience with
    | answered outcome => simp [FileUnit.status, audience]
    | waiting subscribers =>
      have isOpen : s.Open (.file file) := ⟨subscribers, by simp [State.audience?, known, audience]⟩
      exact (run.not_open alive quiet _ isOpen).elim
  · intro package unit known
    cases audience : unit.audience with
    | answered outcome => simp [PackageUnit.status, audience, Audience.isAnswered]
    | waiting subscribers =>
      have isOpen : s.Open (.package package) :=
        ⟨subscribers, by simp [State.audience?, known, audience]⟩
      exact (run.not_open alive quiet _ isOpen).elim

theorem no_deadlock_ring : ∃ trace s, Run ring false trace s ∧ s.shutdown.owned = true ∧
    s.Quiet ring ∧ (∃ unit, s.files.units.get? "b.go" = some unit ∧ unit.status = .complete) ∧
    (∃ unit, s.imports.units.get? "a" = some unit ∧ unit.status = .complete) ∧
    ∃ call ∈ s.calls, call.result.isSome = true := by
  have settles : State.settles {} ringEvents (fun _ s => s.shutdown.owned &&
      (s.files.units.get? "b.go").isSome && (s.imports.units.get? "a").isSome &&
      (s.calls[0]?).isSome) = true := by decide +kernel
  obtain ⟨trace, s, run, quiet, check⟩ := Run.of_settles obeys_ringEvents settles
  simp only [Bool.and_eq_true, Option.isSome_iff_exists] at check
  obtain ⟨⟨⟨alive, file, hasFile⟩, package, hasPackage⟩, call, hasCall⟩ := check
  obtain ⟨files, packages, calls⟩ := no_deadlock run alive quiet
  have member := List.mem_of_getElem? hasCall
  exact ⟨_, s, run, alive, quiet, ⟨file, hasFile, files _ _ hasFile⟩,
    ⟨package, hasPackage, packages _ _ hasPackage⟩, call, member, calls call member⟩

end Run

end GoFront.Build
