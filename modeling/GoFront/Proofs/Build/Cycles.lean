import GoFront.Proofs.Build.Blame
import GoFront.Proofs.Build.Waiting.Cycle

/-!
Import cycles in whole runs. Every cycle that the compiler reports is a cycle of the program. Where
an import closes it, that import is blamed and lies on the cycle. Where the members of a package
close it, the blame is on the import for which the package was searched, which may come from
outside.
-/
namespace GoFront.Build
open Relation

namespace State

variable {frontend : Frontend} {s next : State} {event : Event}

/-- Every import that is still to be resolved stands in its file where it says. -/
structure Sited (frontend : Frontend) (s : State) : Prop where
  unsent : ∀ {file task}, s.tasks.get? file = some task → ∀ unsent pending,
    task.phase = .resolving unsent pending →
    ∀ site ∈ unsent, frontend.ImportsAt file site.package site.position
  requests : ∀ request ∈ s.importRequests,
    frontend.ImportsAt request.fromFile request.package request.position
  lookups : ∀ lookup ∈ s.lookups,
    frontend.ImportsAt lookup.fromFile lookup.package lookup.position
  located : ∀ located ∈ s.located,
    frontend.ImportsAt located.lookup.fromFile located.lookup.package located.lookup.position

namespace Sited

theorem initial (keepGoing : Bool) : Sited frontend { keepGoing } where
  unsent known := by simp at known
  requests request member := by simp at member
  lookups lookup member := by simp at member
  located located member := by simp at member

theorem unsent_step (sited : s.Sited frontend) (obeys : event.Obeys frontend)
    (step : s.Step event next) :
    ∀ {file task}, next.tasks.get? file = some task → ∀ unsent pending,
      task.phase = .resolving unsent pending →
      ∀ site ∈ unsent, frontend.ImportsAt file site.package site.position := by
  have old := @sited.unsent
  intro file task
  cases step with
  | enlist | giveUp => exact Table.forall_set old (by rintro _ _ ⟨⟩)
  | @ask file site rest pending known =>
    refine Table.forall_set old ?_
    intro unsent _ phase other member
    obtain ⟨rfl, _⟩ := TaskPhase.resolving.inj phase
    exact old known _ _ rfl other (List.mem_cons_of_mem _ member)
  | @parsed file result known =>
    refine Table.forall_set old ?_
    intro unsent pending phase site member
    cases result with
    | error failure => simp [FileTask.finishParse] at phase
    | ok parsed =>
      simp only [FileTask.finishParse] at phase
      split at phase
      · simp at phase
      · obtain ⟨rfl, _⟩ := TaskPhase.resolving.inj phase
        exact ⟨parsed, obeys.symm, ImportSite.mem_of_mem_firstOfEach member⟩
  | @relay index notice file pending read known =>
    refine Table.forall_set old ?_
    intro unsent _ phase site member
    dsimp only at phase
    split at phase
    · simp at phase
    · obtain ⟨rfl, _⟩ := TaskPhase.resolving.inj phase
      simp at member
  | _ => exact old

theorem requests_step (sited : s.Sited frontend) (step : s.Step event next) :
    ∀ request ∈ next.importRequests,
      frontend.ImportsAt request.fromFile request.package request.position := by
  have old := sited.requests
  cases step with
  | ask known =>
    intro request member
    rcases List.mem_append.mp member with before | now
    · exact old request before
    · obtain rfl := List.mem_singleton.mp now
      exact sited.unsent known _ _ rfl _ List.mem_cons_self
  | reject read | follow read | reuse read | turnAway read | search read =>
    exact fun request member => old request (by simp [read, member])
  | _ => exact old

theorem lookups_step (sited : s.Sited frontend) (step : s.Step event next) :
    ∀ lookup ∈ next.lookups,
      frontend.ImportsAt lookup.fromFile lookup.package lookup.position := by
  have old := sited.lookups
  cases step with
  | @search request rest read =>
    intro lookup member
    rcases List.mem_append.mp member with before | now
    · exact old lookup before
    · obtain rfl := List.mem_singleton.mp now
      exact sited.requests request (by simp [read])
  | found => exact fun lookup member => old lookup (List.mem_filter.mp member).1
  | _ => exact old

theorem located_step (sited : s.Sited frontend) (step : s.Step event next) :
    ∀ located ∈ next.located, frontend.ImportsAt located.lookup.fromFile located.lookup.package
      located.lookup.position := by
  have old := sited.located
  cases step with
  | @found package result lookup searching same =>
    intro located member
    rcases List.mem_append.mp member with before | now
    · exact old located before
    · obtain rfl := List.mem_singleton.mp now
      exact sited.lookups lookup searching
  | lost read | knot read | start read | sever read =>
    exact fun located member => old located (by simp [read, member])
  | _ => exact old

theorem step (sited : s.Sited frontend) (obeys : event.Obeys frontend) (step : s.Step event next) :
    next.Sited frontend where
  unsent := sited.unsent_step obeys step
  requests := sited.requests_step step
  lookups := sited.lookups_step step
  located := sited.located_step step

end Sited

theorem Detects.isCycle (grounded : s.Grounded frontend) {file : String} {position : Position}
    {cycle : List String} (detects : s.Detects event file position cycle) :
    frontend.IsCycle cycle := by
  have needs : ∀ unit other, s.imports.Waits unit other → frontend.Needs unit other :=
    fun _ _ => grounded.needs_of_waits
  cases detects with
  | @rejected request rest unit cycle read known live closes =>
    obtain ⟨owner, path, rfl, isPath, member⟩ := ImportDesk.importCycle_spec needs closes
    have imported := grounded.needs_import (read ▸ List.mem_cons_self)
    exact isPath.isCycle ⟨request.fromFile, member, imported⟩
  | @located located rest files cycle read found closes =>
    obtain ⟨file, listed, first, path, rfl, imported, isPath, _⟩ :=
      ImportDesk.memberCycle_spec needs closes
    have answer := grounded.located located (by simp [read])
    exact isPath.isCycle ⟨file, .member (answer.symm.trans found) listed, imported⟩

/-- The import that is blamed lies on the cycle, or it is an import of the package whose members
have closed the cycle. In the second case it lies on the cycle if no other import of that package
is on record. -/
theorem Detects.blame (grounded : s.Grounded frontend) (sited : s.Sited frontend) {file : String}
    {position : Position} {cycle : List String} (detects : s.Detects event file position cycle) :
    event = .resolve ∧ frontend.LiesOn file position cycle ∨
    event = .located ∧ ∃ package, cycle.head? = some package ∧
      frontend.ImportsAt file package position ∧
      ((∀ importer, (importer, package) ∈ s.imports.graph.imports → importer = file) →
        frontend.LiesOn file position cycle) := by
  have needs : ∀ unit other, s.imports.Waits unit other → frontend.Needs unit other :=
    fun _ _ => grounded.needs_of_waits
  cases detects with
  | @rejected request rest unit cycle read known live closes =>
    left
    obtain ⟨owner, path, rfl, isPath, member⟩ := ImportDesk.importCycle_spec needs closes
    have imports := sited.requests request (by simp [read])
    refine ⟨rfl, 0, owner, request.package, rfl, ?_, member, imports⟩
    rw [List.getElem?_cons_succ, ← List.head?_eq_getElem?]
    exact isPath.starts
  | @located located rest files cycle read found closes =>
    right
    obtain ⟨member, listed, first, path, rfl, _, isPath, importer, recorded, last⟩ :=
      ImportDesk.memberCycle_spec needs closes
    have imports := sited.located located (by simp [read])
    refine ⟨rfl, located.lookup.package, rfl, imports, fun sole => ?_⟩
    have blamed := sole importer recorded
    rcases last with ⟨rfl, rfl⟩ | ⟨front, owner, rfl, owns⟩
    · have answer := grounded.located located (by simp [read])
      have isMember : frontend.Needs (.package located.lookup.package) (.file importer) :=
        .member (answer.symm.trans found) listed
      exact ⟨0, _, _, rfl, rfl, blamed ▸ isMember, imports⟩
    · rw [← List.cons_append]
      exact .of_append (blamed ▸ owns) imports

end State

/-- A file that imports a package from outside, and a member of the package that imports it too. -/
def detour : Frontend :=
  .ofMemory [("main.go", "package main\n\nimport \"a\"\n"), ("a.go", "package a\nimport \"a\"\n")]
    [("a", ["a.go"])]

/-- Both files are asked for; the one from outside is the first to import the package. -/
def detourEvents : List Event :=
  [.call ["main.go", "a.go"], .send 0, .send 0, .compile 0, .compile 0,
    detour.perform (.parse "main.go"), .report, .ask "main.go", .resolve,
    detour.perform (.parse "a.go"), .report, .ask "a.go", .resolve, detour.perform (.locate "a"),
    .located, .receive 0, .report, .receive 0, .report, .receive 0, .receive 0]

theorem obeys_detourEvents : ∀ event ∈ detourEvents, event.Obeys detour := by
  simp [detourEvents, Event.Obeys, Frontend.perform]

theorem not_shop_imports (package other : String) : ¬ shop.Imports package other := by
  rintro ⟨file, member, imported⟩
  rw [← Frontend.mem_needed] at member imported
  by_cases isP : package = "p"
  · have members : shop.needed (.package "p") = [.file "p.go"] := by decide +kernel
    have imports : shop.needed (.file "p.go") = [] := by decide +kernel
    rw [isP, members, List.mem_singleton, UnitName.file.injEq] at member
    simp [member, imports] at imported
  · have missing : (package == "p") = false := by simpa using isP
    simp [shop, Frontend.needed, Frontend.ofMemory, Frontend.membersOf, List.lookup_cons, missing,
      Except.mapError] at member

/-- The event is the end of a parse that has failed. -/
def Event.isParseFailure : Event → Bool
  | .parsed _ (.error _) => true
  | _ => false

namespace Run

variable {frontend : Frontend} {keepGoing : Bool} {trace : Trace} {s : State}

theorem sited (run : Run frontend keepGoing trace s) : s.Sited frontend :=
  run.invariant (.initial keepGoing) fun _ sited obeys step => sited.step obeys step

theorem isCycle_of_detects (run : Run frontend keepGoing trace s) {before : State} {event : Event}
    (taken : (before, event) ∈ trace) {file : String} {position : Position} {cycle : List String}
    (detects : before.Detects event file position cycle) : frontend.IsCycle cycle := by
  obtain ⟨_, _, earlier, _⟩ := run.at_entry taken
  exact detects.isCycle earlier.grounded

theorem detected_of_holds (run : Run frontend keepGoing trace s) {file : String}
    {position : Position} {cycle : List String}
    (holds : s.Holds (.cyclicImport file position cycle)) :
    (∃ before event, (before, event) ∈ trace ∧ before.Detects event file position cycle) ∨
    ∃ before name, (before, .parsed name (.error (.cyclicImport file position cycle))) ∈ trace := by
  obtain ⟨before, event, taken, raises⟩ := run.raised_of_holds holds
  generalize same : Failure.cyclicImport file position cycle = failure at raises
  cases raises with
  | parsed name => exact Or.inr ⟨before, name, same ▸ taken⟩
  | refused | severed => simp at same
  | @lost located rest fault =>
    cases fault <;> simp [Lookup.failure] at same
  | cycle detects =>
    obtain ⟨rfl, rfl, rfl⟩ := Failure.cyclicImport.inj same
    exact Or.inl ⟨before, event, taken, detects⟩

/-- A run that is played until its first call returns a cycle has found that cycle, if no parse has
failed. -/
theorem detected_of_settles {first : Event} {events : List Event} {file : String}
    {position : Position} {cycle : List String}
    (obey : ∀ event ∈ first :: events, event.Obeys frontend)
    (settles : State.settles { keepGoing } (first :: events) (fun trace s =>
      trace.all (!·.2.isParseFailure) && (s.calls[0]?).any (·.result ==
        some (.failed (.cyclicImport file position cycle)))) = true) :
    ∃ trace s before event, Run frontend keepGoing trace s ∧ (before, event) ∈ trace ∧
      before.Detects event file position cycle := by
  obtain ⟨more, s, run, _, check⟩ := Run.of_settles obey settles
  rw [Bool.and_eq_true, Option.any_eq_true] at check
  obtain ⟨parses, call, known, result⟩ := check
  have holds : s.Holds (.cyclicImport file position cycle) :=
    .call (List.mem_of_getElem? known) (Or.inr (beq_iff_eq.mp result))
  rcases run.detected_of_holds holds with ⟨before, event, taken, detects⟩ | ⟨before, name, taken⟩
  · exact ⟨_, s, before, event, run, taken, detects⟩
  · have wellParsed := List.all_eq_true.mp parses _ taken
    simp [Event.isParseFailure] at wellParsed

theorem ring_detects : ∃ trace s before event, Run ring false trace s ∧ (before, event) ∈ trace ∧
    before.Detects event "b.go" ⟨2, 8⟩ ["b", "a", "b"] :=
  detected_of_settles obeys_ringEvents (by decide +kernel)

/-- Every import cycle that is reported is real. What an event finds is a cycle of packages, each of
which imports the next through one of its files; a cycle that stands anywhere in a state, as an
outcome or in a message, was found in this way or given by a parse. So where no package imports
itself through others none is found. -/
theorem reported_cycle_real (run : Run frontend keepGoing trace s) :
    (∀ before event file position cycle, (before, event) ∈ trace →
      before.Detects event file position cycle → frontend.IsCycle cycle) ∧
    (∀ file position cycle, s.Holds (.cyclicImport file position cycle) →
      (∃ before event, (before, event) ∈ trace ∧ before.Detects event file position cycle) ∨
      ∃ before name, (before, .parsed name (.error (.cyclicImport file position cycle))) ∈ trace) ∧
    ((∀ package, ¬ TransGen frontend.Imports package package) → ∀ file position cycle,
      (∀ before event, (before, event) ∈ trace → ¬ before.Detects event file position cycle) ∧
      (s.Holds (.cyclicImport file position cycle) →
        ∃ name, frontend.prepare name = .error (.cyclicImport file position cycle))) := by
  refine ⟨fun _ _ _ _ _ taken detects => run.isCycle_of_detects taken detects,
    fun _ _ _ holds => run.detected_of_holds holds, ?_⟩
  intro acyclic file position cycle
  have never : ∀ before event, (before, event) ∈ trace →
      ¬ before.Detects event file position cycle := by
    intro before event taken detects
    obtain ⟨package, back⟩ := (run.isCycle_of_detects taken detects).transGen
    exact acyclic package back
  refine ⟨never, fun holds => ?_⟩
  rcases run.detected_of_holds holds with ⟨before, event, taken, detects⟩ | ⟨before, name, taken⟩
  · exact (never before event taken detects).elim
  · obtain ⟨_, _, _, obeys, _⟩ := run.at_entry taken
    exact ⟨name, obeys.symm⟩

theorem reported_cycle_real_ring :
    (∃ trace s before event, Run ring false trace s ∧ (before, event) ∈ trace ∧
      before.Detects event "b.go" ⟨2, 8⟩ ["b", "a", "b"] ∧ ring.IsCycle ["b", "a", "b"]) ∧
    ∃ trace s, Run shop true trace s ∧ ∀ file position cycle, ∀ entry ∈ trace,
      ¬ entry.1.Detects entry.2 file position cycle := by
  constructor
  · obtain ⟨trace, s, before, event, run, taken, detects⟩ := ring_detects
    exact ⟨trace, s, before, event, run, taken, detects,
      (reported_cycle_real run).1 _ _ _ _ _ taken detects⟩
  · have settles : State.settles { keepGoing := true } shopEvents (fun _ _ => true) = true := by
      decide +kernel
    obtain ⟨more, s, run, _, _⟩ := Run.of_settles obeys_shopEvents settles
    have acyclic : ∀ package, ¬ TransGen shop.Imports package package := by
      intro package back
      obtain ⟨other, first, _⟩ := TransGen.head'_iff.mp back
      exact not_shop_imports package other first
    refine ⟨_, s, run, ?_⟩
    intro file position cycle entry taken
    exact ((reported_cycle_real run).2.2 acyclic file position cycle).1 entry.1 entry.2 taken

/-- The import that is blamed for a cycle. If an import has closed the cycle, it is that import, and
it leads from a package of the cycle to the next. If the members of a package have closed it, it is
the import for which the package was searched: an import of the package where the cycle begins and
ends, which lies on the cycle if no other import of that package is on record. -/
theorem cycle_blame (run : Run frontend keepGoing trace s) {before : State} {event : Event}
    (taken : (before, event) ∈ trace) {file : String} {position : Position} {cycle : List String}
    (detects : before.Detects event file position cycle) :
    event = .resolve ∧ frontend.LiesOn file position cycle ∨
    event = .located ∧ ∃ package, cycle.head? = some package ∧
      frontend.ImportsAt file package position ∧
      ((∀ importer, (importer, package) ∈ before.imports.graph.imports → importer = file) →
        frontend.LiesOn file position cycle) := by
  obtain ⟨_, _, earlier, _⟩ := run.at_entry taken
  exact detects.blame earlier.grounded earlier.sited

theorem cycle_blame_ring : ∃ trace s before event, Run ring false trace s ∧
    (before, event) ∈ trace ∧ before.Detects event "b.go" ⟨2, 8⟩ ["b", "a", "b"] ∧
    ring.LiesOn "b.go" ⟨2, 8⟩ ["b", "a", "b"] := by
  obtain ⟨trace, s, before, event, run, taken, detects⟩ := ring_detects
  refine ⟨trace, s, before, event, run, taken, detects, ?_⟩
  rcases cycle_blame run taken detects with ⟨_, liesOn⟩ | ⟨_, package, first, imports, _⟩
  · exact liesOn
  · obtain rfl : "b" = package := by simpa using first
    have foreign : ¬ ring.Needs (.file "b.go") (.package "b") := by decide +kernel
    exact (foreign imports.needs).elim

/-- The import that is blamed need not lie on the cycle: here it stands in a file that is a member
of no package. -/
theorem cycle_blames_bystander : ∃ trace s before event, Run detour false trace s ∧
    (before, event) ∈ trace ∧ before.Detects event "main.go" ⟨3, 8⟩ ["a", "a"] ∧
    ¬ detour.LiesOn "main.go" ⟨3, 8⟩ ["a", "a"] := by
  have detected : ∃ trace s before event, Run detour false trace s ∧ (before, event) ∈ trace ∧
      before.Detects event "main.go" ⟨3, 8⟩ ["a", "a"] :=
    detected_of_settles obeys_detourEvents (by decide +kernel)
  obtain ⟨trace, s, before, event, run, taken, detects⟩ := detected
  refine ⟨trace, s, before, event, run, taken, detects, ?_⟩
  rintro ⟨i, package, next, here, _, member, _⟩
  have isA : package = "a" := by simpa using List.mem_of_getElem? here
  have outside : ¬ detour.Needs (.package "a") (.file "main.go") := by decide +kernel
  exact outside (isA ▸ member)

end Run

end GoFront.Build
