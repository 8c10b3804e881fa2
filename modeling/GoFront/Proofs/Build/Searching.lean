import GoFront.Proofs.Build.Run
import Mathlib.Data.List.Nodup

/-!
Where a package is in its life. A package is searched for once; while the search runs nothing is
known about its members, and after that it is complete or waits for at least one of them.
-/
namespace GoFront.Build

namespace PackageUnit

theorem Fresh.subscribe {unit : PackageUnit} (fresh : unit.Fresh) (address : Address) :
    (unit.subscribe address).1.Fresh := by
  obtain ⟨subscribers, isOpen⟩ := isLive_iff.mp fresh.live
  have live : (unit.subscribe address).1.isLive = true :=
    isLive_iff.mpr ⟨subscribers ++ [address], by simp [PackageUnit.subscribe, isOpen, Audience.subscribe]⟩
  exact ⟨live, fresh.members, fresh.outstanding, fresh.firstFailure⟩

theorem isLive_subscribe (unit : PackageUnit) (address : Address) :
    (unit.subscribe address).1.isLive = unit.isLive := by
  cases audience : unit.audience <;>
    simp [PackageUnit.subscribe, isLive, audience, Audience.subscribe, Audience.isAnswered]

theorem isLive_complete (unit : PackageUnit) (outcome : Outcome) :
    (unit.complete outcome).1.isLive = false := by
  unfold complete
  split
  · rename_i answered
    simp [isLive, answered]
  · cases audience : unit.audience <;> simp [isLive, Audience.announce, Audience.isAnswered]

/-- Nothing is heard by a package that is being searched for. -/
theorem Fresh.memberDone {unit : PackageUnit} (fresh : unit.Fresh) (file : String)
    (outcome : Outcome) : (unit.memberDone file outcome).1 = unit := by
  simp [PackageUnit.memberDone, fresh.outstanding]

theorem Hears.busy {unit next : PackageUnit} {file : String} {outcome : Outcome}
    {deliveries : List Delivery} (hears : unit.Hears file outcome next deliveries)
    (live : next.isLive = true) :
    unit.isLive = true ∧ (unit.outstanding ≠ [] → next.outstanding ≠ []) := by
  cases hears with
  | ignore => exact ⟨live, id⟩
  | record wasLive _ more => exact ⟨wasLive, fun _ => more⟩
  | finish => simp [isLive, Audience.isAnswered] at live

theorem Fresh.busy_start {unit : PackageUnit} (fresh : unit.Fresh) {files : List String}
    (live : (unit.start files).1.isLive = true) : (unit.start files).1.outstanding ≠ [] := by
  cases files with
  | nil => simp [start_nil fresh, isLive_complete] at live
  | cons first rest =>
    obtain ⟨started, _⟩ := start_of_fresh fresh (List.cons_ne_nil first rest)
    have waits := (started.outstanding first).mpr List.mem_cons_self
    exact List.ne_nil_of_mem waits

end PackageUnit

namespace State

/-- The packages whose search is running or not yet handled. -/
def searches (s : State) : List String :=
  s.lookups.map (·.package) ++ s.located.map (·.lookup.package)

/-- Each package is searched for once, and nothing is known of its members before. -/
structure Searched (s : State) : Prop where
  unique : s.searches.Nodup
  fresh : ∀ {package unit}, package ∈ s.searches → s.imports.units.get? package = some unit →
    unit.Fresh
  busy : ∀ {package unit}, s.imports.units.get? package = some unit → unit.isLive = true →
    package ∈ s.searches ∨ unit.outstanding ≠ []

variable {s next : State}

theorem searches_of_located {located : Located} {rest : List Located}
    (read : s.located = located :: rest) :
    s.searches = s.lookups.map (·.package) ++ located.lookup.package ::
      rest.map (·.lookup.package) := by
  simp [searches, read]

namespace Searched

theorem set (searched : s.Searched) {package : String} {unit : PackageUnit}
    (known : s.imports.units.get? package = some unit) (changed : PackageUnit)
    (fresh : unit.Fresh → changed.Fresh)
    (busy : changed.isLive = true → unit.isLive = true ∧
      (unit.outstanding ≠ [] → changed.outstanding ≠ [])) :
    Searched { s with
      imports := { s.imports with units := s.imports.units.set package changed } } where
  unique := searched.unique
  fresh := by
    intro other entry member read
    rw [Table.get?_set] at read
    split at read
    · rename_i same
      subst same
      obtain rfl := Option.some.inj read
      exact fresh (searched.fresh member known)
    · exact searched.fresh member read
  busy := by
    intro other entry read live
    rw [Table.get?_set] at read
    split at read
    · rename_i same
      subst same
      obtain rfl := Option.some.inj read
      exact (searched.busy known (busy live).1).imp id (busy live).2
    · exact searched.busy read live

theorem heard (searched : s.Searched) {package : String} {unit : PackageUnit}
    (known : s.imports.units.get? package = some unit) (file : String) (outcome : Outcome) :
    Searched { s with
      imports := { s.imports with
        units := s.imports.units.set package (unit.memberDone file outcome).1 } } :=
  searched.set known _ (fun fresh => (fresh.memberDone file outcome).symm ▸ fresh)
    (unit.memberDone_hears file outcome).busy

/-- The package at the head of the finished searches is dealt with. -/
theorem pop (searched : s.Searched) {located : Located} {rest : List Located}
    (read : s.located = located :: rest) (changed : PackageUnit)
    (busy : changed.isLive = true → changed.outstanding ≠ []) :
    Searched { s with
      located := rest
      imports := { s.imports with
        units := s.imports.units.set located.lookup.package changed } } := by
  have unique := searched.unique
  rw [searches_of_located read, List.nodup_middle, List.nodup_cons] at unique
  have split : ∀ {package}, package ∈ s.searches ↔ package = located.lookup.package ∨
      package ∈ s.lookups.map (·.package) ++ rest.map (·.lookup.package) := by
    intro package
    rw [searches_of_located read, List.mem_append, List.mem_cons, List.mem_append]
    tauto
  refine ⟨unique.2, ?_, ?_⟩
  · intro package unit member known
    rw [Table.get?_set] at known
    split at known
    · rename_i same
      exact (unique.1 (same ▸ member)).elim
    · exact searched.fresh (split.mpr (Or.inr member)) known
  · intro package unit known live
    rw [Table.get?_set] at known
    split at known
    · obtain rfl := Option.some.inj known
      exact Or.inr (busy live)
    · rename_i other
      rcases searched.busy known live with searching | waits
      · exact Or.inl ((split.mp searching).resolve_left other)
      · exact Or.inr waits

theorem severs (s : State) {desk after : ImportDesk} {deliveries : List Delivery}
    (severs : ImportDesk.Severs desk deliveries after)
    (searched : Searched { s with imports := desk }) : Searched { s with imports := after } := by
  induction severs with
  | done => exact searched
  | @lose desk _ pending file package unit _ known _ ih =>
    have heard := searched.heard known file (.failed .disconnected)
    exact ih { heard with }

theorem initial (keepGoing : Bool) : Searched { keepGoing } where
  unique := by simp [searches]
  fresh member := by simp [searches] at member
  busy known := by simp at known

/-- A search that ends goes from one list to the other. -/
theorem found (searched : s.Searched) {lookup : Lookup} (searching : lookup ∈ s.lookups)
    (result : Except (Setback LocateError) (List String)) :
    Searched { s with
      lookups := s.lookups.filter (·.package ≠ lookup.package)
      located := s.located ++ [⟨lookup, result⟩] } := by
  have moved : searches { s with
      lookups := s.lookups.filter (·.package ≠ lookup.package)
      located := s.located ++ [⟨lookup, result⟩] } =
      (s.lookups.map (·.package)).filter (· ≠ lookup.package) ++
        (s.located.map (·.lookup.package) ++ [lookup.package]) := by
    simp [searches, List.filter_map, Function.comp_def]
  obtain ⟨running, handled, apart⟩ := List.nodup_append.mp searched.unique
  have member : lookup.package ∈ s.lookups.map (·.package) := List.mem_map.mpr ⟨lookup, searching, rfl⟩
  have absent : lookup.package ∉ s.located.map (·.lookup.package) :=
    fun done => apart _ member _ done rfl
  have same : ∀ {package}, package ∈ searches { s with
      lookups := s.lookups.filter (·.package ≠ lookup.package)
      located := s.located ++ [⟨lookup, result⟩] } ↔ package ∈ s.searches := by
    intro package
    rw [moved, searches, List.mem_append, List.mem_append, List.mem_append, List.mem_filter]
    by_cases this : package = lookup.package
    · simp only [this, member, List.mem_singleton, or_true, true_or]
    · simp [this]
  have unique : ((s.lookups.map (·.package)).filter (· ≠ lookup.package) ++
      (s.located.map (·.lookup.package) ++ [lookup.package])).Nodup := by
    refine List.nodup_append.mpr ⟨running.filter _, ?_, ?_⟩
    · rw [← List.concat_eq_append]
      exact handled.concat absent
    · intro package left other right equal
      obtain ⟨left, away⟩ := List.mem_filter.mp left
      rcases List.mem_append.mp right with old | new
      · exact apart package left other old equal
      · simp [equal, List.mem_singleton.mp new] at away
  exact ⟨moved ▸ unique, fun package => searched.fresh (same.mp package),
    fun known live => (searched.busy known live).imp same.mpr id⟩

theorem search (tidy : s.Tidy) (searched : s.Searched) (lookup : Lookup)
    (unknown : s.imports.units.get? lookup.package = none) (subscribers : List Address) :
    Searched { s with
      imports := { s.imports with
        units := s.imports.units.set lookup.package
          { name := lookup.package, audience := .waiting subscribers } }
      lookups := s.lookups ++ [lookup] } := by
  have absent : lookup.package ∉ s.searches := by
    intro member
    rcases List.mem_append.mp member with running | handled
    · obtain ⟨other, running, same⟩ := List.mem_map.mp running
      obtain ⟨unit, known⟩ := tidy.lookupUnit other running
      simp [same, unknown] at known
    · obtain ⟨other, handled, same⟩ := List.mem_map.mp handled
      obtain ⟨unit, known⟩ := tidy.locatedUnit other handled
      simp [same, unknown] at known
  have added : searches { s with lookups := s.lookups ++ [lookup] } =
      s.lookups.map (·.package) ++ lookup.package :: s.located.map (·.lookup.package) := by
    simp [searches]
  have split : ∀ {package}, package ∈ searches { s with lookups := s.lookups ++ [lookup] } ↔
      package = lookup.package ∨ package ∈ s.searches := by
    intro package
    rw [added, searches, List.mem_append, List.mem_cons, List.mem_append]
    tauto
  refine ⟨?_, ?_, ?_⟩
  · have unique := List.nodup_middle.mpr (List.nodup_cons.mpr ⟨absent, searched.unique⟩)
    exact added ▸ unique
  · intro package unit member known
    rw [Table.get?_set] at known
    split at known
    · obtain rfl := Option.some.inj known
      exact ⟨rfl, rfl, rfl, rfl⟩
    · rename_i other
      exact searched.fresh ((split.mp member).resolve_left other) known
  · intro package unit known live
    rw [Table.get?_set] at known
    split at known
    · rename_i same
      exact Or.inl (split.mpr (Or.inl same))
    · exact (searched.busy known live).imp (fun old => split.mpr (Or.inr old)) id

theorem step (tidy : s.Tidy) (searched : s.Searched) {event : Event} (step : s.Step event next) :
    next.Searched := by
  cases step with
  | @follow request rest unit read known live safe | @reuse request rest unit read known done =>
    have joined := searched.set known (unit.subscribe request.replyTo).1
      (fun fresh => fresh.subscribe _) (by rw [unit.isLive_subscribe]; exact fun live => ⟨live, id⟩)
    exact { joined with }
  | @search request rest read unknown running =>
    have added := searched.search tidy ⟨request.package, request.fromFile, request.position⟩ unknown
      [request.replyTo]
    exact { added with }
  | @found package result lookup searching same =>
    subst same
    exact { searched.found searching result with }
  | @lost located rest unit fault read known failed =>
    have popped := searched.pop read (unit.complete (.failed (located.lookup.failure fault))).1
      (by simp [unit.isLive_complete])
    exact { popped with }
  | @knot located rest unit files cycle read known found closes =>
    have popped := searched.pop read (unit.complete (.failed (.cyclicImport located.lookup.fromFile
      located.lookup.position cycle))).1 (by simp [unit.isLive_complete])
    exact { popped with }
  | @start located rest unit files read known found safe owned =>
    have fresh := searched.fresh (by simp [searches, read]) known
    have popped := searched.pop read (unit.start (files.map Path.normalize)).1 fresh.busy_start
    exact { popped with }
  | @sever located rest unit files desk deliveries read known found safe released severs tidyDesk =>
    have fresh := searched.fresh (by simp [searches, read]) known
    have popped := searched.pop read (unit.start (files.map Path.normalize)).1 fresh.busy_start
    have severed := Searched.severs { s with located := rest } severs popped
    exact { severed with }
  | @hear index notice file package others unit read about waiting known =>
    exact { searched.heard known file notice.outcome with }
  | _ => exact { searched with }

end Searched

end State

theorem Run.searched {frontend : Frontend} {keepGoing : Bool} {trace : Trace} {s : State}
    (run : Run frontend keepGoing trace s) : s.Searched :=
  run.invariant (.initial keepGoing) fun earlier searched _ step => searched.step earlier.tidy step

end GoFront.Build
