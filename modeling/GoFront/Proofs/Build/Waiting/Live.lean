import GoFront.Proofs.Build.Blame
import GoFront.Proofs.Build.Waiting.Cover

/-!
The owner of the package units on its own. Imports, finished searches and notices of members may
come to it in any order. The graph of waiting has no cycle after any of them, and an import or a
package is turned down for a cycle exactly if its edges would close one.
-/
namespace GoFront.Build
open Relation

/-- In a graph without cycles new edges that leave one node close a cycle exactly if one of them
leads to a node from which the first one is reached. -/
theorem closes_cycle_iff {α : Type} {r : α → α → Prop} {a : α} {targets : α → Prop}
    (acyclic : ∀ u, ¬ TransGen r u u) :
    (∃ u, TransGen (fun u v => r u v ∨ u = a ∧ targets v) u u) ↔
      ∃ v, targets v ∧ ReflTransGen r v a := by
  constructor
  · rintro ⟨u, cycle⟩
    by_contra none
    refine acyclic_of_edges_from (a := a) acyclic ?_ u cycle
    rintro u v (old | ⟨rfl, target⟩)
    · exact .inl old
    · exact .inr ⟨rfl, fun back => none ⟨v, target, back⟩⟩
  · rintro ⟨v, target, back⟩
    exact ⟨a, .head' (.inr ⟨rfl, target⟩) (ReflTransGen.mono (fun _ _ => .inl) _ _ back)⟩

theorem PackageUnit.Fresh.not_blames {unit : PackageUnit} (fresh : unit.Fresh)
    (failure : Failure) : ¬ unit.Blames failure := by
  obtain ⟨subscribers, isOpen⟩ := isLive_iff.mp fresh.live
  rintro (kept | told)
  · simp [fresh.firstFailure] at kept
  · simp [isOpen, Audience.outcome?] at told

namespace ImportDesk

/-- The desks that can come about, in whatever order messages are handled, with the searches that
have been started and not come back. -/
inductive Reached : ImportDesk → List Lookup → Prop where
  | start : Reached {} []
  | imported {desk : ImportDesk} {searches : List Lookup} (earlier : Reached desk searches)
      (stopped : Bool) (request : ImportRequest) :
      Reached (desk.handleImport stopped request).1
        (searches ++ (desk.handleImport stopped request).2.lookups)
  | located {desk : ImportDesk} {before after : List Lookup} {lookup : Lookup}
      (earlier : Reached desk (before ++ lookup :: after)) (reachable : Bool)
      (result : Except (Setback LocateError) (List String)) :
      Reached (desk.handleLocated reachable ⟨lookup, result⟩).1 (before ++ after)
  | heard {desk : ImportDesk} {searches : List Lookup} (earlier : Reached desk searches)
      (notice : Notice) : Reached (desk.handleMember notice).1 searches

/-- If the first unit waited for these others too, there would be a cycle of waiting. -/
def Closes (desk : ImportDesk) (source : UnitName) (targets : UnitName → Prop) : Prop :=
  ∃ unit, TransGen (fun u v => desk.Waits u v ∨ u = source ∧ targets v) unit unit

/-- A finished search makes its package wait for these units. -/
def Finds (located : Located) (target : UnitName) : Prop :=
  ∃ files, located.result = .ok files ∧ ∃ file ∈ files, target = .file (Path.normalize file)

/-- The desk turns a request down for a cycle. A package that has failed before is not live any
more, and what it answers is no refusal. -/
def Rejects (desk : ImportDesk) (stopped : Bool) (request : ImportRequest) : Prop :=
  ∃ unit cycle, desk.units.get? request.package = some unit ∧ unit.isLive = true ∧
    desk.handleImport stopped request = (desk, { deliveries := [⟨request.replyTo,
      .failed (.package request.package)
        (.cyclicImport request.fromFile request.position cycle)⟩] })

/-- The package of a finished search fails for a cycle. -/
def Refuses (desk : ImportDesk) (reachable : Bool) (located : Located) : Prop :=
  ∃ unit file position cycle,
    (desk.handleLocated reachable located).1.units.get? located.lookup.package = some unit ∧
      unit.audience.outcome? = some (.failed (.cyclicImport file position cycle))

variable {desk next : ImportDesk} {searches : List Lookup} {package : String} {unit : PackageUnit}

/-! ### What every handler keeps -/

/-- No unit waits for itself, every recorded package has a unit, and of a package that is searched
for nothing is known. -/
structure Sound (desk : ImportDesk) (searches : List Lookup) : Prop where
  acyclic : desk.Acyclic
  recorded : ∀ {file package}, (file, package) ∈ desk.graph.imports →
    ∃ unit, desk.units.get? package = some unit
  unique : (searches.map (·.package)).Nodup
  fresh : ∀ lookup ∈ searches, ∃ unit, desk.units.get? lookup.package = some unit ∧ unit.Fresh

namespace Sound

theorem replace (sound : desk.Sound searches) (known : desk.units.get? package = some unit)
    (changed : PackageUnit)
    (acyclic : Acyclic { desk with units := desk.units.set package changed })
    (fresh : package ∈ searches.map (·.package) → unit.Fresh → changed.Fresh) :
    Sound { desk with units := desk.units.set package changed } searches where
  acyclic := acyclic
  recorded edge := Table.exists_set (sound.recorded edge)
  unique := sound.unique
  fresh lookup member := by
    obtain ⟨entry, read, isFresh⟩ := sound.fresh lookup member
    by_cases same : lookup.package = package
    · subst same
      obtain rfl := Option.some.inj (known.symm.trans read)
      exact ⟨changed, by simp, fresh (List.mem_map_of_mem member) isFresh⟩
    · exact ⟨entry, by simp [same, read], isFresh⟩

theorem memberDone (sound : desk.Sound searches) (known : desk.units.get? package = some unit)
    (file : String) (outcome : Outcome) :
    Sound { desk with units := desk.units.set package (unit.memberDone file outcome).1 }
      searches := by
  have hears := unit.memberDone_hears file outcome
  refine sound.replace known _ ?_ fun _ fresh => (fresh.memberDone file outcome).symm ▸ fresh
  exact sound.acyclic.shrink known (fun live => (hears.busy live).1) fun _ => hears.mem_outstanding

theorem subscribe (sound : desk.Sound searches) (known : desk.units.get? package = some unit)
    (address : Address) :
    Sound { desk with units := desk.units.set package (unit.subscribe address).1 } searches := by
  refine sound.replace known _ ?_ fun _ fresh => fresh.subscribe address
  exact sound.acyclic.shrink known (by simp [unit.isLive_subscribe]) fun _ => id

theorem recorded_record (sound : desk.Sound searches) {importer file other : String}
    {changed : PackageUnit} (edge : (file, other) ∈ (desk.graph.record importer package).imports) :
    ∃ unit, (desk.units.set package changed).get? other = some unit := by
  rcases ImportGraph.mem_record.mp edge with new | old
  · obtain ⟨rfl, rfl⟩ := Prod.mk.inj new
    exact Table.exists_set_self
  · exact Table.exists_set (sound.recorded old)

theorem follow (sound : desk.Sound searches) {request : ImportRequest}
    (known : desk.units.get? request.package = some unit)
    (safe : desk.importCycle request = none) :
    Sound { desk with
      units := desk.units.set request.package (unit.subscribe request.replyTo).1
      graph := desk.graph.record request.fromFile request.package } searches where
  acyclic := sound.acyclic.follow known safe _
  recorded := sound.recorded_record
  unique := sound.unique
  fresh := (sound.subscribe known request.replyTo).fresh

theorem search (sound : desk.Sound searches) (lookup : Lookup)
    (unknown : desk.units.get? lookup.package = none) (address : Address) :
    Sound { desk with
      units := desk.units.set lookup.package
        { name := lookup.package, audience := .waiting [address] }
      graph := desk.graph.record lookup.fromFile lookup.package } (searches ++ [lookup]) where
  acyclic := sound.acyclic.search unknown sound.recorded
  recorded := sound.recorded_record
  unique := by
    have new : lookup.package ∉ searches.map (·.package) := by
      intro member
      obtain ⟨other, searching, same⟩ := List.mem_map.mp member
      obtain ⟨unit, known, _⟩ := sound.fresh other searching
      simp [same, unknown] at known
    rw [List.map_append, List.map_singleton, ← List.concat_eq_append]
    exact sound.unique.concat new
  fresh other member := by
    rcases List.mem_append.mp member with old | new
    · obtain ⟨unit, known, isFresh⟩ := sound.fresh other old
      exact ⟨unit, Table.keeps_new unknown known, isFresh⟩
    · obtain rfl := List.mem_singleton.mp new
      exact ⟨{ name := other.package, audience := .waiting [address] }, by simp, rfl, rfl, rfl, rfl⟩

theorem forget {before after : List Lookup} {lookup : Lookup}
    (sound : desk.Sound (before ++ lookup :: after)) :
    desk.Sound (before ++ after) ∧ lookup.package ∉ (before ++ after).map (·.package) := by
  have unique := sound.unique
  rw [List.map_append, List.map_cons, List.nodup_middle, ← List.map_append,
    List.nodup_cons] at unique
  refine ⟨⟨sound.acyclic, sound.recorded, unique.2, fun other member => ?_⟩, unique.1⟩
  exact sound.fresh other (by
    rcases List.mem_append.mp member with front | back
    · exact List.mem_append_left _ front
    · exact List.mem_append_right _ (List.mem_cons_of_mem _ back))

theorem severs {deliveries : List Delivery} (severs : Severs desk deliveries next)
    (sound : desk.Sound searches) : next.Sound searches := by
  induction severs with
  | done => exact sound
  | lose known _ ih => exact ih { sound.memberDone known _ _ with }

end Sound

/-! ### Every reachable desk -/

theorem sound_imported (tidy : desk.Tidy) (sound : desk.Sound searches) (stopped : Bool)
    (request : ImportRequest) :
    (desk.handleImport stopped request).1.Tidy ∧
      (desk.handleImport stopped request).1.Sound
        (searches ++ (desk.handleImport stopped request).2.lookups) := by
  have resolves := handleImport_resolves tidy stopped request
  generalize desk.handleImport stopped request = change at resolves ⊢
  cases resolves with
  | reject | turnAway => exact ⟨tidy, by rwa [List.append_nil]⟩
  | @follow unit known live safe =>
    have joined := tidy.set ((unit.subscribe_name request.replyTo).trans (tidy.name known))
    exact ⟨{ joined with }, by rw [List.append_nil]; exact sound.follow known safe⟩
  | @reuse unit known done =>
    have joined := tidy.set ((unit.subscribe_name request.replyTo).trans (tidy.name known))
    exact ⟨joined, by rw [List.append_nil]; exact sound.subscribe known _⟩
  | search unknown =>
    let unit : PackageUnit := { name := request.package, audience := .waiting [request.replyTo] }
    have made : Tidy { desk with units := desk.units.set request.package unit } := tidy.set rfl
    exact ⟨{ made with }, sound.search ⟨request.package, request.fromFile, request.position⟩
      unknown request.replyTo⟩

theorem sound_heard (tidy : desk.Tidy) (sound : desk.Sound searches) (notice : Notice) :
    (desk.handleMember notice).1.Tidy ∧ (desk.handleMember notice).1.Sound searches := by
  have hears := handleMember_hears tidy notice
  generalize desk.handleMember notice = change at hears ⊢
  cases hears with
  | drop => exact ⟨tidy, sound⟩
  | @hear file package others unit about waiting known =>
    have name := (unit.memberDone_hears file notice.outcome).name_eq.trans (tidy.name known)
    let pending :=
      if others = [] then desk.pending.erase file else desk.pending.set file others
    have popped : Tidy { desk with pending } := ⟨tidy.name, tidy.pop waiting⟩
    exact ⟨popped.set name, { sound.memberDone known file notice.outcome with }⟩

theorem sound_located {before after : List Lookup} {lookup : Lookup} (tidy : desk.Tidy)
    (sound : desk.Sound (before ++ lookup :: after)) (reachable : Bool)
    (result : Except (Setback LocateError) (List String)) :
    (desk.handleLocated reachable ⟨lookup, result⟩).1.Tidy ∧
      (desk.handleLocated reachable ⟨lookup, result⟩).1.Sound (before ++ after) := by
  obtain ⟨unit, known, fresh⟩ := sound.fresh lookup (by simp)
  obtain ⟨sound, gone⟩ := sound.forget
  have name := tidy.name known
  have completed (outcome : Outcome) :
      Tidy { desk with units := desk.units.set lookup.package (unit.complete outcome).1 } ∧
        Sound { desk with units := desk.units.set lookup.package (unit.complete outcome).1 }
          (before ++ after) := by
    refine ⟨tidy.set ((unit.complete_name outcome).trans name), sound.replace known _ ?_ ?_⟩
    · exact sound.acyclic.shrink known (by simp [unit.isLive_complete])
        fun _ => PackageUnit.mem_outstanding_of_complete
    · exact fun member => absurd member gone
  have started {files : List String} (safe : desk.memberCycle lookup.package files = none) :
      Sound { desk with units := desk.units.set lookup.package (unit.start files).1 }
        (before ++ after) :=
    sound.replace known _ (sound.acyclic.start known fresh safe) fun member => absurd member gone
  have locates := @handleLocated_locates _ tidy ⟨lookup, result⟩ unit known reachable
  generalize desk.handleLocated reachable ⟨lookup, result⟩ = change at locates ⊢
  cases locates with
  | lost failed => exact completed _
  | knot found closes => exact completed _
  | @start files found safe =>
    have named := tidy.set ((unit.start_name (files.map Path.normalize)).trans name)
    exact ⟨⟨named.name, named.enroll (Table.exists_set ⟨unit, known⟩)⟩, { started safe with }⟩
  | sever found safe isGone severs tidyNext => exact ⟨tidyNext, (started safe).severs severs⟩

theorem Reached.sound (reached : Reached desk searches) : desk.Tidy ∧ desk.Sound searches := by
  induction reached with
  | start => exact ⟨⟨nofun, nofun⟩, .empty, nofun, List.nodup_nil, nofun⟩
  | imported _ stopped request ih => exact sound_imported ih.1 ih.2 stopped request
  | located _ reachable result ih => exact sound_located ih.1 ih.2 reachable result
  | heard _ notice ih => exact sound_heard ih.1 ih.2 notice

/-! ### What is turned down -/

theorem rejects_iff (acyclic : desk.Acyclic) (stopped : Bool) (request : ImportRequest) :
    desk.Rejects stopped request ↔
      desk.Closes (.file request.fromFile) (· = .package request.package) := by
  rw [Closes, closes_cycle_iff acyclic]
  constructor
  · rintro ⟨unit, cycle, known, live, rejected⟩
    refine ⟨_, rfl, ?_⟩
    cases closes : desk.importCycle request with
    | some cycle => exact reaches_of_importCycle closes
    | none =>
      -- A live unit takes the newcomer in and sends nothing.
      obtain ⟨subscribers, isOpen⟩ := PackageUnit.isLive_iff.mp live
      simp [handleImport, known, live, closes, update, PackageUnit.subscribe, isOpen,
        Audience.subscribe] at rejected
  · rintro ⟨_, rfl, back⟩
    obtain ⟨unit, known, live⟩ : ∃ unit, desk.units.get? request.package = some unit ∧
        unit.isLive = true := by
      rcases ReflTransGen.cases_head back with same | ⟨_, waits, _⟩
      · simp at same
      · cases waits with
        | member known live => exact ⟨_, known, live⟩
    cases closes : desk.importCycle request with
    | none => exact absurd back (not_reaches_of_importCycle closes)
    | some cycle => exact ⟨unit, cycle, known, live, by simp [handleImport, known, live, closes]⟩

/-- What a package hears of when members are lost is only that the file desk is gone. -/
theorem Severs.blames_of_ne {deliveries : List Delivery} {failure : Failure} {entry : PackageUnit}
    (severs : Severs desk deliveries next) (foreign : failure ≠ .disconnected)
    (known : desk.units.get? package = some unit) (read : next.units.get? package = some entry)
    (blames : entry.Blames failure) : unit.Blames failure := by
  induction severs generalizing unit with
  | done =>
    obtain rfl := Option.some.inj (known.symm.trans read)
    exact blames
  | @lose desk next pending file first hearer deliveries heard rest ih =>
    by_cases same : package = first
    · subst same
      obtain rfl := Option.some.inj (known.symm.trans heard)
      have later := @ih (unit.memberDone file (.failed .disconnected)).1 (by simp) read
      rcases (unit.memberDone_hears file (.failed .disconnected)).blames later with before | now
      · exact before
      · exact absurd (Outcome.failed.inj now).symm foreign
    · exact ih (by simpa [same] using known) read

/-- Only a member that waits for the package makes a finished search fail it for a cycle. -/
theorem memberCycle_of_refuses (tidy : desk.Tidy) {located : Located}
    (known : desk.units.get? located.lookup.package = some unit) (fresh : unit.Fresh)
    {reachable : Bool} (refuses : desk.Refuses reachable located) :
    ∃ files cycle, located.result = .ok files ∧
      desk.memberCycle located.lookup.package (files.map Path.normalize) = some cycle := by
  obtain ⟨entry, file, position, cycle, read, told⟩ := refuses
  have blames : entry.Blames (.cyclicImport file position cycle) := .inr told
  have blameless := fresh.not_blames (.cyclicImport file position cycle)
  have locates := handleLocated_locates tidy known reachable
  generalize desk.handleLocated reachable located = change at locates read
  cases locates with
  | knot found closes => exact ⟨_, _, found, closes⟩
  | @lost fault failed =>
    obtain rfl : _ = entry := by simpa using read
    rcases blames.of_complete with before | now
    · exact absurd before blameless
    · cases fault <;> simp [Lookup.failure] at now
  | start found safe =>
    obtain rfl : _ = entry := by simpa using read
    exact absurd blames.of_start blameless
  | @sever files next deliveries found safe isGone severs =>
    have begun : (unit.start (files.map Path.normalize)).1.Blames _ :=
      severs.blames_of_ne (by simp) (by simp) read blames
    exact absurd begun.of_start blameless

theorem refuses_iff (tidy : desk.Tidy) (acyclic : desk.Acyclic) {located : Located}
    (known : desk.units.get? located.lookup.package = some unit) (fresh : unit.Fresh)
    (reachable : Bool) : desk.Refuses reachable located ↔
      desk.Closes (.package located.lookup.package) (Finds located) := by
  rw [Closes, closes_cycle_iff acyclic]
  constructor
  · intro refuses
    obtain ⟨files, cycle, found, closes⟩ := memberCycle_of_refuses tidy known fresh refuses
    obtain ⟨member, isMember, back⟩ := reaches_of_memberCycle closes
    obtain ⟨file, isFile, rfl⟩ := List.mem_map.mp isMember
    exact ⟨_, ⟨files, found, file, isFile, rfl⟩, back⟩
  · rintro ⟨_, ⟨files, found, file, isFile, rfl⟩, back⟩
    cases closes : desk.memberCycle located.lookup.package (files.map Path.normalize) with
    | none =>
      have apart := not_reaches_of_memberCycle closes _ (List.mem_map_of_mem isFile)
      exact absurd back apart
    | some cycle =>
      obtain ⟨subscribers, isOpen⟩ := PackageUnit.isLive_iff.mp fresh.live
      have name := tidy.name known
      simp [Refuses, handleLocated, found, closes, complete, known, update,
        unit.complete_of_waiting isOpen, name, Audience.outcome?]

/-- What is true of every desk that can come about. -/
structure Watertight (desk : ImportDesk) (searches : List Lookup) : Prop where
  acyclic : desk.Acyclic
  rejects : ∀ stopped request, desk.Rejects stopped request ↔
    desk.Closes (.file request.fromFile) (· = .package request.package)
  refuses : ∀ lookup ∈ searches, ∀ reachable result,
    desk.Refuses reachable ⟨lookup, result⟩ ↔
      desk.Closes (.package lookup.package) (Finds ⟨lookup, result⟩)

/-- In whatever order imports, finished searches and notices of members come to the desk, no unit
ever waits for itself, and an import or a package is turned down for a cycle exactly if the edges
that it would add close one. -/
theorem waiting_never_circles (reached : Reached desk searches) : Watertight desk searches := by
  obtain ⟨tidy, sound⟩ := reached.sound
  refine ⟨sound.acyclic, rejects_iff sound.acyclic, fun lookup searching reachable result => ?_⟩
  obtain ⟨unit, known, fresh⟩ := sound.fresh lookup searching
  exact @refuses_iff _ _ tidy sound.acyclic ⟨lookup, result⟩ known fresh reachable

/-- The main file imports a package whose only member imports another one. When that member imports
its own package, and when the main file is found to be a member, a cycle would be closed. -/
theorem waiting_never_circles_ring :
    let b : Lookup := ⟨"b", "a.go", ⟨3, 8⟩⟩
    ∃ desk, Reached desk [b] ∧ desk.Rejects false ⟨"a", "a.go", ⟨4, 8⟩, .task "a.go"⟩ ∧
      desk.Refuses true ⟨b, .ok ["b.go", "./main.go"]⟩ := by
  intro b
  let a : Lookup := ⟨"a", "main.go", ⟨3, 8⟩⟩
  let asked : ImportDesk := (handleImport {} false ⟨"a", "main.go", ⟨3, 8⟩, .task "main.go"⟩).1
  let found : ImportDesk := (asked.handleLocated true ⟨a, .ok ["a.go"]⟩).1
  let change := found.handleImport false ⟨"b", "a.go", ⟨3, 8⟩, .task "a.go"⟩
  have first : Reached asked [a] := .imported .start false _
  have second : Reached found [] := @Reached.located asked [] [] a first true (.ok ["a.go"])
  have reached : Reached change.1 [b] := by
    have searches : change.2.lookups = [b] := by decide +kernel
    have third := second.imported false ⟨"b", "a.go", ⟨3, 8⟩, .task "a.go"⟩
    rwa [searches] at third
  have mainWaits : change.1.Waits (.file "main.go") (.package "a") :=
    ImportGraph.waits_eq_true.mp (by decide +kernel)
  have aWaits : change.1.Waits (.package "a") (.file "a.go") :=
    ImportGraph.waits_eq_true.mp (by decide +kernel)
  have memberWaits : change.1.Waits (.file "a.go") (.package "b") :=
    ImportGraph.waits_eq_true.mp (by decide +kernel)
  have watertight := waiting_never_circles reached
  refine ⟨change.1, reached, (watertight.rejects _ _).mpr ?_,
    (watertight.refuses b List.mem_cons_self _ _).mpr ?_⟩
  · exact ⟨.package "a", .tail (.single (.inl aWaits)) (.inr ⟨rfl, rfl⟩)⟩
  · have isMain : Path.normalize "./main.go" = "main.go" := by decide +kernel
    have finds : Finds ⟨b, .ok ["b.go", "./main.go"]⟩ (.file "main.go") :=
      ⟨_, rfl, "./main.go", by simp, by rw [isMain]⟩
    exact ⟨.package "b", .tail (.tail (.tail (.single (.inr ⟨rfl, finds⟩)) (.inl mainWaits))
      (.inl aWaits)) (.inl memberWaits)⟩

end ImportDesk

end GoFront.Build
