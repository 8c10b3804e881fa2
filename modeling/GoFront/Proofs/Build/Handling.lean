import GoFront.Build.Desk.Imports
import GoFront.Proofs.Build.Unit

/-!
What each message does to the owner of the packages. `Resolves`, `Hears` and `Locates` list every
way in which an import, a notice and a finished search change a tidy desk, with all that they set
going; nothing else happens to it.
-/
namespace GoFront.Build

theorem Effects.append_eq (a b : Effects) :
    a ++ b = ⟨a.deliveries ++ b.deliveries, a.requests ++ b.requests, a.lookups ++ b.lookups,
      a.tasks ++ b.tasks⟩ := rfl

/-! ### Requests for members -/

namespace ImportDesk

/-- The table of waiting packages after a package has asked for files. -/
def enroll (pending : Table (List String)) (package : String) (files : List String) :
    Table (List String) :=
  files.foldl (fun pending file => pending.set file ((pending.get? file).getD [] ++ [package])) pending

/-- One more request, after those that have had these effects. -/
def requestNext (reachable : Bool) (package : String) (done : ImportDesk × Effects)
    (file : String) : ImportDesk × Effects :=
  ((requestMember reachable package done.1 file).1,
    done.2 ++ (requestMember reachable package done.1 file).2)

theorem requestMembers_eq (desk : ImportDesk) (reachable : Bool) (package : String)
    (files : List String) :
    desk.requestMembers reachable package files =
      files.foldl (requestNext reachable package) (desk, {}) := rfl

theorem requestMembers_reachable (desk : ImportDesk) (package : String) (files : List String) :
    desk.requestMembers true package files =
      ({ desk with pending := enroll desk.pending package files },
        { requests := files.map fun file => ⟨file, .members⟩ }) := by
  have folded : ∀ (files : List String) (desk : ImportDesk) (requests : List CompileRequest),
      files.foldl (requestNext true package) (desk, ({ requests } : Effects)) =
      ({ desk with pending := enroll desk.pending package files },
        { requests := requests ++ files.map fun file => ⟨file, .members⟩ }) := by
    intro files
    induction files with
    | nil => intro desk requests; simp [enroll]
    | cons file rest ih =>
      intro desk requests
      let waiting := (desk.pending.get? file).getD []
      refine (ih { desk with pending := desk.pending.set file (waiting ++ [package]) }
        (requests ++ [⟨file, .members⟩])).trans ?_
      simp [enroll, waiting]
  rw [requestMembers_eq]
  exact folded files desk []

/-- The packages that wait for a member: at least one, and all of them known. -/
def IsLine (units : Table PackageUnit) (packages : List String) : Prop :=
  packages ≠ [] ∧ ∀ package ∈ packages, ∃ unit, units.get? package = some unit

/-- The desk refers only to units it knows, each under its own name. -/
structure Tidy (desk : ImportDesk) : Prop where
  name : ∀ {package unit}, desk.units.get? package = some unit → unit.name = package
  pending : ∀ {file packages}, desk.pending.get? file = some packages → IsLine desk.units packages

theorem Tidy.set {desk : ImportDesk} (tidy : desk.Tidy) {package : String} {unit : PackageUnit}
    (name : unit.name = package) : { desk with units := desk.units.set package unit }.Tidy :=
  ⟨Table.forall_set tidy.name name, fun waiting => ⟨(tidy.pending waiting).1,
    fun other member => Table.exists_set ((tidy.pending waiting).2 other member)⟩⟩

/-- A desk that cannot reach the file desk loses one member after the other, each on behalf of
the package that has waited for it longest. -/
inductive Severs : ImportDesk → List Delivery → ImportDesk → Prop where
  | done (desk : ImportDesk) : Severs desk [] desk
  | lose {desk next : ImportDesk} {pending : Table (List String)} {file package : String}
      {unit : PackageUnit} {deliveries : List Delivery}
      (known : desk.units.get? package = some unit)
      (rest : Severs
        { desk with
          pending
          units := desk.units.set package (unit.memberDone file (.failed .disconnected)).1 }
        deliveries next) :
      Severs desk ((unit.memberDone file (.failed .disconnected)).2 ++ deliveries) next

theorem requestMember_unreachable {desk : ImportDesk} (tidy : desk.Tidy) {package : String}
    (known : ∃ unit, desk.units.get? package = some unit) (file : String) :
    ∃ (pending : Table (List String)) (first : String) (unit : PackageUnit),
      desk.units.get? first = some unit ∧
      (∀ {file packages}, pending.get? file = some packages → IsLine desk.units packages) ∧
      requestMember false package desk file =
        ({ desk with
            pending
            units := desk.units.set first (unit.memberDone file (.failed .disconnected)).1 },
          { deliveries := (unit.memberDone file (.failed .disconnected)).2 }) := by
  have waitingKnown : ∀ other ∈ (desk.pending.get? file).getD [] ++ [package],
      ∃ unit, desk.units.get? other = some unit := by
    intro other member
    rcases List.mem_append.mp member with old | new
    · cases waiting : desk.pending.get? file with
      | none => simp [waiting] at old
      | some packages => exact (tidy.pending waiting).2 other (by simpa [waiting] using old)
    · exact List.mem_singleton.mp new ▸ known
  obtain ⟨first, others, split⟩ : ∃ first others,
      (desk.pending.get? file).getD [] ++ [package] = first :: others :=
    List.exists_cons_of_ne_nil (by simp)
  rw [split] at waitingKnown
  obtain ⟨unit, firstKnown⟩ := waitingKnown first List.mem_cons_self
  have name := (PackageUnit.memberDone_hears unit file (.failed .disconnected)).name_eq.trans
    (tidy.name firstKnown)
  let pushed := desk.pending.set file (first :: others)
  refine ⟨if others = [] then pushed.erase file else pushed.set file others, first, unit, firstKnown,
    ?_, ?_⟩
  · intro other packages waiting
    by_cases same : other = file
    · subst same
      split at waiting
      · simp [pushed] at waiting
      · rename_i more
        have equal : others = packages := by simpa [pushed] using waiting
        subst equal
        exact ⟨more, fun package member => waitingKnown package (List.mem_cons_of_mem _ member)⟩
    · have old : desk.pending.get? other = some packages := by
        split at waiting <;> simpa [pushed, same] using waiting
      exact tidy.pending old
  · simp [requestMember, split, handleMember, Notice.disconnected, Notice.failed, firstKnown, update,
      name, pushed]

theorem requestMembers_unreachable {desk : ImportDesk} (tidy : desk.Tidy) {package : String}
    (known : ∃ unit, desk.units.get? package = some unit) (files : List String) :
    ∃ next deliveries, desk.requestMembers false package files = (next, { deliveries }) ∧
      next.Tidy ∧ Severs desk deliveries next := by
  have folded : ∀ (files : List String) (desk : ImportDesk) (before : List Delivery), desk.Tidy →
      (∃ unit, desk.units.get? package = some unit) →
      ∃ next deliveries,
        files.foldl (requestNext false package) (desk, ({ deliveries := before } : Effects)) =
          (next, { deliveries := before ++ deliveries }) ∧
        next.Tidy ∧ Severs desk deliveries next := by
    intro files
    induction files with
    | nil => intro desk before tidy _; exact ⟨desk, [], by simp, tidy, .done desk⟩
    | cons file rest ih =>
      intro desk before tidy known
      obtain ⟨pending, first, unit, firstKnown, pendingKnown, equal⟩ :=
        requestMember_unreachable tidy known file
      have name := (PackageUnit.memberDone_hears unit file (.failed .disconnected)).name_eq.trans
        (tidy.name firstKnown)
      obtain ⟨next, deliveries, run, tidyNext, severs⟩ := ih
        { desk with
          pending
          units := desk.units.set first (unit.memberDone file (.failed .disconnected)).1 }
        (before ++ (unit.memberDone file (.failed .disconnected)).2)
        ⟨Table.forall_set tidy.name name, fun waiting => ⟨(pendingKnown waiting).1,
          fun other member => Table.exists_set ((pendingKnown waiting).2 other member)⟩⟩
        (Table.exists_set known)
      refine ⟨next, _, ?_, tidyNext, .lose firstKnown severs⟩
      rw [List.append_assoc] at run
      rw [List.foldl_cons, requestNext, equal]
      exact run
  rw [requestMembers_eq]
  exact folded files desk [] tidy known

theorem get?_enroll {pending : Table (List String)} {package : String} {files : List String}
    (unique : files.Nodup) (file : String) :
    (enroll pending package files).get? file =
      if file ∈ files then some ((pending.get? file).getD [] ++ [package])
      else pending.get? file := by
  induction files generalizing pending with
  | nil => simp [enroll]
  | cons first rest ih =>
    obtain ⟨fresh, unique⟩ := List.nodup_cons.mp unique
    have unfolded : enroll pending package (first :: rest) =
        enroll (pending.set first ((pending.get? first).getD [] ++ [package])) package rest := rfl
    rw [unfolded, ih unique]
    by_cases same : file = first
    · subst same
      simp [fresh]
    · simp [same]

end ImportDesk

namespace ImportDesk

variable {desk : ImportDesk}

theorem Severs.known {next : ImportDesk} {deliveries : List Delivery}
    (severs : Severs desk deliveries next) {package : String}
    (known : ∃ unit, desk.units.get? package = some unit) :
    ∃ unit, next.units.get? package = some unit := by
  induction severs with
  | done => exact known
  | lose _ _ ih => exact ih (Table.exists_set known)

/-- What hearing of lost members keeps of every unit is kept. -/
theorem Severs.forall_units {next : ImportDesk} {deliveries : List Delivery}
    {property : String → PackageUnit → Prop} (severs : Severs desk deliveries next)
    (keeps : ∀ {package : String} {unit : PackageUnit} (file : String), property package unit →
      property package (unit.memberDone file (.failed .disconnected)).1)
    (all : ∀ {package unit}, desk.units.get? package = some unit → property package unit) :
    ∀ {package unit}, next.units.get? package = some unit → property package unit := by
  induction severs with
  | done => exact all
  | lose known _ ih => exact ih (Table.forall_set all (keeps _ (all known)))

theorem Severs.graph_eq {next : ImportDesk} {deliveries : List Delivery}
    (severs : Severs desk deliveries next) : next.graph = desk.graph := by
  induction severs with
  | done => rfl
  | lose _ _ ih => exact ih

theorem Tidy.enroll (tidy : desk.Tidy) {package : String}
    (known : ∃ unit, desk.units.get? package = some unit) {files : List String} :
    ∀ {file packages}, (ImportDesk.enroll desk.pending package files).get? file = some packages →
      IsLine desk.units packages := by
  have folded : ∀ (files : List String) (pending : Table (List String)),
      (∀ {file packages}, pending.get? file = some packages → IsLine desk.units packages) →
      ∀ {file packages}, (ImportDesk.enroll pending package files).get? file = some packages →
        IsLine desk.units packages := by
    intro files
    induction files with
    | nil => exact fun _ tidy => tidy
    | cons file rest ih =>
      intro pending tidy
      refine ih _ (Table.forall_set tidy ⟨by simp, ?_⟩)
      intro other member
      rcases List.mem_append.mp member with old | new
      · cases waiting : pending.get? file with
        | none => simp [waiting] at old
        | some packages => exact (tidy waiting).2 other (by simpa [waiting] using old)
      · exact List.mem_singleton.mp new ▸ known
  intro file packages waiting
  exact folded files desk.pending tidy.pending waiting

theorem Tidy.pop (tidy : desk.Tidy) {file first : String} {others : List String}
    (waiting : desk.pending.get? file = some (first :: others)) :
    ∀ {file' packages},
      (if others = [] then desk.pending.erase file else desk.pending.set file others).get? file' =
        some packages → IsLine desk.units packages := by
  intro other packages read
  split at read
  · rw [Table.get?_erase] at read
    split at read
    · simp at read
    · exact tidy.pending read
  · rename_i more
    have line : IsLine desk.units others :=
      ⟨more, fun package member => (tidy.pending waiting).2 package (List.mem_cons_of_mem _ member)⟩
    exact Table.forall_set tidy.pending line read

/-! ### What becomes of a message -/

/-- What an import does to the desk and sets going. -/
inductive Resolves (desk : ImportDesk) (stopped : Bool) (request : ImportRequest) :
    ImportDesk × Effects → Prop where
  | reject {unit : PackageUnit} {cycle : List String}
      (known : desk.units.get? request.package = some unit) (live : unit.isLive = true)
      (closes : desk.importCycle request = some cycle) :
      Resolves desk stopped request
        (desk,
          { deliveries := [⟨request.replyTo, .failed (.package request.package)
              (.cyclicImport request.fromFile request.position cycle)⟩] })
  | follow {unit : PackageUnit} (known : desk.units.get? request.package = some unit)
      (live : unit.isLive = true) (safe : desk.importCycle request = none) :
      Resolves desk stopped request
        ({ desk with
            units := desk.units.set request.package (unit.subscribe request.replyTo).1
            graph := desk.graph.record request.fromFile request.package },
          { deliveries := (unit.subscribe request.replyTo).2 })
  | reuse {unit : PackageUnit} (known : desk.units.get? request.package = some unit)
      (done : unit.isLive = false) :
      Resolves desk stopped request
        ({ desk with
            units := desk.units.set request.package (unit.subscribe request.replyTo).1 },
          { deliveries := (unit.subscribe request.replyTo).2 })
  | turnAway (unknown : desk.units.get? request.package = none) (stops : stopped = true) :
      Resolves desk stopped request
        (desk, { deliveries := [⟨request.replyTo, .cancelled (.package request.package)⟩] })
  | search (unknown : desk.units.get? request.package = none) (goesOn : stopped = false) :
      Resolves desk stopped request
        ({ desk with
            units := desk.units.set request.package
              { name := request.package, audience := .waiting [request.replyTo] }
            graph := desk.graph.record request.fromFile request.package },
          { lookups := [⟨request.package, request.fromFile, request.position⟩] })

theorem handleImport_resolves (tidy : desk.Tidy) (stopped : Bool) (request : ImportRequest) :
    Resolves desk stopped request (desk.handleImport stopped request) := by
  unfold handleImport
  dsimp only
  split
  next unit known =>
    have name := (unit.subscribe_name request.replyTo).trans (tidy.name known)
    split
    next live =>
      split
      next cycle closes => exact .reject known live closes
      next safe =>
        rw [update, name]
        exact .follow known live safe
    next done =>
      rw [update, name]
      exact .reuse known (by simpa using done)
  next unknown =>
    split
    next stops => exact .turnAway unknown stops
    next goesOn => exact .search unknown (by simpa using goesOn)

/-- What a notice about a member does to the desk and sets going. -/
inductive Hears (desk : ImportDesk) (notice : Notice) : ImportDesk × Effects → Prop where
  | drop (unread : ∀ file, notice.unit = .file file → desk.pending.get? file = none) :
      Hears desk notice (desk, {})
  | hear {file package : String} {others : List String} {unit : PackageUnit}
      (about : notice.unit = .file file)
      (waiting : desk.pending.get? file = some (package :: others))
      (known : desk.units.get? package = some unit) :
      Hears desk notice
        ({ desk with
            pending :=
              if others = [] then desk.pending.erase file else desk.pending.set file others
            units := desk.units.set package (unit.memberDone file notice.outcome).1 },
          { deliveries := (unit.memberDone file notice.outcome).2 })

theorem handleMember_hears (tidy : desk.Tidy) (notice : Notice) :
    Hears desk notice (desk.handleMember notice) := by
  unfold handleMember
  split
  next package about => exact .drop (by simp [about])
  next file about =>
    cases waiting : desk.pending.get? file with
    | none => exact .drop (by simpa [about] using waiting)
    | some packages =>
      -- The line of a file is never empty and its packages are known, so somebody hears of it.
      obtain ⟨nonempty, units⟩ := tidy.pending waiting
      cases packages with
      | nil => exact (nonempty rfl).elim
      | cons package others =>
        obtain ⟨unit, known⟩ := units package List.mem_cons_self
        have name := (unit.memberDone_hears file notice.outcome).name_eq.trans (tidy.name known)
        simp only [known, update, name]
        exact .hear about waiting known

/-- What a finished search does to the desk and sets going. -/
inductive Locates (desk : ImportDesk) (reachable : Bool) (located : Located)
    (unit : PackageUnit) : ImportDesk × Effects → Prop where
  | lost {fault : Setback LocateError} (failed : located.result = .error fault) :
      Locates desk reachable located unit
        ({ desk with
            units := desk.units.set located.lookup.package
              (unit.complete (.failed (located.lookup.failure fault))).1 },
          { deliveries := (unit.complete (.failed (located.lookup.failure fault))).2 })
  | knot {files cycle : List String} (found : located.result = .ok files)
      (closes : desk.memberCycle located.lookup.package (files.map Path.normalize) =
        some cycle) :
      Locates desk reachable located unit
        ({ desk with
            units := desk.units.set located.lookup.package
              (unit.complete (.failed (.cyclicImport located.lookup.fromFile
                located.lookup.position cycle))).1 },
          { deliveries := (unit.complete (.failed (.cyclicImport located.lookup.fromFile
              located.lookup.position cycle))).2 })
  | start {files : List String} (found : located.result = .ok files)
      (safe : desk.memberCycle located.lookup.package (files.map Path.normalize) = none)
      (isReachable : reachable = true) :
      Locates desk reachable located unit
        ({ desk with
            units := desk.units.set located.lookup.package
              (unit.start (files.map Path.normalize)).1
            pending := enroll desk.pending located.lookup.package
              (unit.start (files.map Path.normalize)).1.members },
          { deliveries := (unit.start (files.map Path.normalize)).2
            requests := (unit.start (files.map Path.normalize)).1.members.map
              fun file => ⟨file, .members⟩ })
  | sever {files : List String} {next : ImportDesk} {deliveries : List Delivery}
      (found : located.result = .ok files)
      (safe : desk.memberCycle located.lookup.package (files.map Path.normalize) = none)
      (isGone : reachable = false)
      (severs : Severs
        { desk with
          units := desk.units.set located.lookup.package
            (unit.start (files.map Path.normalize)).1 }
        deliveries next)
      (tidyNext : next.Tidy) :
      Locates desk reachable located unit
        (next, { deliveries := (unit.start (files.map Path.normalize)).2 ++ deliveries })

theorem handleLocated_locates (tidy : desk.Tidy) {located : Located} {unit : PackageUnit}
    (known : desk.units.get? located.lookup.package = some unit) (reachable : Bool) :
    Locates desk reachable located unit (desk.handleLocated reachable located) := by
  have name := tidy.name known
  unfold handleLocated
  dsimp only
  split
  next fault failed =>
    simp only [complete, known, update, unit.complete_name, name]
    exact .lost failed
  next files found =>
    split
    next cycle closes =>
      simp only [complete, known, update, unit.complete_name, name]
      exact .knot found closes
    next safe =>
      have started := (unit.start_name (files.map Path.normalize)).trans name
      simp only [known, update, started]
      cases reachable with
      | true =>
        rw [requestMembers_reachable, Effects.append_eq, List.append_nil]
        exact .start found safe rfl
      | false =>
        obtain ⟨next, deliveries, run, tidyNext, severs⟩ := requestMembers_unreachable
          (tidy.set started) (Table.exists_set ⟨unit, known⟩)
          (unit.start (files.map Path.normalize)).1.members
        rw [run]
        exact .sever found safe rfl severs tidyNext

end ImportDesk

end GoFront.Build
