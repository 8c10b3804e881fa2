import GoFront.Proofs.Build.Waiting.Live

/-!
Who stands in line for a member file. A package is in the line of a file as long as it waits for
that member, once, and nobody else is; and a line is as long as there are requests for its file
whose notice has not come. That holds after every message, whatever the order and whichever
requests get through to the file desk.
-/
namespace GoFront.Build

/-! ### Waiting for a member -/

/-- The package has a unit that is not complete, and the file is one of the members it waits for. -/
def Awaits (units : Table PackageUnit) (package file : String) : Prop :=
  ∃ unit, units.get? package = some unit ∧ unit.isLive = true ∧ file ∈ unit.outstanding

namespace Awaits

variable {units : Table PackageUnit} {package other file : String} {unit changed : PackageUnit}

theorem iff_of_known (known : units.get? package = some unit) :
    Awaits units package file ↔ unit.isLive = true ∧ file ∈ unit.outstanding := by
  simp [Awaits, known]

theorem set_self : Awaits (units.set package changed) package file ↔
    changed.isLive = true ∧ file ∈ changed.outstanding :=
  iff_of_known (by simp)

theorem set_of_ne (apart : other ≠ package) :
    Awaits (units.set package changed) other file ↔ Awaits units other file := by
  simp [Awaits, apart]

theorem set_of_iff (same : changed.isLive = true ∧ file ∈ changed.outstanding ↔
    Awaits units package file) :
    Awaits (units.set package changed) other file ↔ Awaits units other file := by
  by_cases apart : other = package
  · rw [apart, set_self, same]
  · exact set_of_ne apart

/-- A package that hears of a member waits for all other members still, and for that one no more. -/
theorem memberDone (awaits : Awaits units package file) (known : units.get? package = some unit)
    (outcome : Outcome) {asked : String} :
    Awaits (units.set package (unit.memberDone file outcome).1) other asked ↔
      Awaits units other asked ∧ ¬(other = package ∧ asked = file) := by
  by_cases same : other = package
  · subst same
    rw [set_self, iff_of_known known]
    obtain ⟨live, member⟩ := (iff_of_known known).mp awaits
    have hears := unit.memberDone_hears file outcome
    generalize (unit.memberDone file outcome).1 = next at hears
    generalize (unit.memberDone file outcome).2 = deliveries at hears
    cases hears with
    | ignore idle => exact absurd member (idle.resolve_left (by simp [live]))
    | record => simp [PackageUnit.isLive, and_assoc]
    | finish isOpen _ last =>
      have lastOnly : asked ∈ unit.outstanding → asked = file := last asked
      simp only [List.not_mem_nil, and_false, true_and, false_iff, not_and, not_not]
      exact fun waits => lastOnly waits.2
  · rw [set_of_ne same]
    simp [same]

end Awaits

/-- A package that has been found waits for the members that it is about to ask for. -/
theorem PackageUnit.Fresh.awaits_start {unit : PackageUnit} (fresh : unit.Fresh)
    (files : List String) (file : String) :
    (unit.start files).1.isLive = true ∧ file ∈ (unit.start files).1.outstanding ↔
      file ∈ (unit.start files).1.members := by
  obtain ⟨subscribers, isOpen⟩ := PackageUnit.isLive_iff.mp fresh.live
  cases files with
  | nil =>
    rw [PackageUnit.start_nil fresh, PackageUnit.complete_of_waiting unit isOpen]
    simp [fresh.members]
  | cons first rest =>
    obtain ⟨started, _⟩ := PackageUnit.start_of_fresh fresh (List.cons_ne_nil first rest)
    have live := PackageUnit.isLive_iff.mpr ⟨subscribers, started.audience.trans isOpen⟩
    rw [started.members, started.outstanding]
    exact and_iff_right live

namespace ImportDesk

variable {desk : ImportDesk} {searches : List Lookup} {package file : String} {unit : PackageUnit}
  {todo asked : List String}

/-- The packages that stand in line for the notice of a member file. -/
def line (desk : ImportDesk) (file : String) : List String := (desk.pending.get? file).getD []

/-- The member files that were asked for while a message was handled. -/
def sent (effects : Effects) : List String := effects.requests.map (·.file)

/-- The requests for members that are open after a notice. -/
def stillOpen (asked : List String) (notice : Notice) : List String :=
  match notice.unit with
  | .file file => asked.erase file
  | .package _ => asked

/-- Asks for the member files of a package in order. Each request gets through or not. -/
def requestEach (desk : ImportDesk) (reaches : String → Bool) (package : String)
    (files : List String) : ImportDesk × Effects :=
  files.foldl (fun done file => requestNext (reaches file) package done file) (desk, {})

/-- Handles a finished search while the file desk may go away: some requests for members get through
and others do not. -/
def handleFound (desk : ImportDesk) (reaches : String → Bool) (located : Located) :
    ImportDesk × Effects :=
  let package := located.lookup.package
  match located.result with
  | .error fault => desk.complete package (.failed (located.lookup.failure fault))
  | .ok files =>
    let members := files.map Path.normalize
    match desk.memberCycle package members with
    | some cycle =>
      let failure := .cyclicImport located.lookup.fromFile located.lookup.position cycle
      desk.complete package (.failed failure)
    | none =>
      match desk.units.get? package with
      | none => (desk, {})
      | some unit =>
        let started := unit.start members
        let (desk, effects) := desk.update started
        let (desk, more) := desk.requestEach reaches package started.1.members
        (desk, effects ++ more)

/-- The desk itself finds out once for all members whether the file desk is there. -/
theorem handleFound_const (desk : ImportDesk) (reachable : Bool) (located : Located) :
    desk.handleFound (fun _ => reachable) located = desk.handleLocated reachable located := rfl

/-- The desks that can come about, in whatever order messages are handled and whichever requests for
members get through, with the searches that have not come back and the requests for members that
were sent and whose notice has not come. -/
inductive Worked : ImportDesk → List Lookup → List String → Prop where
  | start : Worked {} [] []
  | imported {desk : ImportDesk} {searches : List Lookup} {asked : List String}
      (earlier : Worked desk searches asked) (stopped : Bool) (request : ImportRequest) :
      Worked (desk.handleImport stopped request).1
        (searches ++ (desk.handleImport stopped request).2.lookups)
        (asked ++ sent (desk.handleImport stopped request).2)
  | found {desk : ImportDesk} {before after : List Lookup} {lookup : Lookup} {asked : List String}
      (earlier : Worked desk (before ++ lookup :: after) asked) (reaches : String → Bool)
      (result : Except (Setback LocateError) (List String)) :
      Worked (desk.handleFound reaches ⟨lookup, result⟩).1 (before ++ after)
        (asked ++ sent (desk.handleFound reaches ⟨lookup, result⟩).2)
  | heard {desk : ImportDesk} {searches : List Lookup} {asked : List String}
      (earlier : Worked desk searches asked) (notice : Notice) :
      Worked (desk.handleMember notice).1 searches
        (stillOpen asked notice ++ sent (desk.handleMember notice).2)

/-! ### Lines and requests -/

/-- The lines hold the packages that wait for members, but for those that are due to ask for them
still. They are as long as there are open requests. -/
structure Lined (desk : ImportDesk) (asked : List String) (due : String → String → Prop) :
    Prop where
  name : ∀ {package unit}, desk.units.get? package = some unit → unit.name = package
  member : ∀ {package file},
    package ∈ desk.line file ↔ Awaits desk.units package file ∧ ¬due package file
  unique : ∀ file, (desk.line file).Nodup
  nonempty : ∀ {file packages}, desk.pending.get? file = some packages → packages ≠ []
  length : ∀ file, (desk.line file).length = asked.count file

theorem line_of_waiting {packages : List String}
    (waiting : desk.pending.get? file = some packages) : desk.line file = packages := by
  simp [line, waiting]

namespace Lined

variable {due : String → String → Prop}

theorem tidy (lined : desk.Lined asked due) : desk.Tidy where
  name := lined.name
  pending waiting := by
    refine ⟨lined.nonempty waiting, fun other member => ?_⟩
    rw [← line_of_waiting waiting] at member
    obtain ⟨unit, known, _⟩ := (lined.member.mp member).1
    exact ⟨unit, known⟩

theorem change (lined : desk.Lined asked due) {next : ImportDesk} {left : String → String → Prop}
    (pending : next.pending = desk.pending)
    (name : ∀ {package unit}, next.units.get? package = some unit → unit.name = package)
    (awaits : ∀ {package file}, Awaits next.units package file ∧ ¬left package file ↔
      Awaits desk.units package file ∧ ¬due package file) :
    next.Lined asked left := by
  have lines : ∀ file, next.line file = desk.line file := fun file => by rw [line, line, pending]
  refine ⟨name, ?_, ?_, ?_, ?_⟩
  · intro package file
    rw [lines, awaits]
    exact lined.member
  · exact fun file => lines file ▸ lined.unique file
  · exact fun waiting => lined.nonempty (pending ▸ waiting)
  · exact fun file => lines file ▸ lined.length file

/-- A notice takes the first package out of the line of its file, and one request is answered. -/
theorem heard (lined : desk.Lined asked due) (notice : Notice) :
    (desk.handleMember notice).1.Lined (stillOpen asked notice) due := by
  have hears := handleMember_hears lined.tidy notice
  generalize desk.handleMember notice = next at hears
  cases hears with
  | drop unread =>
    refine { lined with length := fun file => ?_ }
    cases about : notice.unit with
    | package => rw [stillOpen, about]; exact lined.length file
    | file answered =>
      -- Nobody is in the line, so no request is open.
      have empty : asked.count answered = 0 := by
        rw [← lined.length, line, unread answered about]; rfl
      rw [stillOpen, about]
      dsimp only
      rw [List.erase_of_not_mem (List.count_eq_zero.mp empty)]
      exact lined.length file
  | @hear file package others unit about waiting known =>
    have here : desk.line file = package :: others := line_of_waiting waiting
    have unique := here ▸ lined.unique file
    have awaits := (lined.member.mp (here ▸ List.mem_cons_self)).1
    have lines : ∀ other, line { desk with
        pending := if others = [] then desk.pending.erase file else desk.pending.set file others
        units := desk.units.set package (unit.memberDone file notice.outcome).1 } other =
          if other = file then others else desk.line other := by
      intro other
      by_cases none : others = [] <;> by_cases same : other = file <;> simp [line, none, same]
    have name := (unit.memberDone_hears file notice.outcome).name_eq.trans (lined.name known)
    refine ⟨Table.forall_set lined.name name, ?_, ?_, ?_, ?_⟩
    · intro other asked
      rw [lines, awaits.memberDone known]
      split
      next same =>
        subst same
        have apart : package ∉ others := (List.nodup_cons.mp unique).1
        have old := @lined.member other asked
        rw [here, List.mem_cons] at old
        constructor
        · intro later
          have waits := old.mp (.inr later)
          exact ⟨⟨waits.1, fun first => apart (first.1 ▸ later)⟩, waits.2⟩
        · rintro ⟨⟨waits, notFirst⟩, notDue⟩
          exact (old.mpr ⟨waits, notDue⟩).resolve_left fun first => notFirst ⟨first, rfl⟩
      next away => simp [away, lined.member]
    · intro other
      rw [lines]
      split
      · exact (List.nodup_cons.mp unique).2
      · exact lined.unique other
    · intro other packages read
      dsimp only at read
      split at read
      · rw [Table.get?_erase] at read
        split at read
        · simp at read
        · exact lined.nonempty read
      next more =>
        rw [Table.get?_set] at read
        split at read
        · exact Option.some.inj read ▸ more
        · exact lined.nonempty read
    · intro other
      have before := lined.length other
      rw [lines, stillOpen, about]
      dsimp only
      rw [List.count_erase, ← before]
      by_cases same : other = file
      · simp [same, here]
      · simp [same, Ne.symm same]

theorem sent_heard (lined : desk.Lined asked due) (notice : Notice) :
    sent (desk.handleMember notice).2 = [] := by
  have hears := handleMember_hears lined.tidy notice
  generalize desk.handleMember notice = next at hears
  cases hears <;> rfl

theorem awaits_heard (lined : desk.Lined asked due) (notice : Notice)
    (elsewhere : notice.unit ≠ .file file) (awaits : Awaits desk.units package file) :
    Awaits (desk.handleMember notice).1.units package file := by
  have hears := handleMember_hears lined.tidy notice
  generalize desk.handleMember notice = next at hears
  cases hears with
  | drop => exact awaits
  | @hear answered first others unit about waiting known =>
    have firstWaits := (lined.member.mp (line_of_waiting waiting ▸ List.mem_cons_self)).1
    exact (firstWaits.memberDone known _).mpr
      ⟨awaits, fun same => elsewhere (same.2 ▸ about)⟩

theorem enlist (lined : desk.Lined asked due) (awaits : Awaits desk.units package file)
    (isDue : due package file) :
    Lined { desk with pending := desk.pending.set file (desk.line file ++ [package]) }
      (asked ++ [file])
      fun other member => due other member ∧ ¬(other = package ∧ member = file) := by
  have lines : ∀ other,
      line { desk with pending := desk.pending.set file (desk.line file ++ [package]) } other =
        desk.line other ++ if other = file then [package] else [] := by
    intro other
    by_cases same : other = file <;> simp [line, same]
  refine ⟨lined.name, ?_, ?_, ?_, ?_⟩
  · intro other member
    rw [lines, List.mem_append, lined.member]
    by_cases same : member = file
    · subst same
      by_cases this : other = package
      · subst this
        simp [awaits]
      · simp [this]
    · simp [same]
  · intro other
    rw [lines]
    split
    next same =>
      have absent : package ∉ desk.line other := fun member =>
        (lined.member.mp member).2 (same ▸ isDue)
      rw [← List.concat_eq_append]
      exact (lined.unique other).concat absent
    next => rw [List.append_nil]; exact lined.unique other
  · exact @Table.forall_set _ (fun _ packages => packages ≠ []) _ _ _ lined.nonempty (by simp)
  · intro other
    rw [lines, List.length_append, lined.length, List.count_append, List.count_singleton]
    by_cases same : other = file
    · simp [same]
    · simp [same, Ne.symm same]

/-- After a request the package is in line for the member if the request got through. If not, the
first in line hears that the member is lost. -/
theorem request (lined : desk.Lined asked due) (awaits : Awaits desk.units package file)
    (isDue : due package file) (reachable : Bool) :
    Lined (requestMember reachable package desk file).1
      (asked ++ sent (requestMember reachable package desk file).2)
      fun other member => due other member ∧ ¬(other = package ∧ member = file) := by
  have enlisted := lined.enlist awaits isDue
  -- The notice of a lost request goes to the first in line like any other, so it is as if the
  -- request had been sent and answered at once.
  cases reachable with
  | true => exact enlisted
  | false =>
    have lost := enlisted.heard (.disconnected (.file file))
    have silent := enlisted.sent_heard (.disconnected (.file file))
    refine { lost with length := fun other => ?_ }
    have counted := lost.length other
    have asks : stillOpen (asked ++ [file]) (.disconnected (.file file)) =
        (asked ++ [file]).erase file := rfl
    rw [asks, List.count_erase, List.count_append, List.count_singleton] at counted
    refine counted.trans ?_
    rw [requestMember, if_neg Bool.false_ne_true]
    refine Eq.trans ?_ (congrArg (fun more => (asked ++ more).count other) silent).symm
    rw [List.append_nil, Nat.add_sub_cancel]

end Lined

/-! ### The members of a package -/

/-- A package that has been found asks for its members: what has been done and what is left. -/
structure Asking (asked : List String) (searches : List Lookup) (package : String)
    (done : ImportDesk × Effects) (todo : List String) : Prop where
  lined : done.1.Lined (asked ++ sent done.2) fun other file => other = package ∧ file ∈ todo
  awaits : ∀ file ∈ todo, Awaits done.1.units package file
  unique : todo.Nodup
  sound : done.1.Sound searches

theorem sent_append (before after : Effects) :
    sent (before ++ after) = sent before ++ sent after := by
  simp [sent, Effects.append_eq]

theorem Asking.next {done : ImportDesk × Effects}
    (asking : Asking asked searches package done (file :: todo)) (reachable : Bool) :
    Asking asked searches package (requestNext reachable package done file) todo := by
  obtain ⟨lined, awaits, unique, sound⟩ := asking
  obtain ⟨absent, unique⟩ := List.nodup_cons.mp unique
  have here := awaits file List.mem_cons_self
  have isDue : package = package ∧ file ∈ file :: todo := ⟨rfl, List.mem_cons_self⟩
  have requested := lined.request here isDue reachable
  have enlisted := lined.enlist here isDue
  have soundEnlisted : Sound { done.1 with
      pending := done.1.pending.set file (done.1.line file ++ [package]) } searches :=
    { sound with }
  refine ⟨?_, ?_, unique, ?_⟩
  · rw [requestNext, sent_append, ← List.append_assoc]
    refine requested.change rfl requested.name fun {other member} => ?_
    have left : member = file → member ∉ todo := fun same => same ▸ absent
    simp only [List.mem_cons]
    tauto
  · intro other later
    cases reachable with
    | true => exact awaits other (List.mem_cons_of_mem _ later)
    | false =>
      have apart : UnitName.file file ≠ .file other :=
        fun same => absent (UnitName.file.inj same ▸ later)
      exact enlisted.awaits_heard (.disconnected (.file file)) apart
        (awaits other (List.mem_cons_of_mem _ later))
  · cases reachable with
    | true => exact soundEnlisted
    | false => exact (sound_heard enlisted.tidy soundEnlisted (.disconnected (.file file))).2

theorem Asking.all {done : ImportDesk × Effects}
    (asking : Asking asked searches package done todo) (reaches : String → Bool) :
    Asking asked searches package
      (todo.foldl (fun done file => requestNext (reaches file) package done file) done) [] := by
  induction todo generalizing done with
  | nil => exact asking
  | cons file rest ih => exact ih (asking.next (reaches file))

/-! ### Every message -/

/-- Between two messages nobody is due to ask for a member. -/
structure Kept (desk : ImportDesk) (searches : List Lookup) (asked : List String) : Prop where
  lined : desk.Lined asked fun _ _ => False
  sound : desk.Sound searches

theorem kept_imported (kept : desk.Kept searches asked) (stopped : Bool) (request : ImportRequest) :
    (desk.handleImport stopped request).1.Kept
      (searches ++ (desk.handleImport stopped request).2.lookups)
      (asked ++ sent (desk.handleImport stopped request).2) := by
  obtain ⟨lined, sound⟩ := kept
  obtain ⟨tidy, sound⟩ := sound_imported lined.tidy sound stopped request
  refine ⟨?_, sound⟩
  have resolves := handleImport_resolves lined.tidy stopped request
  generalize desk.handleImport stopped request = change at resolves tidy ⊢
  cases resolves with
  | reject | turnAway => rwa [sent, List.map_nil, List.append_nil]
  | @follow unit known | @reuse unit known =>
    rw [sent, List.map_nil, List.append_nil]
    refine lined.change rfl tidy.name fun {package file} => ?_
    rw [Awaits.set_of_iff]
    rw [Awaits.iff_of_known known, unit.isLive_subscribe]
    rfl
  | search unknown =>
    rw [sent, List.map_nil, List.append_nil]
    refine lined.change rfl tidy.name fun {package file} => ?_
    rw [Awaits.set_of_iff]
    simp [Awaits, unknown]

theorem kept_heard (kept : desk.Kept searches asked) (notice : Notice) :
    (desk.handleMember notice).1.Kept searches
      (stillOpen asked notice ++ sent (desk.handleMember notice).2) := by
  obtain ⟨lined, sound⟩ := kept
  rw [lined.sent_heard, List.append_nil]
  exact ⟨lined.heard notice, (sound_heard lined.tidy sound notice).2⟩

/-- A package that fails while it is searched for waits for no member before or after. -/
theorem Kept.complete {before after : List Lookup} {lookup : Lookup}
    (kept : desk.Kept (before ++ lookup :: after) asked) (outcome : Outcome) :
    (desk.complete lookup.package outcome).1.Kept (before ++ after)
      (asked ++ sent (desk.complete lookup.package outcome).2) := by
  obtain ⟨lined, sound⟩ := kept
  obtain ⟨unit, known, fresh⟩ := sound.fresh lookup (by simp)
  obtain ⟨sound, gone⟩ := sound.forget
  have name := (unit.complete_name outcome).trans (lined.name known)
  simp only [ImportDesk.complete, known, update, name, sent, List.map_nil, List.append_nil]
  constructor
  · refine lined.change rfl (Table.forall_set lined.name name) fun {package file} => ?_
    rw [Awaits.set_of_iff]
    rw [Awaits.iff_of_known known, fresh.outstanding]
    simp [unit.isLive_complete]
  · refine sound.replace known _ ?_ fun member => absurd member gone
    exact sound.acyclic.shrink known (by simp [unit.isLive_complete])
      fun _ => PackageUnit.mem_outstanding_of_complete

theorem Kept.asking {before after : List Lookup} {lookup : Lookup} {files : List String}
    (kept : desk.Kept (before ++ lookup :: after) asked)
    (known : desk.units.get? lookup.package = some unit)
    (safe : desk.memberCycle lookup.package files = none) :
    Asking asked (before ++ after) lookup.package
      ({ desk with units := desk.units.set lookup.package (unit.start files).1 }, {})
      (unit.start files).1.members := by
  obtain ⟨lined, sound⟩ := kept
  obtain ⟨found, read, fresh⟩ := sound.fresh lookup (by simp)
  obtain rfl := Option.some.inj (known.symm.trans read)
  obtain ⟨sound, gone⟩ := sound.forget
  have started {file : String} :
      Awaits (desk.units.set lookup.package (unit.start files).1) lookup.package file ↔
        file ∈ (unit.start files).1.members :=
    Awaits.set_self.trans (fresh.awaits_start files file)
  have name := (unit.start_name files).trans (lined.name known)
  refine ⟨?_, fun file member => started.mpr member, (fresh.members_of_start files).1, ?_⟩
  · rw [sent, List.map_nil, List.append_nil]
    refine lined.change rfl (Table.forall_set lined.name name) fun {package file} => ?_
    by_cases same : package = lookup.package
    · rw [same, started, Awaits.iff_of_known known, fresh.outstanding]
      simp
    · rw [Awaits.set_of_ne same]
      simp [same]
  · have acyclic := sound.acyclic.start known fresh safe
    exact sound.replace known _ acyclic fun member => absurd member gone

theorem kept_found {before after : List Lookup} {lookup : Lookup}
    (kept : desk.Kept (before ++ lookup :: after) asked) (reaches : String → Bool)
    (result : Except (Setback LocateError) (List String)) :
    (desk.handleFound reaches ⟨lookup, result⟩).1.Kept (before ++ after)
      (asked ++ sent (desk.handleFound reaches ⟨lookup, result⟩).2) := by
  obtain ⟨unit, known, fresh⟩ := kept.sound.fresh lookup (by simp)
  have name := kept.lined.name known
  unfold handleFound
  dsimp only
  split
  next => exact kept.complete _
  next files =>
    split
    next => exact kept.complete _
    next safe =>
      have started := (unit.start_name (files.map Path.normalize)).trans name
      simp only [known, update, started]
      obtain ⟨lined, _, _, sound⟩ := (kept.asking known safe).all reaches
      rw [sent_append]
      refine ⟨lined.change rfl lined.name ?_, sound⟩
      intro package file
      simp only [List.not_mem_nil, and_false]
      rfl

theorem Worked.kept (worked : Worked desk searches asked) : desk.Kept searches asked := by
  induction worked with
  | start =>
    refine ⟨⟨nofun, ?_, ?_, nofun, ?_⟩, .empty, nofun, List.nodup_nil, nofun⟩
    · simp [line, Awaits]
    · simp [line]
    · simp [line]
  | imported _ stopped request ih => exact kept_imported ih stopped request
  | found _ reaches result ih => exact kept_found ih reaches result
  | heard _ notice ih => exact kept_heard ih notice

/-- A desk that has been worked at with all or no requests getting through each time. -/
theorem Reached.worked (reached : Reached desk searches) : ∃ asked, Worked desk searches asked := by
  induction reached with
  | start => exact ⟨[], .start⟩
  | imported _ stopped request ih =>
    obtain ⟨_, worked⟩ := ih
    exact ⟨_, worked.imported stopped request⟩
  | located _ reachable result ih =>
    obtain ⟨_, worked⟩ := ih
    exact ⟨_, worked.found (fun _ => reachable) result⟩
  | heard _ notice ih =>
    obtain ⟨_, worked⟩ := ih
    exact ⟨_, worked.heard notice⟩

/-- The lines for member files agree with the units and with the requests on their way. -/
structure Booked (desk : ImportDesk) (asked : List String) : Prop where
  /-- A package that waits for a member stands in its line once. -/
  once : ∀ {file package}, Awaits desk.units package file → (desk.line file).count package = 1
  /-- No other package does. -/
  absent : ∀ {file package}, ¬Awaits desk.units package file → package ∉ desk.line file
  /-- No line is kept when it is empty, and none has repeats. -/
  proper : ∀ {file packages}, desk.pending.get? file = some packages →
    packages ≠ [] ∧ packages.Nodup
  /-- There are as many packages in a line as requests for its file whose notice has not come. -/
  length : ∀ file, (desk.line file).length = asked.count file
  /-- The notice to such a request is heard by a package that waits for it. -/
  heard : ∀ file ∈ asked, ∀ outcome, ∃ package unit,
    desk.units.get? package = some unit ∧ unit.isLive = true ∧ file ∈ unit.outstanding ∧
      (desk.handleMember ⟨.file file, outcome⟩).1.units.get? package =
        some (unit.memberDone file outcome).1
  /-- Each package that waits for a member can count on a notice. -/
  coming : ∀ {file package}, Awaits desk.units package file → file ∈ asked

/-- Whatever messages came in whatever order, and whichever requests for members did not get
through, the lines for the members are right: no notice is ignored because nobody waits for it, and
nobody waits for a notice that does not come. -/
theorem members_booked (worked : Worked desk searches asked) : Booked desk asked := by
  obtain ⟨lined, _⟩ := worked.kept
  have member {file package : String} : package ∈ desk.line file ↔ Awaits desk.units package file :=
    lined.member.trans (and_iff_left not_false)
  refine ⟨fun awaits => ?_, fun idle isIn => idle (member.mp isIn), fun {file _} waiting => ?_,
    lined.length, fun file open' outcome => ?_, fun {file package} awaits => ?_⟩
  · exact List.count_eq_one_of_mem (lined.unique _) (member.mpr awaits)
  · exact ⟨lined.nonempty waiting, line_of_waiting waiting ▸ lined.unique file⟩
  · have long : 0 < (desk.line file).length := by
      rw [lined.length]
      exact List.count_pos_iff.mpr open'
    have hears := handleMember_hears lined.tidy ⟨.file file, outcome⟩
    generalize desk.handleMember ⟨.file file, outcome⟩ = next at hears
    cases hears with
    | drop unread =>
      rw [line, unread file rfl] at long
      exact absurd long (Nat.lt_irrefl 0)
    | @hear heard package others unit about waiting known =>
      obtain rfl := UnitName.file.inj about
      have awaits := member.mp (line_of_waiting waiting ▸ List.mem_cons_self)
      obtain ⟨live, outstanding⟩ := (Awaits.iff_of_known known).mp awaits
      exact ⟨package, unit, known, live, outstanding, by simp⟩
  · have long := List.length_pos_of_mem (member.mpr awaits)
    rw [lined.length] at long
    exact List.count_pos_iff.mp long

/-- Two packages share a member. The other member of the second one cannot be asked for. -/
theorem members_booked_shared :
    ∃ desk, Worked desk [] ["x.go", "x.go"] ∧ desk.line "x.go" = ["a", "b"] ∧
      desk.line "y.go" = [] ∧ Booked desk ["x.go", "x.go"] := by
  let importA : ImportRequest := ⟨"a", "main.go", ⟨3, 8⟩, .task "main.go"⟩
  let importB : ImportRequest := ⟨"b", "main.go", ⟨4, 8⟩, .task "main.go"⟩
  let a : Lookup := ⟨"a", "main.go", ⟨3, 8⟩⟩
  let b : Lookup := ⟨"b", "main.go", ⟨4, 8⟩⟩
  let both : ImportDesk := ((handleImport {} false importA).1.handleImport false importB).1
  let foundA := both.handleFound (fun _ => true) ⟨a, .ok ["./x.go"]⟩
  let foundB := foundA.1.handleFound (· = "x.go") ⟨b, .ok ["x.go", "y.go"]⟩
  have first : Worked both [a, b] [] := (Worked.start.imported false importA).imported false importB
  have second : Worked foundA.1 [b] ["x.go"] := by
    have asked : sent foundA.2 = ["x.go"] := by decide +kernel
    have worked := @Worked.found both [] [b] a [] first (fun _ => true) (.ok ["./x.go"])
    rwa [asked] at worked
  have third : Worked foundB.1 [] ["x.go", "x.go"] := by
    have asked : sent foundB.2 = ["x.go"] := by decide +kernel
    have worked := @Worked.found foundA.1 [] [] b _ second (· = "x.go") (.ok ["x.go", "y.go"])
    rwa [asked] at worked
  have inLine : foundB.1.line "x.go" = ["a", "b"] := by decide +kernel
  have lost : foundB.1.line "y.go" = [] := by decide +kernel
  exact ⟨foundB.1, third, inLine, lost, members_booked third⟩

end ImportDesk

end GoFront.Build
