import GoFront.Build.Machine
import GoFront.Proofs.Build.Answer

/-!
What a call returns, as a function of the notices that reach it. Of each file the first notice
counts and all others are passed over; whether the call succeeds depends on these notices alone and
not on their order.
-/
namespace GoFront.Build

namespace CompileCall

variable {call next : CompileCall} {files names : List String} {heard : List Notice}
  {notice : Notice}

/-- The notices that count for a call for these names, in the order of their arrival. -/
def accepted (names : List String) (notices : List Notice) : List Notice :=
  firsts Notice.unit ((Names.distinct (names.map Path.normalize)).map UnitName.file) notices

theorem Accepts.waiting_eq (accepts : call.Accepts notice next) :
    next.waiting.map UnitName.file =
      (call.waiting.map UnitName.file).filter (· ≠ notice.unit) := by
  have passed : ∀ {name}, notice.unit = .file name →
      (call.waiting.map UnitName.file).filter (· ≠ notice.unit) =
        (call.waiting.filter (· ≠ name)).map UnitName.file := by
    intro name about
    rw [List.filter_map, about]
    congr 1
    exact List.filter_congr fun other _ => by simp
  cases accepts with
  | ignore unawaited =>
    refine (List.filter_eq_self.mpr fun unit mem => ?_).symm
    obtain ⟨name, awaited, rfl⟩ := List.mem_map.mp mem
    have apart : UnitName.file name ≠ notice.unit := fun about => unawaited name about.symm awaited
    simpa using apart
  | record about => exact (passed about).symm
  | @finish name about _ last =>
    have empty : call.waiting.filter (· ≠ name) = [] := by
      simpa [List.filter_eq_nil_iff] using last
    rw [passed about, empty]

/-- Notices that come one after the other: those that count are heard. -/
theorem Heard.foldl (told : call.Heard files heard) (unique : files.Nodup) (notices : List Notice) :
    (notices.foldl CompileCall.accept call).Heard files
      (heard ++ firsts Notice.unit (call.waiting.map UnitName.file) notices) := by
  induction notices generalizing call heard with
  | nil => simpa using told
  | cons notice rest ih =>
    have accepts := call.accept_accepts notice
    rw [firsts_cons, ← accepts.waiting_eq, ← List.append_assoc]
    exact ih (told.accept unique accepts)

/-- The failure with which a call ends that is told no more. -/
theorem Heard.closed (told : call.Heard files heard) :
    call.repliesClosed.result =
      some (if call.waiting = [] then answer heard
        else .failed ((keep (failuresOf heard)).getD .disconnected)) := by
  unfold repliesClosed
  split
  next ended =>
    rw [told.result] at ended ⊢
    split
    next => rw [answer, told.failure]
    next more => simp [more] at ended
  next waits =>
    have more : call.waiting ≠ [] := by
      intro none
      simp [told.result, none] at waits
    rw [if_neg more, told.failure]

/-- A call can succeed if it has heard of the success of each of its files, and only then. -/
theorem Heard.succeeds_iff (told : call.Heard files heard) (unique : files.Nodup) :
    call.waiting = [] ∧ failuresOf heard = [] ↔ ∀ file ∈ files, ⟨.file file, .ok⟩ ∈ heard := by
  have distinct : (heard.map Notice.unit ++ call.waiting.map UnitName.file).Nodup :=
    told.units.nodup_iff.mpr (unique.map fun _ _ => UnitName.file.inj)
  constructor
  · rintro ⟨nothing, clean⟩ file mem
    have about : UnitName.file file ∈ heard.map Notice.unit := by
      have whole := told.units.mem_iff.mpr (List.mem_map_of_mem mem)
      simpa [nothing] using whole
    obtain ⟨⟨unit, outcome⟩, isHeard, rfl⟩ := List.mem_map.mp about
    cases outcome with
    | ok => exact isHeard
    | failed failure =>
      have listed : failure ∈ failuresOf heard := mem_failuresOf.mpr ⟨_, isHeard, rfl⟩
      simp [clean] at listed
  · intro succeeded
    constructor
    · refine List.eq_nil_iff_forall_not_mem.mpr fun file awaited => ?_
      have isFile : file ∈ files := by
        have whole := told.units.subset (List.mem_append_right _ (List.mem_map_of_mem awaited))
        simpa using whole
      have isHeard : UnitName.file file ∈ heard.map Notice.unit :=
        List.mem_map.mpr ⟨_, succeeded file isFile, rfl⟩
      exact (List.nodup_append.mp distinct).2.2 _ isHeard _ (List.mem_map_of_mem awaited) rfl
    · refine List.eq_nil_iff_forall_not_mem.mpr fun failure listed => ?_
      obtain ⟨notice, isHeard, failed⟩ := mem_failuresOf.mp listed
      have whole := told.units.subset (List.mem_append_left _ (List.mem_map_of_mem isHeard))
      obtain ⟨file, isFile, about⟩ := List.mem_map.mp whole
      -- The file has one notice among those heard, so this is the one of its success.
      have same := List.inj_on_of_nodup_map (List.nodup_append.mp distinct).1 isHeard
        (succeeded file isFile) about.symm
      simp [same] at failed

theorem isSome_keep (heard : List Notice) :
    (keep (failuresOf heard)).isSome = heard.any (·.outcome.isFailed) := by
  rw [Bool.eq_iff_iff, Option.isSome_iff_exists, List.any_eq_true]
  constructor
  · rintro ⟨failure, kept⟩
    obtain ⟨notice, isHeard, failed⟩ := mem_failuresOf.mp (mem_of_keep kept)
    exact ⟨notice, isHeard, by rw [failed]; rfl⟩
  · rintro ⟨⟨unit, outcome⟩, isHeard, failed⟩
    cases outcome with
    | ok => simp [Outcome.isFailed] at failed
    | failed failure =>
      have listed : failure ∈ failuresOf heard := mem_failuresOf.mpr ⟨_, isHeard, rfl⟩
      refine Option.ne_none_iff_exists'.mp fun none => ?_
      simp [keep_eq_none.mp none] at listed

/-- Repeated notices about the files of a call do not contradict each other. -/
def Agree (names : List String) (notices : List Notice) : Prop :=
  ∀ name ∈ names, ∀ notice ∈ notices, ∀ other ∈ notices,
    notice.unit = .file (Path.normalize name) → other.unit = .file (Path.normalize name) →
    notice.outcome.isFailed = other.outcome.isFailed

theorem Agree.perm {notices others : List Notice} (agree : Agree names notices)
    (perm : notices.Perm others) : Agree names others := by
  intro name requested notice mem other memOther
  exact agree name requested notice (perm.mem_iff.mpr mem) other (perm.mem_iff.mpr memOther)

/-- If repeats agree it does not matter which one is the first. -/
theorem Agree.ok_mem_accepted {notices : List Notice} (agree : Agree names notices) {name : String}
    (requested : name ∈ names) :
    ⟨.file (Path.normalize name), .ok⟩ ∈ accepted names notices ↔
      ⟨.file (Path.normalize name), .ok⟩ ∈ notices := by
  refine ⟨fun counts => (mem_of_mem_firsts counts).1, fun mem => ?_⟩
  have wanted : UnitName.file (Path.normalize name) ∈
      (Names.distinct (names.map Path.normalize)).map UnitName.file :=
    List.mem_map_of_mem (Names.mem_distinct.mpr (List.mem_map_of_mem requested))
  have found : ∃ first ∈ accepted names notices, first.unit = .file (Path.normalize name) :=
    exists_mem_firsts mem wanted
  obtain ⟨⟨unit, outcome⟩, first, rfl⟩ := found
  have same := agree name requested _ (mem_of_mem_firsts first).1 _ mem rfl rfl
  cases outcome with
  | ok => exact first
  | failed failure => simp [Outcome.isFailed] at same

theorem failure_eq_none_of_foldl {notices : List Notice}
    (clean : (notices.foldl accept call).failure = none) : call.failure = none := by
  induction notices generalizing call with
  | nil => exact clean
  | cons notice rest ih => exact ((call.accept_accepts notice).failure_eq_none (ih clean)).1

/-- The notice of the first failure is the one after which there is a failure. -/
theorem isFirstFailure_eq :
    call.isFirstFailure notice = (call.failure.isNone && (call.accept notice).failure.isSome) := by
  obtain ⟨unit, outcome⟩ := notice
  cases unit with
  | package name => cases found : call.failure <;> simp [isFirstFailure, accept, found]
  | file name =>
    by_cases awaited : name ∈ call.waiting
    · cases outcome <;> cases found : call.failure <;>
        simp [isFirstFailure, accept, awaited, found, prefer, Outcome.isFailed]
    · cases found : call.failure <;> simp [isFirstFailure, accept, awaited, found]

/-- A first failure comes once: with this notice, or with a later one. -/
theorem isFirstFailure_or (later : List Notice) :
    (call.isFirstFailure notice || ((call.accept notice).failure.isNone &&
        (later.foldl accept (call.accept notice)).failure.isSome)) =
      (call.failure.isNone && (later.foldl accept (call.accept notice)).failure.isSome) := by
  have kept : (call.accept notice).failure = none → call.failure = none :=
    fun clean => ((call.accept_accepts notice).failure_eq_none clean).1
  have keptLater : (later.foldl accept (call.accept notice)).failure = none →
      (call.accept notice).failure = none := failure_eq_none_of_foldl
  rw [isFirstFailure_eq]
  cases before : call.failure <;> cases now : (call.accept notice).failure <;>
    cases after : (later.foldl accept (call.accept notice)).failure <;> simp_all

end CompileCall

namespace State

variable {s : State} {number : Nat} {call : CompileCall} {files names : List String}
  {heard : List Notice}

/-- The state after the notices have come to a call, one after the other. -/
def tell (s : State) (number : Nat) (notices : List Notice) : Option State :=
  notices.foldlM (fun s notice => s.deliver? ⟨.call number, notice⟩) s

/-- What a call returns if these are the notices that it can read. -/
def returned? (s : State) (number : Nat) (notices : List Notice) : Option Outcome := do
  let next ← s.tell number notices
  let call ← next.calls[number]?
  call.repliesClosed.result

theorem set_known (known : s.calls[number]? = some call) : s.calls.set number call = s.calls := by
  obtain ⟨inside, rfl⟩ := List.getElem?_eq_some_iff.mp known
  exact List.set_getElem_self inside

theorem deliver?_call (known : s.calls[number]? = some call) (sent : call.unsent = [])
    (told : call.Heard files heard) (notice : Notice) :
    s.deliver? ⟨.call number, notice⟩ = some { s with
      calls := s.calls.set number (call.accept notice)
      shutdown := { s.shutdown with
        raised := s.shutdown.raised || (call.isFirstFailure notice && !s.keepGoing) } } := by
  simp only [deliver?, known]
  split
  next ended =>
    -- A call that is over waits for nothing, so it would not accept the notice either.
    have waiting : call.waiting = [] := by
      rw [told.result] at ended
      by_contra more
      simp [more] at ended
    have same : call.accept notice = call := by
      cases about : notice.unit <;> simp [CompileCall.accept, about, waiting]
    have goesOn : call.isFirstFailure notice = false := by
      rw [CompileCall.isFirstFailure_eq, same]
      cases call.failure <;> rfl
    rw [same, set_known known, goesOn]
    simp
  next waits =>
    have collecting : call.isCollecting = true := by
      simpa [CompileCall.isCollecting, sent] using waits
    simp only [collecting, Bool.not_true, Bool.false_eq_true, if_false]
    cases stops : call.isFirstFailure notice && !s.keepGoing <;>
      simp [stop, Shutdown.trigger]

theorem tell_eq (known : s.calls[number]? = some call) (sent : call.unsent = [])
    (told : call.Heard files heard) (unique : files.Nodup) (notices : List Notice) :
    s.tell number notices = some { s with
      calls := s.calls.set number (notices.foldl CompileCall.accept call)
      shutdown := { s.shutdown with
        raised := s.shutdown.raised || (call.failure.isNone &&
          (notices.foldl CompileCall.accept call).failure.isSome && !s.keepGoing) } } := by
  induction notices generalizing s call heard with
  | nil =>
    have none : (call.failure.isNone && call.failure.isSome) = false := by
      cases call.failure <;> rfl
    simp [tell, set_known known, none]
  | cons notice rest ih =>
    have inside := (List.getElem?_eq_some_iff.mp known).1
    have next := told.accept unique (call.accept_accepts notice)
    have stillSent : (call.accept notice).unsent = [] := by rw [CompileCall.accept_unsent, sent]
    rw [tell, List.foldlM_cons, deliver?_call known sent told, Option.bind_eq_bind,
      Option.bind_some]
    refine (ih (List.getElem?_set_self inside) stillSent next).trans ?_
    rw [List.set_set, List.foldl_cons, ← CompileCall.isFirstFailure_or, Bool.or_assoc,
      ← Bool.and_or_distrib_right]

section
variable (asked : s.calls[number]? = some { CompileCall.start names with unsent := [] })
include asked

/-- The call after these notices, and what it has heard. -/
theorem tell_asked (notices : List Notice) :
    ∃ call next, s.tell number notices = some next ∧ next.calls[number]? = some call ∧
      call.Heard (Names.distinct (names.map Path.normalize))
        (CompileCall.accepted names notices) ∧
      next.shutdown.raised = (s.shutdown.raised || (call.failure.isSome && !s.keepGoing)) := by
  have told := (CompileCall.Heard.start names).send []
  have unique := Names.nodup_distinct (names.map Path.normalize)
  have inside := (List.getElem?_eq_some_iff.mp asked).1
  exact ⟨_, _, tell_eq asked rfl told unique notices, List.getElem?_set_self inside,
    told.foldl unique notices, rfl⟩

/-- What a call returns that has asked for all its files, whatever notices come to it. -/
theorem returned?_eq (notices : List Notice) :
    s.returned? number notices = some
      (if ∀ name ∈ names, ⟨.file (Path.normalize name), .ok⟩ ∈ CompileCall.accepted names notices
        then .ok
        else .failed ((CompileCall.keep
          (CompileCall.failuresOf (CompileCall.accepted names notices))).getD .disconnected)) := by
  obtain ⟨call, next, reached, known, told, -⟩ := tell_asked asked notices
  have closed : s.returned? number notices = call.repliesClosed.result := by
    simp [returned?, reached, known]
  have succeeds := told.succeeds_iff (Names.nodup_distinct _)
  simp only [Names.mem_distinct, List.forall_mem_map] at succeeds
  rw [closed, told.closed, ← if_congr succeeds rfl rfl]
  by_cases nothing : call.waiting = []
  · by_cases clean : CompileCall.failuresOf (CompileCall.accepted names notices) = []
    · simp [nothing, clean, CompileCall.answer_eq_ok.mpr clean]
    · obtain ⟨failure, kept⟩ := Option.ne_none_iff_exists'.mp (mt CompileCall.keep_eq_none.mp clean)
      simp [nothing, clean, kept, CompileCall.answer_eq_failed.mpr kept]
  · simp [nothing]

theorem returned?_eq_ok {notices : List Notice} :
    s.returned? number notices = some .ok ↔
      ∀ name ∈ names, ⟨.file (Path.normalize name), .ok⟩ ∈ CompileCall.accepted names notices := by
  rw [returned?_eq asked]
  split <;> simp_all

theorem raised_of_tell (notices : List Notice) :
    (s.tell number notices).map (·.shutdown.raised) = some (s.shutdown.raised ||
      ((CompileCall.accepted names notices).any (·.outcome.isFailed) && !s.keepGoing)) := by
  obtain ⟨call, next, reached, -, told, raised⟩ := tell_asked asked notices
  rw [reached, Option.map_some, raised, told.failure, CompileCall.isSome_keep]

/-- The answer of a call for files, whatever notices come to it in whatever order. Only the first
notice of each file counts: the call succeeds if all of these are successes, or else it returns the
first failure among them, a real one before one that says that work was cancelled. Any failure
among them stops the compiler unless it keeps going. -/
theorem answer_of_notices (notices : List Notice) :
    (s.returned? number notices = some .ok ↔
      ∀ name ∈ names, ⟨.file (Path.normalize name), .ok⟩ ∈ CompileCall.accepted names notices) ∧
    (s.returned? number notices ≠ some .ok →
      s.returned? number notices = some (.failed ((CompileCall.keep
        (CompileCall.failuresOf (CompileCall.accepted names notices))).getD .disconnected))) ∧
    (s.tell number notices).map (·.shutdown.raised) = some (s.shutdown.raised ||
      ((CompileCall.accepted names notices).any (·.outcome.isFailed) && !s.keepGoing)) ∧
    ∀ others, (CompileCall.accepted names others).Perm (CompileCall.accepted names notices) ∨
        others.Perm notices ∧ CompileCall.Agree names notices →
      (s.returned? number others = some .ok ↔ s.returned? number notices = some .ok) := by
  refine ⟨returned?_eq_ok asked, fun bad => ?_, raised_of_tell asked notices, ?_⟩
  · have unsuccessful := mt (returned?_eq_ok asked).mpr bad
    rw [returned?_eq asked, if_neg unsuccessful]
  · intro others reordered
    rw [returned?_eq_ok asked, returned?_eq_ok asked]
    refine forall₂_congr fun name requested => ?_
    rcases reordered with perm | ⟨perm, agree⟩
    · exact perm.mem_iff
    · rw [agree.ok_mem_accepted requested, (agree.perm perm.symm).ok_mem_accepted requested,
        perm.mem_iff]

end

/-- A real failure goes before the cancellation that came first, and neither a repeated notice nor
one about something else changes that. -/
theorem answer_of_notices_repeated :
    let names := ["./a.go", "b.go", "a.go"]
    let s : State := { calls := [{ CompileCall.start names with unsent := [] }] }
    let broken : Failure := .naming "a.go" ⟨1, 1⟩ "no name" none
    let notices : List Notice := [.cancelled (.package "fmt"), .failed (.file "c.go") broken,
      .cancelled (.file "b.go"), ⟨.file "b.go", .ok⟩, .failed (.file "a.go") broken]
    let others : List Notice := [.failed (.file "a.go") broken, .cancelled (.file "b.go")]
    s.calls[0]? = some { CompileCall.start names with unsent := [] } ∧
      s.returned? 0 notices = some (.failed broken) ∧
      (s.tell 0 notices).map (·.shutdown.raised) = some true ∧
      (CompileCall.accepted names others).Perm (CompileCall.accepted names notices) ∧
      s.returned? 0 others ≠ some .ok := by
  intro names s broken notices others
  have asked : s.calls[0]? = some { CompileCall.start names with unsent := [] } := rfl
  have heard : CompileCall.accepted names notices =
      [.cancelled (.file "b.go"), .failed (.file "a.go") broken] := by decide +kernel
  have swapped : (CompileCall.accepted names others).Perm (CompileCall.accepted names notices) := by
    rw [heard]
    decide +kernel
  obtain ⟨ok, failed, raised, order⟩ := answer_of_notices asked notices
  rw [heard] at ok failed raised
  have bad : s.returned? 0 notices ≠ some .ok := mt ok.mp (by decide +kernel)
  exact ⟨asked, failed bad, raised, swapped, mt (order others (.inl swapped)).mp bad⟩

end State

end GoFront.Build
