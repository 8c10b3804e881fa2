import GoFront.Proofs.Build.Answer
import GoFront.Proofs.Build.Replies

/-!
Calls for the same files in one run. They hear the same of each file, so they agree on success and
on whether the failure is one of the source; but the notices may come in another order, and where
several files have failed they need not return the same failure.
-/
namespace GoFront.Build

namespace State

variable {s next : State} {event : Event} {number : Nat} {call : CompileCall}

/-- What an event does to a call: it asks for a file, takes a notice, or nothing. -/
inductive CallMoves (s : State) (number : Nat) (call : CompileCall) : Event → CompileCall → Prop where
  | rest {event : Event} (still : event ≠ .send number) : CallMoves s number call event call
  | send {file : String} {rest : List String} (unsent : call.unsent = file :: rest) :
      CallMoves s number call (.send number) { call with unsent := rest }
  | accept {index : Nat} {notice : Notice} (read : s.mail[index]? = some ⟨.call number, notice⟩) :
      CallMoves s number call (.receive index) (call.accept notice)

theorem Step.callMoves (step : s.Step event next) (known : s.calls[number]? = some call) :
    ∃ after, next.calls[number]? = some after ∧ s.CallMoves number call event after := by
  have inside := (List.getElem?_eq_some_iff.mp known).1
  cases step with
  | call names => exact ⟨call, (List.getElem?_append_left inside).trans known, .rest (by simp)⟩
  | @send other changed file rest read unsent =>
    by_cases same : other = number
    · subst same
      obtain rfl := Option.some.inj (known.symm.trans read)
      exact ⟨_, List.getElem?_set_self inside, .send unsent⟩
    · exact ⟨call, (List.getElem?_set_ne same).trans known, .rest (by simpa using same)⟩
  | @accept index other notice changed read reader sent waiting =>
    by_cases same : other = number
    · subst same
      obtain rfl := Option.some.inj (known.symm.trans reader)
      exact ⟨_, List.getElem?_set_self inside, .accept read⟩
    · exact ⟨call, (List.getElem?_set_ne same).trans known, .rest (by simp)⟩
  | _ => exact ⟨call, known, .rest (by simp)⟩

end State

/-- Two files without a package name. -/
def twins : Frontend := .ofMemory [("a.go", "package\n"), ("b.go", "package\n")] []

/-- Two calls for both files. In the first the second file is done before the first; in the second
the files are told in the order in which they were asked for. -/
def twinsEvents : List Event :=
  [.call ["a.go", "b.go"], .send 0, .send 0, .compile 0, .compile 0, twins.perform (.parse "b.go"),
    .report, .receive 0, twins.perform (.parse "a.go"), .report, .receive 0,
    .call ["a.go", "b.go"], .send 1, .send 1, .compile 0, .compile 0, .receive 0, .receive 0]

/-- Two calls for the first file. -/
def twinEvents : List Event :=
  [.call ["a.go"], .send 0, .compile 0, twins.perform (.parse "a.go"), .report, .receive 0,
    .call ["a.go"], .send 1, .compile 0, .receive 0]

/-- How such a file ends. -/
def twinOutcome (file : String) : Outcome :=
  .failed (.grammar file ⟨2, 1⟩ "package name must be an identifier, found end of file" none)

/-- The event is the beginning of a call for these files. -/
def Event.begins (names : List String) : Event → Bool
  | .call others => others == names
  | _ => false

theorem Event.begins_iff {names : List String} {event : Event} :
    event.begins names = true ↔ event = .call names := by
  cases event <;> simp [Event.begins]

theorem obeys_twinsEvents : ∀ event ∈ twinsEvents, event.Obeys twins := by
  simp [twinsEvents, Event.Obeys, Frontend.perform]

theorem obeys_twinEvents : ∀ event ∈ twinEvents, event.Obeys twins := by
  simp [twinEvents, Event.Obeys, Frontend.perform]

namespace Run

variable {frontend : Frontend} {keepGoing : Bool} {trace : Trace} {s : State}

theorem posted_of_mail (run : Run frontend keepGoing trace s) :
    ∀ delivery ∈ s.mail, delivery ∈ trace.posted := by
  induction run with
  | start => simp
  | @step trace s next event earlier _ taken ih =>
    obtain ⟨deliveries, _, mail⟩ := (State.step_of_tidy earlier.tidy taken).talk earlier.tidy
    have posted : s.posted event = deliveries := by simp [State.posted, taken, mail]
    intro delivery member
    rw [mail, List.mem_append] at member
    rw [Trace.posted, List.flatMap_append, List.mem_append, List.flatMap_singleton]
    rcases member with old | new
    · refine Or.inl (ih delivery ?_)
      cases event with
      | receive index => exact List.mem_of_mem_eraseIdx old
      | _ => exact old
    · right
      rw [← posted] at new
      exact new

/-- Every notice about a file that is on its way stands. -/
theorem stands_of_mail (run : Run frontend keepGoing trace s) {delivery : Delivery} {file : String}
    (member : delivery ∈ s.mail) (about : delivery.notice.unit = .file file) :
    s.Stands delivery.notice :=
  run.stands (Trace.declares_of_file (run.posted_of_mail delivery member) about)

/-- What a call has heard of its files still stands. -/
theorem heard (run : Run frontend keepGoing trace s) {before : State} {names : List String}
    (begun : (before, .call names) ∈ trace) :
    ∃ call heard, s.calls[before.calls.length]? = some call ∧
      call.Heard (Names.distinct (names.map Path.normalize)) heard ∧
      ∀ notice ∈ heard, s.Stands notice := by
  induction run with
  | start => simp at begun
  | @step trace s next event earlier obeys taken ih =>
    have step := State.step_of_tidy earlier.tidy taken
    rcases List.mem_append.mp begun with old | new
    · obtain ⟨call, heard, known, told, stand⟩ := ih old
      have still : ∀ notice ∈ heard, next.Stands notice :=
        fun notice member => step.stands earlier.tidy (stand notice member)
      obtain ⟨after, there, moves⟩ := step.callMoves known
      refine ⟨after, ?_⟩
      cases moves with
      | rest => exact ⟨heard, there, told, still⟩
      | send => exact ⟨heard, there, told.send _, still⟩
      | @accept index notice read =>
        have added := told.accept (Names.nodup_distinct _) (call.accept_accepts notice)
        split at added
        · refine ⟨heard ++ [notice], there, added, ?_⟩
          intro other member
          rcases List.mem_append.mp member with before | now
          · exact still other before
          · obtain rfl := List.mem_singleton.mp now
            -- A notice that was added is about a file of the call.
            have named := added.units.subset (a := other.unit) (by simp)
            obtain ⟨file, _, about⟩ := List.mem_map.mp named
            have mailed := List.mem_of_getElem? read
            exact step.stands earlier.tidy (earlier.stands_of_mail mailed about.symm)
        · rw [List.append_nil] at added
          exact ⟨heard, there, added, still⟩
    · obtain ⟨rfl, rfl⟩ := Prod.mk.inj (List.mem_singleton.mp new)
      obtain rfl := Option.some.inj taken
      exact ⟨.start names, [], by simp, .start names, by simp⟩

/-- A call that has returned has heard of each of its files, and returns what it has kept. -/
theorem heard_of_result (run : Run frontend keepGoing trace s) {before : State}
    {names : List String} {call : CompileCall} {outcome : Outcome}
    (begun : (before, .call names) ∈ trace) (known : s.calls[before.calls.length]? = some call)
    (returned : call.result = some outcome) :
    ∃ heard : List Notice, (heard.map Notice.unit).Perm
        ((Names.distinct (names.map Path.normalize)).map UnitName.file) ∧
      (∀ notice ∈ heard, s.Stands notice) ∧
      outcome = CompileCall.answer heard := by
  obtain ⟨same, heard, read, told, stand⟩ := run.heard begun
  obtain rfl := Option.some.inj (known.symm.trans read)
  obtain ⟨units, answer⟩ := told.of_result returned
  exact ⟨heard, units, stand, answer⟩

/-- Calls for the same files have heard the same notices, but maybe in another order. -/
theorem heard_alike (run : Run frontend keepGoing trace s) {before later : State}
    {names : List String} {call again : CompileCall} {first second : Outcome}
    (begun : (before, .call names) ∈ trace) (known : s.calls[before.calls.length]? = some call)
    (returned : call.result = some first) (repeated : (later, .call names) ∈ trace)
    (knownToo : s.calls[later.calls.length]? = some again)
    (returnedToo : again.result = some second) :
    ∃ heard reheard : List Notice, heard.Perm reheard ∧
      (∀ notice ∈ heard, ∃ name ∈ names,
        s.Stands ⟨.file (Path.normalize name), notice.outcome⟩) ∧
      first = CompileCall.answer heard ∧ second = CompileCall.answer reheard := by
  obtain ⟨heard, units, stand, answer⟩ := run.heard_of_result begun known returned
  obtain ⟨reheard, unitsToo, standToo, answerToo⟩ :=
    run.heard_of_result repeated knownToo returnedToo
  have unique : ((Names.distinct (names.map Path.normalize)).map UnitName.file).Nodup :=
    List.Nodup.map (fun _ _ => UnitName.file.inj) (Names.nodup_distinct _)
  refine ⟨heard, reheard, ?_, ?_, answer, answerToo⟩
  · refine CompileCall.heard_perm unique units unitsToo ?_
    intro notice member other memberToo same
    exact (stand notice member).agree (standToo other memberToo) same
  · intro notice told
    obtain ⟨file, requested, about⟩ := List.mem_map.mp (units.subset (List.mem_map_of_mem told))
    rw [Names.mem_distinct, List.mem_map] at requested
    obtain ⟨name, isName, rfl⟩ := requested
    refine ⟨name, isName, ?_⟩
    rw [about]
    exact stand notice told

/-- Calls for the same files agree on success, and on whether their failure only says that work was
cancelled. Each returns a failure that stands for one of the files, so they return the same one if
no two different failures of one kind stand for files of the call. -/
theorem repeated_call (run : Run frontend keepGoing trace s) {before later : State}
    {names : List String} {call again : CompileCall} {first second : Outcome}
    (begun : (before, .call names) ∈ trace) (known : s.calls[before.calls.length]? = some call)
    (returned : call.result = some first) (repeated : (later, .call names) ∈ trace)
    (knownToo : s.calls[later.calls.length]? = some again)
    (returnedToo : again.result = some second) :
    (first = .ok ↔ second = .ok) ∧
    (∀ failure, first = .failed failure ∨ second = .failed failure →
      ∃ name ∈ names, s.Stands ⟨.file (Path.normalize name), .failed failure⟩) ∧
    (∀ failure other, first = .failed failure → second = .failed other →
      failure.isCancelled = other.isCancelled) ∧
    ((∀ name ∈ names, ∀ another ∈ names, ∀ failure other,
        s.Stands ⟨.file (Path.normalize name), .failed failure⟩ →
        s.Stands ⟨.file (Path.normalize another), .failed other⟩ →
        failure.isCancelled = other.isCancelled → failure = other) →
      first = second) := by
  obtain ⟨heard, reheard, perm, stands, rfl, rfl⟩ :=
    run.heard_alike begun known returned repeated knownToo returnedToo
  have agree := CompileCall.answer_eq_ok_of_perm perm
  have kept : ∀ failure, CompileCall.answer heard = .failed failure ∨
      CompileCall.answer reheard = .failed failure →
      ∃ name ∈ names, s.Stands ⟨.file (Path.normalize name), .failed failure⟩ := by
    rintro failure (bad | bad)
    · obtain ⟨notice, told, isBad⟩ := CompileCall.heard_of_answer bad
      exact isBad ▸ stands notice told
    · obtain ⟨notice, told, isBad⟩ := CompileCall.heard_of_answer bad
      exact isBad ▸ stands notice (perm.symm.subset told)
  refine ⟨agree, kept, fun _ _ => CompileCall.isCancelled_eq_of_perm perm, fun sole => ?_⟩
  cases bad : CompileCall.answer heard with
  | ok => exact (agree.mp bad).symm
  | failed failure =>
    cases badToo : CompileCall.answer reheard with
    | ok => simp [agree.mpr badToo] at bad
    | failed other =>
      obtain ⟨name, isName, here⟩ := kept failure (Or.inl bad)
      obtain ⟨another, isNameToo, there⟩ := kept other (Or.inr badToo)
      have kind := CompileCall.isCancelled_eq_of_perm perm bad badToo
      rw [sole name isName another isNameToo failure other here there kind]

theorem repeated_call_twin : ∃ more s outcome,
    Run twins false (({}, .call ["a.go"]) :: more) s ∧
    s.calls.map (·.result) = [some outcome, some outcome] := by
  have settles : State.settles {} twinEvents (fun trace s =>
      trace.any (fun entry => entry.2.begins ["a.go"] && entry.1.calls.length == 1) &&
        s.calls.map (·.result.isSome) == [true, true]) = true := by decide +kernel
  obtain ⟨more, s, run, _, check⟩ := Run.of_settles obeys_twinEvents settles
  simp only [Bool.and_eq_true, List.any_eq_true, beq_iff_eq] at check
  obtain ⟨⟨⟨later, event⟩, repeated, begins, second⟩, results⟩ := check
  obtain rfl := Event.begins_iff.mp begins
  simp only [List.map_eq_cons_iff, List.map_eq_nil_iff, Option.isSome_iff_exists] at results
  obtain ⟨call, _, calls, ⟨first, returned⟩, again, _, rfl, ⟨other, returnedToo⟩, rfl⟩ := results
  obtain ⟨_, _, _, same⟩ := repeated_call run List.mem_cons_self (by simp [calls]) returned
    repeated (by simp [calls, second]) returnedToo
  have equal : first = other := by
    refine same ?_
    intro name isName another isNameToo failure cause stands standsToo _
    obtain rfl := List.mem_singleton.mp isName
    obtain rfl := List.mem_singleton.mp isNameToo
    exact Outcome.failed.inj (stands.agree standsToo rfl)
  exact ⟨more, s, first, run, by simp [calls, returned, returnedToo, equal]⟩

/-- The failures may differ. Here the second call is the only other one and begins when the first
has returned, but it hears of the files in another order. -/
theorem repeated_call_differs : ∃ more s before first second,
    Run twins false (({}, .call ["a.go", "b.go"]) :: more) s ∧
    (before, .call ["a.go", "b.go"]) ∈ more ∧ before.calls.map (·.result) = [some first] ∧
    s.calls.map (·.result) = [some first, some second] ∧ first ≠ second := by
  have settles : State.settles {} twinsEvents (fun trace s =>
      trace.tail.any (fun entry => entry.2.begins ["a.go", "b.go"] &&
        entry.1.calls.map (·.result) == [some (twinOutcome "b.go")]) &&
      s.calls.map (·.result) == [some (twinOutcome "b.go"), some (twinOutcome "a.go")]) = true := by
    decide +kernel
  obtain ⟨more, s, run, _, check⟩ := Run.of_settles obeys_twinsEvents settles
  simp only [Bool.and_eq_true, List.any_eq_true, beq_iff_eq, List.tail_cons] at check
  obtain ⟨⟨⟨before, event⟩, repeated, begins, returned⟩, results⟩ := check
  obtain rfl := Event.begins_iff.mp begins
  exact ⟨more, s, before, _, _, run, repeated, returned, results, by decide⟩

end Run

end GoFront.Build
