import GoFront.Proofs.Build.Talk
import Mathlib.Data.List.Count
import Mathlib.Data.List.Perm.Basic

/-!
Nothing is lost and nothing is doubled: every request that is sent leads to one notice. Until the
notice is read, its question is counted as owed, whether the request is on its way, the one who
asked is among the subscribers, or the notice itself is on its way.
-/
namespace GoFront.Build
open Function

theorem count_eraseIdx_add {α : Type} [BEq α] [LawfulBEq α] (items : List α) (index : Nat)
    (item : α) :
    (items.eraseIdx index).count item + (items[index]?.toList).count item = items.count item := by
  by_cases inside : index < items.length
  · have same := (List.getElem_cons_eraseIdx_perm inside).count_eq item
    rw [← same, List.count_cons, List.getElem?_eq_getElem inside, Option.toList_some,
      List.count_singleton]
  · have outside := Nat.not_lt.mp inside
    simp [List.eraseIdx_of_length_le outside, List.getElem?_eq_none outside]

namespace Audiences

variable {audiences next : Audiences} {deliveries : List Delivery}

theorem subscribers_update (audiences : Audiences) (changed unit : UnitName) (audience : Audience) :
    Audiences.subscribers (update audiences changed (some audience)) unit =
      if unit = changed then audience.subscribers else audiences.subscribers unit := by
  by_cases same : unit = changed <;> simp [Audiences.subscribers, same]

theorem count_announced (unit : UnitName) (outcome : Outcome) (subscribers : List Address)
    (question : Question) :
    ((subscribers.map fun address => (⟨address, unit, outcome⟩ : Delivery)).map
      Delivery.question).count question =
      if question.1 = unit then subscribers.count question.2 else 0 := by
  obtain ⟨other, address⟩ := question
  rw [List.map_map]
  by_cases same : other = unit
  · subst same
    have injective : Injective (fun address => (other, address) : Address → Question) :=
      fun _ _ equal => (Prod.mk.inj equal).2
    simpa [comp_def, Delivery.question] using
      List.count_map_of_injective subscribers _ injective address
  · rw [if_neg same, List.count_eq_zero]
    intro member
    obtain ⟨_, _, equal⟩ := List.mem_map.mp member
    exact same (Prod.mk.inj equal).1.symm

/-- Those who are told were waiting, and those who were waiting wait still or are told. -/
theorem Announces.balance (announces : Announces audiences deliveries next) (question : Question) :
    (deliveries.map Delivery.question).count question +
        (next.subscribers question.1).count question.2 =
      (audiences.subscribers question.1).count question.2 := by
  induction announces with
  | nil => simp
  | @cons audiences next changed before after deliveries more known change rest ih =>
    rw [List.map_append, List.count_append, Nat.add_assoc, ih, subscribers_update]
    cases change with
    | keep =>
      split
      · rename_i same
        simp [Audiences.subscribers, same, known]
      · simp
    | announce subscribers outcome =>
      rw [count_announced]
      split
      · rename_i same
        simp [Audiences.subscribers, same, known, Audience.subscribers]
      · simp

end Audiences

namespace State

variable {s next : State} {event : Event}

/-- A talk answers those who wait and the one who asks, each at most once; who is not answered is
among the subscribers. -/
theorem Talk.balance {deliveries : List Delivery} {audiences : Audiences}
    (talk : s.Talk event deliveries audiences) (question : Question) :
    (deliveries.map Delivery.question).count question +
        (audiences.subscribers question.1).count question.2 =
      (s.subscribers question.1).count question.2 + (s.handled event).toList.count question := by
  cases talk with
  | announce unasked announces =>
    rw [announces.balance, unasked]
    rfl
  | @subscribe unit address audience asked known =>
    obtain ⟨other, reader⟩ := question
    rw [asked, Audiences.subscribers_update]
    by_cases same : other = unit
    · subst same
      cases audience with
      | waiting subscribers =>
        simp [Audience.subscribe, Audience.subscribers, State.subscribers, Audiences.subscribers,
          known, List.count_singleton]
      | answered outcome =>
        simp [Audience.subscribe, Audience.subscribers, State.subscribers, Audiences.subscribers,
          known, Delivery.question, List.count_singleton]
    · have apart : unit ≠ other := fun equal => same equal.symm
      cases audience <;>
        simp [Audience.subscribe, same, apart, Delivery.question, State.subscribers]
  | @create unit address asked unknown running =>
    obtain ⟨other, reader⟩ := question
    rw [asked, Audiences.subscribers_update]
    by_cases same : other = unit
    · subst same
      simp [Audience.subscribers, State.subscribers, Audiences.subscribers, unknown,
        List.count_singleton]
    · have apart : unit ≠ other := fun equal => same equal.symm
      simp [same, apart, State.subscribers]
  | @refuse unit address asked unknown stopped =>
    simp [asked, Delivery.question, Notice.cancelled, Notice.failed, State.subscribers,
      Nat.add_comm]
  | reject rejects =>
    obtain ⟨read, _, _, _⟩ := rejects
    simp [handled, read, ImportRequest.question, Delivery.question, Notice.failed,
      State.subscribers, Nat.add_comm]

/-- The questions of the requests on their way. -/
def asked (s : State) : List Question :=
  s.requests.map CompileRequest.question ++ s.importRequests.map ImportRequest.question

/-- How often a question was asked and the answer not yet read. -/
def owed (s : State) (question : Question) : Nat :=
  s.asked.count question + (s.mail.map Delivery.question).count question +
    (s.subscribers question.1).count question.2

/-- The questions of the requests that were sent on the way from one state to the next. -/
def issued (s next : State) : List Question :=
  (next.requests.drop s.requests.length).map CompileRequest.question ++
    (next.importRequests.drop s.importRequests.length).map ImportRequest.question

theorem asked_of_erased {index : Nat} {request : CompileRequest}
    (read : s.requests[index]? = some request)
    (requests : next.requests = s.requests.eraseIdx index)
    (imports : next.importRequests = s.importRequests) (question : Question) :
    next.asked.count question + [request.question].count question =
      s.asked.count question + (s.issued next).count question := by
  have erased := count_eraseIdx_add (s.requests.map CompileRequest.question) index question
  rw [List.getElem?_map, read, List.eraseIdx_map] at erased
  have shorter : (s.requests.eraseIdx index).length ≤ s.requests.length := List.length_eraseIdx_le ..
  simp only [asked, issued, requests, imports, List.count_append, List.drop_length,
    List.drop_eq_nil_of_le shorter, List.map_nil, List.count_nil]
  simp only [Option.map_some, Option.toList_some] at erased
  omega

theorem asked_of_taken {request : ImportRequest} {rest : List ImportRequest}
    (read : s.importRequests = request :: rest) (requests : next.requests = s.requests)
    (imports : next.importRequests = rest) (question : Question) :
    next.asked.count question + [request.question].count question =
      s.asked.count question + (s.issued next).count question := by
  simp only [asked, issued, requests, imports, read, List.count_append, List.drop_length,
    List.length_cons, List.drop_eq_nil_of_le (Nat.le_succ rest.length), List.map_nil, List.map_cons,
    List.count_nil, List.count_cons]
  omega

/-- Requests are on their way from the event that sends them to the one in which they are
handled. -/
theorem Step.asked_eq (step : s.Step event next) (question : Question) :
    next.asked.count question + (s.handled event).toList.count question =
      s.asked.count question + (s.issued next).count question := by
  cases step with
  | send | start | ask =>
    simp only [asked, issued, handled, List.map_append, List.count_append, List.drop_left,
      List.drop_length, List.map_nil, List.count_nil, Option.toList_none]
    omega
  | @join index request _ read | @refuse index request read | @enlist index request read =>
    have asks : s.handled (.compile index) = some request.question := by simp [handled, read]
    rw [asks, Option.toList_some]
    exact asked_of_erased read (by rfl) (by rfl) question
  | @reject request rest _ _ read | @follow request rest _ read | @reuse request rest _ read
  | @turnAway request rest read | @search request rest read =>
    have asks : s.handled .resolve = some request.question := by simp [handled, read]
    rw [asks, Option.toList_some]
    exact asked_of_taken read (by rfl) (by rfl) question
  | _ => simp [asked, issued, handled]

/-- Who asks, and in which event. -/
inductive Issues (s : State) : Event → Question → Prop where
  | call {number : Nat} {call : CompileCall} {file : String} {rest : List String}
      (read : s.calls[number]? = some call) (unsent : call.unsent = file :: rest) :
      Issues s (.send number) (.file file, .call number)
  | task {file : String} {site : ImportSite} {rest : List ImportSite} {pending : List String}
      (known : s.tasks.get? file = some ⟨file, .resolving (site :: rest) pending⟩) :
      Issues s (.ask file) (.package site.package, .task file)
  | members (file : String) : Issues s .located (.file file, .members)

theorem Step.issues (step : s.Step event next) {question : Question}
    (member : question ∈ s.issued next) : s.Issues event question := by
  cases step with
  | send read unsent =>
    obtain rfl : question = _ := by simpa [issued] using member
    exact .call read unsent
  | ask known =>
    obtain rfl : question = _ := by simpa [issued] using member
    exact .task known
  | start =>
    obtain ⟨file, _, rfl⟩ : ∃ file, _ ∧ (UnitName.file file, Address.members) = question := by
      simpa [issued, CompileRequest.question] using member
    exact .members file
  | join | refuse | enlist =>
    simp [issued, List.drop_eq_nil_of_le, List.length_eraseIdx_le] at member
  | reject read | follow read | reuse read | turnAway read | search read =>
    simp [issued, read, List.drop_eq_nil_of_le] at member
  | _ => simp [issued] at member

/-- What is owed is what was owed and what has been asked since, less what has been read. -/
theorem Step.owed_eq (tidy : s.Tidy) (step : s.Step event next) (question : Question) :
    next.owed question + ((s.read? event).map Delivery.question).toList.count question =
      s.owed question + (s.issued next).count question := by
  obtain ⟨deliveries, talk, mail⟩ := step.talk tidy
  have answered : (deliveries.map Delivery.question).count question +
      (next.subscribers question.1).count question.2 = _ := talk.balance question
  have asked := step.asked_eq question
  have unread : ((s.unread event).map Delivery.question).count question +
      ((s.read? event).map Delivery.question).toList.count question =
      (s.mail.map Delivery.question).count question := by
    cases event with
    | receive index =>
      simp only [State.unread, read?]
      rw [← List.getElem?_map, ← List.eraseIdx_map]
      exact count_eraseIdx_add _ index question
    | _ => simp [State.unread, read?]
  simp only [owed, mail, List.map_append, List.count_append]
  omega

theorem Step.owed_of_unread (tidy : s.Tidy) (step : s.Step event next) (question : Question)
    (unread : ∀ delivery, s.read? event = some delivery → delivery.question ≠ question) :
    next.owed question = s.owed question + (s.issued next).count question := by
  have balance := step.owed_eq tidy question
  have nothing : ((s.read? event).map Delivery.question).toList.count question = 0 := by
    cases read : s.read? event with
    | none => rfl
    | some delivery => simpa [List.count_eq_zero] using Ne.symm (unread delivery read)
  omega

theorem Step.owed_of_read (tidy : s.Tidy) (step : s.Step event next) (delivery : Delivery)
    (read : s.read? event = some delivery) :
    next.owed delivery.question + 1 =
      s.owed delivery.question + (s.issued next).count delivery.question := by
  simpa [read] using step.owed_eq tidy delivery.question

theorem Step.owed_pos (tidy : s.Tidy) (step : s.Step event next) {question : Question}
    (owed : 0 < next.owed question) : 0 < s.owed question ∨ question ∈ s.issued next := by
  have balance := step.owed_eq tidy question
  rcases Nat.eq_zero_or_pos (s.owed question) with nothing | something
  · exact Or.inr (List.count_pos_iff.mp (by omega))
  · exact Or.inl something

theorem owed_initial (keepGoing : Bool) (question : Question) :
    State.owed { keepGoing } question = 0 := by
  obtain ⟨unit, address⟩ := question
  cases unit <;> simp [owed, asked, subscribers, Audiences.subscribers, audience?]

theorem owed_pos_of_mail {delivery : Delivery} (member : delivery ∈ s.mail) :
    0 < s.owed delivery.question := by
  have counted := List.count_pos_iff.mpr (List.mem_map_of_mem (f := Delivery.question) member)
  unfold owed
  omega

theorem owed_pos_of_importRequest {request : ImportRequest} (member : request ∈ s.importRequests) :
    0 < s.owed request.question := by
  have counted := List.count_pos_iff.mpr
    (List.mem_map_of_mem (f := ImportRequest.question) member)
  simp only [owed, asked, List.count_append]
  omega

/-- When nothing is on its way, who waits for an answer is a subscriber. -/
theorem Idle.mem_subscribers (idle : s.Idle) {question : Question} (owed : 0 < s.owed question) :
    question.2 ∈ s.subscribers question.1 := by
  have counted : 0 < (s.subscribers question.1).count question.2 := by
    simpa [State.owed, asked, idle.requests, idle.importRequests, idle.mail] using owed
  exact List.count_pos_iff.mp counted

end State

end GoFront.Build
