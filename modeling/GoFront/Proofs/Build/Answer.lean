import GoFront.Proofs.Build.Unit
import Mathlib.Data.List.Nodup
import Mathlib.Data.List.Perm.Subperm

/-!
The answer of a call as a function of the notices that it has heard. Which files have failed does
not depend on the order of the notices, but which of two failures of one kind is returned does.
-/
namespace GoFront.Build.CompileCall

variable {failures : List Failure} {failure other : Failure}

/-- The failure that stays when failures come in this order: the first that does not only say that
work was cancelled, or else the first. -/
def keep (failures : List Failure) : Option Failure :=
  (failures.find? (!·.isCancelled)).or failures.head?

theorem keep_eq_none : keep failures = none ↔ failures = [] := by
  cases failures <;> simp [keep]

theorem mem_of_keep (kept : keep failures = some failure) : failure ∈ failures := by
  rcases Option.or_eq_some_iff.mp kept with found | ⟨_, first⟩
  · exact List.mem_of_find?_eq_some found
  · exact List.mem_of_head? first

theorem isCancelled_of_keep (kept : keep failures = some failure) :
    failure.isCancelled = failures.all (·.isCancelled) := by
  rcases Option.or_eq_some_iff.mp kept with found | ⟨none, first⟩
  · have real : failure.isCancelled = false := by simpa using List.find?_some found
    rw [real, eq_comm, List.all_eq_false]
    exact ⟨failure, List.mem_of_find?_eq_some found, by simp [real]⟩
  · have all : ∀ other ∈ failures, other.isCancelled = true := by simpa using none
    rw [all failure (List.mem_of_head? first), eq_comm]
    exact List.all_eq_true.mpr all

theorem prefer_keep (failures : List Failure) (next : Failure) :
    prefer (keep failures) next = keep (failures ++ [next]) := by
  cases found : failures.find? (!·.isCancelled) with
  | some first =>
    have real : first.isCancelled = false := by simpa using List.find?_some found
    simp [keep, prefer, List.find?_append, found, real]
  | none =>
    have kept : keep failures = failures.head? := by simp [keep, found]
    have later : keep (failures ++ [next]) =
        if next.isCancelled then failures.head?.or (some next) else some next := by
      cases real : next.isCancelled <;> simp [keep, List.find?_append, found, real]
    rw [kept, later]
    cases failures with
    | nil => simp [prefer]
    | cons first rest =>
      have cancelled : first.isCancelled = true := by
        simpa using List.find?_eq_none.mp found first List.mem_cons_self
      cases real : next.isCancelled <;> simp [prefer, cancelled, real]

/-- The failures among the notices, in order. -/
def failuresOf (heard : List Notice) : List Failure := heard.filterMap (·.outcome.failure?)

theorem mem_failuresOf {heard : List Notice} :
    failure ∈ failuresOf heard ↔ ∃ notice ∈ heard, notice.outcome = .failed failure := by
  simp only [failuresOf, List.mem_filterMap]
  refine exists_congr fun notice => and_congr_right fun _ => ?_
  cases notice.outcome <;> simp [Outcome.failure?]

/-- What a call returns that has heard these notices of its files. -/
def answer (heard : List Notice) : Outcome := .ofFailure? (keep (failuresOf heard))

theorem answer_eq_ok {heard : List Notice} : answer heard = .ok ↔ failuresOf heard = [] := by
  rw [← keep_eq_none, answer]
  cases keep (failuresOf heard) <;> simp [Outcome.ofFailure?]

theorem answer_eq_failed {heard : List Notice} :
    answer heard = .failed failure ↔ keep (failuresOf heard) = some failure := by
  rw [answer]
  cases keep (failuresOf heard) <;> simp [Outcome.ofFailure?]

theorem heard_of_answer {heard : List Notice} (bad : answer heard = .failed failure) :
    ∃ notice ∈ heard, notice.outcome = .failed failure :=
  mem_failuresOf.mp (mem_of_keep (answer_eq_failed.mp bad))

section
variable {heard reheard : List Notice} (perm : heard.Perm reheard)
include perm

/-- The order of the notices decides neither on success nor on the kind of the failure. -/
theorem answer_eq_ok_of_perm : answer heard = .ok ↔ answer reheard = .ok := by
  have failures : (failuresOf heard).Perm (failuresOf reheard) := perm.filterMap _
  rw [answer_eq_ok, answer_eq_ok, ← List.length_eq_zero_iff, failures.length_eq,
    List.length_eq_zero_iff]

theorem isCancelled_eq_of_perm (bad : answer heard = .failed failure)
    (badToo : answer reheard = .failed other) : failure.isCancelled = other.isCancelled := by
  have failures : (failuresOf heard).Perm (failuresOf reheard) := perm.filterMap _
  rw [answer_eq_failed] at bad badToo
  rw [isCancelled_of_keep bad, isCancelled_of_keep badToo]
  exact failures.all_eq

end

@[simp] theorem accept_unsent (call : CompileCall) (notice : Notice) :
    (call.accept notice).unsent = call.unsent := by
  have accepts := call.accept_accepts notice
  generalize call.accept notice = next at accepts
  cases accepts <;> rfl

/-- The call has heard these notices of its files, the oldest first: one for each file that it does
not wait for any more. -/
structure Heard (call : CompileCall) (files : List String) (heard : List Notice) : Prop where
  units : (heard.map Notice.unit ++ call.waiting.map UnitName.file).Perm (files.map UnitName.file)
  failure : call.failure = keep (failuresOf heard)
  result : call.result = if call.waiting = [] then some (.ofFailure? call.failure) else none

namespace Heard

variable {call next : CompileCall} {files : List String} {heard : List Notice} {notice : Notice}

theorem start (names : List String) :
    (CompileCall.start names).Heard (Names.distinct (names.map Path.normalize)) [] where
  units := by simp [CompileCall.start]
  failure := rfl
  result := rfl

theorem send (told : call.Heard files heard) (rest : List String) :
    { call with unsent := rest }.Heard files heard := { told with }

theorem blame_eq (told : call.Heard files heard) :
    call.blame notice.outcome = keep (failuresOf (heard ++ [notice])) := by
  cases outcome : notice.outcome with
  | ok => simp [blame, failuresOf, outcome, Outcome.failure?, told.failure]
  | failed next =>
    simp [blame, failuresOf, outcome, Outcome.failure?, told.failure, prefer_keep]

theorem nodup_waiting (told : call.Heard files heard) (unique : files.Nodup) :
    call.waiting.Nodup := by
  have named : (files.map UnitName.file).Nodup :=
    List.Nodup.map (fun _ _ => UnitName.file.inj) unique
  have whole := told.units.nodup_iff.mpr named
  exact List.Nodup.of_map _ (List.Nodup.of_append_right whole)

/-- A notice is heard if it is about a file that the call waits for. -/
theorem accept (told : call.Heard files heard) (unique : files.Nodup)
    (accepts : call.Accepts notice next) :
    next.Heard files
      (heard ++ if notice.unit ∈ call.waiting.map UnitName.file then [notice] else []) := by
  -- The file of the notice goes over from those awaited to those heard of.
  have moved : ∀ {name}, notice.unit = .file name → name ∈ call.waiting →
      ((heard ++ [notice]).map Notice.unit ++ (call.waiting.filter (· ≠ name)).map UnitName.file).Perm
        (files.map UnitName.file) := by
    intro name about awaited
    have erased : call.waiting.filter (· ≠ name) = call.waiting.erase name := by
      rw [(told.nodup_waiting unique).erase_eq_filter]
      exact List.filter_congr fun other _ => by simp [bne, beq_eq_decide]
    have taken := (List.perm_cons_erase awaited).map UnitName.file
    rw [List.map_append, List.append_assoc, List.map_singleton, about, List.singleton_append, erased]
    exact ((taken.symm.append_left _).trans told.units)
  cases accepts with
  | ignore unawaited =>
    have unheard : notice.unit ∉ call.waiting.map UnitName.file := by
      intro mem
      obtain ⟨name, awaited, about⟩ := List.mem_map.mp mem
      exact unawaited name about.symm awaited
    rw [if_neg unheard, List.append_nil]
    exact told
  | record about awaited more =>
    rw [if_pos (about ▸ List.mem_map_of_mem awaited)]
    refine ⟨moved about awaited, told.blame_eq, ?_⟩
    rw [if_neg more]
  | @finish name about awaited last =>
    have empty : call.waiting.filter (· ≠ name) = [] := by
      simpa [List.filter_eq_nil_iff] using last
    rw [if_pos (about ▸ List.mem_map_of_mem awaited)]
    exact ⟨empty ▸ moved about awaited, told.blame_eq, rfl⟩

/-- A call that is over has heard of all its files. -/
theorem of_result (told : call.Heard files heard) {outcome : Outcome}
    (ended : call.result = some outcome) :
    (heard.map Notice.unit).Perm (files.map UnitName.file) ∧
      outcome = answer heard := by
  rw [told.result] at ended
  split at ended
  · rename_i nothing
    have units := told.units
    rw [nothing, List.map_nil, List.append_nil] at units
    exact ⟨units, by rw [answer, ← told.failure, Option.some.inj ended]⟩
  · simp at ended

end Heard

/-- Notices about the same units that agree are the same in another order. -/
theorem heard_perm {units : List UnitName} {heard again : List Notice} (unique : units.Nodup)
    (told : (heard.map Notice.unit).Perm units) (retold : (again.map Notice.unit).Perm units)
    (agree : ∀ notice ∈ heard, ∀ other ∈ again, notice.unit = other.unit →
      notice.outcome = other.outcome) : heard.Perm again := by
  have within : ∀ notice ∈ heard, notice ∈ again := by
    intro notice member
    have about : notice.unit ∈ again.map Notice.unit :=
      (told.trans retold.symm).subset (List.mem_map_of_mem member)
    obtain ⟨other, heardAgain, same⟩ := List.mem_map.mp about
    have equal := agree notice member other heardAgain same.symm
    obtain ⟨unit, outcome⟩ := notice
    obtain ⟨otherUnit, otherOutcome⟩ := other
    obtain rfl : otherUnit = unit := same
    obtain rfl : outcome = otherOutcome := equal
    exact heardAgain
  have nodup : heard.Nodup := List.Nodup.of_map _ (told.nodup_iff.mpr unique)
  have length : again.length = heard.length := by
    simpa using (retold.trans told.symm).length_eq
  exact (List.subperm_of_subset nodup within).perm_of_length_le (Nat.le_of_eq length)

end GoFront.Build.CompileCall
