import GoFront.Build.Mailbox
import Mathlib.Data.List.Perm.Basic
import Mathlib.Algebra.Order.Group.Multiset

/-!
What becomes of the notices that are put into a mailbox, whatever turns the parties around it take
and in whatever order. As long as the receiver is there, `turns_conserve` finds every notice in
exactly one place: received, in a slot, or with a courier.
-/
namespace GoFront.Build

namespace Mailbox

/-- What one party does at a mailbox. -/
inductive Turn where
  | deliver (notice : Notice)
  | send (notice : Notice)
  | receive
  /-- The courier with this number puts its notice into a slot. -/
  | carry (courier : Nat)
  | close
  deriving DecidableEq

/-- The notice that the turn puts into the mailbox. -/
def Turn.notice? : Turn → Option Notice
  | deliver notice | send notice => some notice
  | receive | carry _ | close => none

/-- The notices that the turn gives to the receiver, and the mailbox after it; nothing if the party
has to wait. -/
def take? (box : Mailbox) : Turn → Option (List Notice × Mailbox)
  | .deliver notice => some ([], (box.deliver notice).2)
  | .send notice =>
    match box.send notice with
    | (.sent, next) => some ([], next)
    | (.blocked, _) | (.refused, _) => none
  | .receive => box.receive?.map fun (notice, next) => ([notice], next)
  | .carry courier => (box.admit? courier).map fun next => ([], next)
  | .close => some ([], box.close)

/-- The notices that the turns give to the receiver one after the other, and the mailbox after the
last of them; nothing if one of the parties has to wait. -/
def takeAll? (box : Mailbox) : List Turn → Option (List Notice × Mailbox)
  | [] => some ([], box)
  | turn :: rest =>
    match box.take? turn with
    | none => none
    | some (received, next) => (next.takeAll? rest).map fun (later, last) => (received ++ later, last)

/-- The notices in the mailbox, those with couriers included. -/
def contents (box : Mailbox) : Multiset Notice := box.slots + box.held

/-- The slots hold no more notices than there are slots. -/
def Within (box : Mailbox) : Prop := box.slots.length ≤ box.capacity

/-! ### One turn -/

/-- All that a turn can do to a mailbox. -/
inductive Takes (box : Mailbox) : Turn → List Notice → Mailbox → Prop where
  | delivered {notice : Notice} (isOpen : box.isClosed = false)
      (room : box.slots.length < box.capacity) :
      Takes box (.deliver notice) [] { box with slots := box.slots ++ [notice] }
  | overflowed {notice : Notice} (isOpen : box.isClosed = false)
      (full : box.capacity ≤ box.slots.length) :
      Takes box (.deliver notice) [] { box with held := box.held ++ [notice] }
  | dropped {notice : Notice} (isClosed : box.isClosed = true) : Takes box (.deliver notice) [] box
  | sent {notice : Notice} (isOpen : box.isClosed = false)
      (room : box.slots.length < box.capacity) :
      Takes box (.send notice) [] { box with slots := box.slots ++ [notice] }
  | received {notice : Notice} {rest : List Notice} (inSlots : box.slots = notice :: rest) :
      Takes box .receive [notice] { box with slots := rest }
  | admitted {courier : Nat} {notice : Notice} (holds : box.held[courier]? = some notice)
      (room : box.slots.length < box.capacity) :
      Takes box (.carry courier) []
        { box with slots := box.slots ++ [notice], held := box.held.eraseIdx courier }
  | closed : Takes box .close [] box.close

section

variable {box next last : Mailbox} {turn : Turn} {turns : List Turn} {received : List Notice}

theorem hasRoom_iff : box.hasRoom ↔ box.slots.length < box.capacity := by
  simp [hasRoom]

theorem deliver_takes (box : Mailbox) (notice : Notice) :
    box.Takes (.deliver notice) [] (box.deliver notice).2 := by
  unfold deliver
  split
  next isClosed => exact .dropped isClosed
  next isOpen =>
    split
    next room => exact .delivered (by simpa using isOpen) (hasRoom_iff.mp room)
    next full => exact .overflowed (by simpa using isOpen) (not_lt.mp (mt hasRoom_iff.mpr full))

theorem takes_of_take? (taken : box.take? turn = some (received, next)) :
    box.Takes turn received next := by
  cases turn with
  | deliver notice =>
    obtain ⟨rfl, rfl⟩ := Prod.mk.inj (Option.some.inj taken)
    exact deliver_takes box notice
  | send notice =>
    simp only [take?, send] at taken
    split at taken
    next next' isSent =>
      obtain ⟨rfl, rfl⟩ := Prod.mk.inj (Option.some.inj taken)
      split at isSent
      · simp at isSent
      next isOpen =>
        split at isSent
        next room =>
          obtain rfl := (Prod.mk.inj isSent).2
          exact .sent (by simpa using isOpen) (hasRoom_iff.mp room)
        · simp at isSent
    all_goals simp at taken
  | receive =>
    simp only [take?, receive?] at taken
    split at taken
    · simp at taken
    next notice rest inSlots =>
      obtain ⟨rfl, rfl⟩ := Prod.mk.inj (Option.some.inj taken)
      exact .received inSlots
  | carry courier =>
    obtain ⟨after, admitted, same⟩ := Option.map_eq_some_iff.mp taken
    obtain ⟨rfl, rfl⟩ := Prod.mk.inj same
    unfold admit? at admitted
    split at admitted
    next notice holds =>
      split at admitted
      next room =>
        obtain rfl := Option.some.inj admitted
        exact .admitted holds (hasRoom_iff.mp room)
      · simp at admitted
    · simp at admitted
  | close =>
    obtain ⟨rfl, rfl⟩ := Prod.mk.inj (Option.some.inj taken)
    exact .closed

theorem Takes.depth_eq (takes : box.Takes turn received next) : next.depth = box.depth := by
  cases takes <;> rfl

theorem Takes.isClosed_eq (takes : box.Takes turn received next) :
    next.isClosed = (box.isClosed || decide (turn = .close)) := by
  cases takes <;> simp [close]

theorem Takes.within (takes : box.Takes turn received next) (within : box.Within) :
    next.Within := by
  unfold Within capacity at *
  cases takes with
  | delivered _ room | sent _ room | admitted _ room =>
    rw [List.length_append, List.length_singleton]
    exact room
  | overflowed | dropped => exact within
  | received inSlots =>
    rw [inSlots, List.length_cons] at within
    exact Nat.le_of_succ_le within
  | closed => exact Nat.zero_le _

/-- A turn moves notices but neither makes nor loses one, unless the receiver has gone. -/
theorem Takes.contents_eq (takes : box.Takes turn received next) (isOpen : next.isClosed = false) :
    (received : Multiset Notice) + next.contents = box.contents + turn.notice?.toList := by
  unfold contents
  cases takes with
  | delivered | sent =>
    show (0 : Multiset Notice) + _ = _
    rw [zero_add, ← Multiset.coe_add, add_right_comm]
    rfl
  | overflowed =>
    show (0 : Multiset Notice) + _ = _
    rw [zero_add, ← Multiset.coe_add, ← add_assoc]
    rfl
  | dropped isClosed => exact absurd isOpen (by simp [isClosed])
  | @received notice rest inSlots =>
    rw [inSlots, ← List.singleton_append, ← Multiset.coe_add, add_assoc]
    exact (add_zero _).symm
  | @admitted courier notice holds =>
    obtain ⟨inside, isNotice⟩ := List.getElem?_eq_some_iff.mp holds
    have kept : ([notice] : Multiset Notice) + box.held.eraseIdx courier = box.held := by
      rw [Multiset.coe_add, Multiset.coe_eq_coe, List.singleton_append, ← isNotice]
      exact List.getElem_cons_eraseIdx_perm inside
    rw [← Multiset.coe_add, add_assoc, kept]
    exact (zero_add _).trans (add_zero _).symm
  | closed => exact absurd isOpen (by simp [close])

/-! ### Turns one after the other -/

theorem takeAll?_cons {rest : List Turn}
    (taken : box.takeAll? (turn :: rest) = some (received, last)) :
    ∃ first next later, box.take? turn = some (first, next) ∧
      next.takeAll? rest = some (later, last) ∧ received = first ++ later := by
  unfold takeAll? at taken
  split at taken
  · simp at taken
  next first next now =>
    obtain ⟨⟨later, final⟩, after, same⟩ := Option.map_eq_some_iff.mp taken
    obtain ⟨rfl, rfl⟩ := Prod.mk.inj same
    exact ⟨first, next, later, now, after, rfl⟩

theorem takeAll?_within (taken : box.takeAll? turns = some (received, last))
    (within : box.Within) : last.Within ∧ last.depth = box.depth := by
  induction turns generalizing box received with
  | nil =>
    obtain ⟨rfl, rfl⟩ := Prod.mk.inj (Option.some.inj taken)
    exact ⟨within, rfl⟩
  | cons turn rest ih =>
    obtain ⟨first, next, later, now, after, -⟩ := takeAll?_cons taken
    have takes := takes_of_take? now
    obtain ⟨stays, sameDepth⟩ := ih after (takes.within within)
    exact ⟨stays, sameDepth.trans takes.depth_eq⟩

theorem takeAll?_isClosed (taken : box.takeAll? turns = some (received, last)) :
    last.isClosed ↔ box.isClosed ∨ .close ∈ turns := by
  induction turns generalizing box received with
  | nil =>
    obtain ⟨rfl, rfl⟩ := Prod.mk.inj (Option.some.inj taken)
    simp
  | cons turn rest ih =>
    obtain ⟨first, next, later, now, after, -⟩ := takeAll?_cons taken
    rw [ih after, (takes_of_take? now).isClosed_eq, List.mem_cons, Bool.or_eq_true,
      decide_eq_true_iff, or_assoc, eq_comm (a := turn)]

/-- The notices that the turns put into the mailbox. -/
def handed (turns : List Turn) : List Notice := turns.filterMap Turn.notice?

theorem takeAll?_contents (taken : box.takeAll? turns = some (received, last))
    (isOpen : last.isClosed = false) :
    (received : Multiset Notice) + last.contents = box.contents + handed turns := by
  induction turns generalizing box received with
  | nil =>
    obtain ⟨rfl, rfl⟩ := Prod.mk.inj (Option.some.inj taken)
    exact add_comm _ _
  | cons turn rest ih =>
    obtain ⟨first, next, later, now, after, rfl⟩ := takeAll?_cons taken
    have stillOpen : next.isClosed = false := by
      rw [← Bool.not_eq_true] at isOpen ⊢
      exact fun isClosed => isOpen ((takeAll?_isClosed after).mpr (.inl isClosed))
    have split : handed (turn :: rest) = turn.notice?.toList ++ handed rest := by
      unfold handed
      cases turn <;> rfl
    calc ((first ++ later : List Notice) : Multiset Notice) + last.contents
        = first + (later + last.contents) := by rw [← Multiset.coe_add, add_assoc]
      _ = first + next.contents + handed rest := by rw [ih after, add_assoc]
      _ = box.contents + turn.notice?.toList + handed rest := by
        rw [(takes_of_take? now).contents_eq stillOpen]
      _ = box.contents + handed (turn :: rest) := by
        rw [split, ← Multiset.coe_add, add_assoc]

/-! ### What can still be received -/

theorem takeAll?_of_take? {rest : List Turn} {first later : List Notice}
    (taken : box.take? turn = some (first, next)) (after : next.takeAll? rest = some (later, last)) :
    box.takeAll? (turn :: rest) = some (first ++ later, last) := by
  simp [takeAll?, taken, after]

theorem takeAll?_append {more : List Turn} {later : List Notice} {final : Mailbox}
    (taken : box.takeAll? turns = some (received, last))
    (after : last.takeAll? more = some (later, final)) :
    box.takeAll? (turns ++ more) = some (received ++ later, final) := by
  induction turns generalizing box received with
  | nil =>
    obtain ⟨rfl, rfl⟩ := Prod.mk.inj (Option.some.inj taken)
    exact after
  | cons turn rest ih =>
    obtain ⟨first, next, middle, now, tail, rfl⟩ := takeAll?_cons taken
    rw [List.append_assoc]
    exact takeAll?_of_take? now (ih tail)

/-- The receiver takes what is in the slots. -/
theorem receive_slots (box : Mailbox) :
    box.takeAll? (List.replicate box.slots.length .receive) =
      some (box.slots, { box with slots := [] }) := by
  obtain ⟨depth, slots, held, isClosed⟩ := box
  induction slots with
  | nil => rfl
  | cons notice rest ih =>
    have received : (⟨depth, notice :: rest, held, isClosed⟩ : Mailbox).take? .receive =
        some ([notice], ⟨depth, rest, held, isClosed⟩) := rfl
    exact takeAll?_of_take? received ih

/-- Each courier in turn finds the slot free that the receiver has just emptied. -/
theorem receive_held (box : Mailbox) (empty : box.slots = []) :
    box.takeAll? (box.held.flatMap fun _ => [.carry 0, .receive]) =
      some (box.held, { box with held := [] }) := by
  obtain ⟨depth, slots, held, isClosed⟩ := box
  obtain rfl : slots = [] := empty
  induction held with
  | nil => rfl
  | cons notice rest ih =>
    have room : (⟨depth, [], notice :: rest, isClosed⟩ : Mailbox).hasRoom :=
      hasRoom_iff.mpr (Nat.lt_of_lt_of_le Nat.zero_lt_one (Nat.le_max_right depth 1))
    have admitted : (⟨depth, [], notice :: rest, isClosed⟩ : Mailbox).take? (.carry 0) =
        some ([], ⟨depth, [notice], rest, isClosed⟩) := by
      simp [take?, admit?, room]
    have received : (⟨depth, [notice], rest, isClosed⟩ : Mailbox).take? .receive =
        some ([notice], ⟨depth, [], rest, isClosed⟩) := rfl
    exact takeAll?_of_take? admitted (takeAll?_of_take? received ih)

/-- The receiver and the couriers alone can empty the mailbox. -/
theorem takeAll?_drain (box : Mailbox) :
    ∃ more, (∀ turn ∈ more, turn = .receive ∨ ∃ courier, turn = .carry courier) ∧
      box.takeAll? more = some box.drain := by
  have held := receive_held { box with slots := [] } rfl
  refine ⟨_, ?_, takeAll?_append (receive_slots box) held⟩
  intro turn mem
  rcases List.mem_append.mp mem with first | second
  · exact .inl (List.eq_of_mem_replicate first)
  · obtain ⟨_, -, mem⟩ := List.mem_flatMap.mp second
    rcases List.mem_pair.mp mem with rfl | rfl
    · exact .inr ⟨0, rfl⟩
    · exact .inl rfl

end

theorem deliver_eq_false_iff (box : Mailbox) (notice : Notice) :
    (box.deliver notice).1 = false ↔ box.isClosed := by
  unfold deliver
  split
  next isClosed => simp [isClosed]
  next isOpen => split <;> simp [isOpen]

/-- Whatever the depth and the turns: as long as the receiver has not left, the notices received,
those in the slots and those with couriers are together what was delivered and sent, and the
receiver and the couriers alone can bring the rest over. There are never more notices in the slots
than the depth allows. A delivery never has to wait, and it is refused only if the receiver has
left. -/
theorem turns_conserve (depth : Nat) (turns : List Turn) {received : List Notice}
    {box : Mailbox} (taken : ({ depth } : Mailbox).takeAll? turns = some (received, box)) :
    (.close ∉ turns →
      (received : Multiset Notice) + box.slots + box.held = handed turns ∧
      ∃ more, (∀ turn ∈ more, turn = .receive ∨ ∃ courier, turn = .carry courier) ∧
        box.takeAll? more = some box.drain) ∧
    box.slots.length ≤ max depth 1 ∧
    ∀ notice, ∃ answer next, box.deliver notice = (answer, next) ∧
      box.take? (.deliver notice) = some ([], next) ∧ (answer = false ↔ .close ∈ turns) := by
  have isClosed : box.isClosed ↔ .close ∈ turns := by
    simpa using takeAll?_isClosed taken
  obtain ⟨within, sameDepth⟩ := takeAll?_within taken (Nat.zero_le _)
  refine ⟨fun stays => ⟨?_, takeAll?_drain box⟩, ?_, fun notice => ?_⟩
  · have isOpen : box.isClosed = false := Bool.not_eq_true _ ▸ mt isClosed.mp stays
    have kept := takeAll?_contents taken isOpen
    unfold contents at kept
    rw [add_assoc, kept]
    exact zero_add _
  · have bound : box.slots.length ≤ max box.depth 1 := within
    rwa [sameDepth] at bound
  · exact ⟨_, _, rfl, rfl, (deliver_eq_false_iff box notice).trans isClosed⟩

/-- A mailbox of depth zero has one slot; the later of two couriers may be the first to find it
free. -/
theorem turns_conserve_depth_zero :
    let a : Notice := ⟨.file "a", .ok⟩
    let b : Notice := ⟨.file "b", .ok⟩
    let c : Notice := ⟨.file "c", .ok⟩
    let turns : List Turn := [.deliver a, .deliver b, .deliver c, .receive, .carry 1, .receive]
    ∃ received box, ({ depth := 0 } : Mailbox).takeAll? turns = some (received, box) ∧
      received = [a, c] ∧ box.held = [b] ∧
      (received : Multiset Notice) + box.slots + box.held = ([a, b, c] : List Notice) ∧
      box.slots.length ≤ 1 := by
  intro a b c turns
  have taken : ({ depth := 0 } : Mailbox).takeAll? turns =
      some ([a, c], { depth := 0, held := [b] }) := rfl
  obtain ⟨kept, bound, -⟩ := turns_conserve 0 turns taken
  exact ⟨_, _, taken, rfl, rfl, (kept (by decide)).1, bound⟩

end Mailbox

end GoFront.Build
