import GoFront.Build.Notice

/-!
Mailboxes with a bounded number of slots. A delivery never waits: when the slots are full the
notice is held outside by a courier of its own, who puts it into a slot once one is free.
-/
namespace GoFront.Build

structure Mailbox where
  depth : Nat
  /-- Notices ready to be received, the oldest first. -/
  slots : List Notice := []
  /-- Notices held by couriers. -/
  held : List Notice := []
  isClosed : Bool := false
  deriving Repr

namespace Mailbox

def capacity (box : Mailbox) : Nat := max box.depth 1

def hasRoom (box : Mailbox) : Bool := box.slots.length < box.capacity

/-- Delivers a notice without waiting; false if the receiver is gone. -/
def deliver (box : Mailbox) (notice : Notice) : Bool × Mailbox :=
  if box.isClosed then (false, box)
  else if box.hasRoom then (true, { box with slots := box.slots ++ [notice] })
  else (true, { box with held := box.held ++ [notice] })

/-- What becomes of a send that may wait for a slot. -/
inductive SendResult where
  | sent | blocked | refused
  deriving DecidableEq, Repr

/-- Sends a notice into a free slot; a send that finds none has to wait. -/
def send (box : Mailbox) (notice : Notice) : SendResult × Mailbox :=
  if box.isClosed then (.refused, box)
  else if box.hasRoom then (.sent, { box with slots := box.slots ++ [notice] })
  else (.blocked, box)

def receive? (box : Mailbox) : Option (Notice × Mailbox) :=
  match box.slots with
  | [] => none
  | notice :: rest => some (notice, { box with slots := rest })

/-- The courier with this number puts its notice into a free slot. -/
def admit? (box : Mailbox) (courier : Nat) : Option Mailbox :=
  match box.held[courier]? with
  | some notice =>
    if box.hasRoom then
      some { box with slots := box.slots ++ [notice], held := box.held.eraseIdx courier }
    else none
  | none => none

/-- Receives until nothing is left, the couriers' notices included. -/
def drain (box : Mailbox) : List Notice × Mailbox :=
  (box.slots ++ box.held, { box with slots := [], held := [] })

/-- The receiver goes away, and with it all notices. -/
def close (box : Mailbox) : Mailbox := { box with slots := [], held := [], isClosed := true }

end Mailbox

end GoFront.Build
