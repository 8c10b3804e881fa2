/-!
Breadth-first search for a shortest path. The search keeps the nodes that it has met, for each of
them the node from which it came there first, and a queue of nodes whose successors it has not
looked at yet. When it meets the goal it goes back from node to node.
-/
namespace GoFront.Build

/-- The nodes to which edges lead, and the edges from each node. -/
structure Network (α : Type) where
  nodes : List α
  successors : α → List α
  within : ∀ node, ∀ next ∈ successors node, next ∈ nodes

structure Search (α : Type) where
  /-- The node from which each node was met. -/
  parents : List (α × α) := []
  seen : List α
  queue : List α

variable {α : Type} [DecidableEq α]

/-- Looks at the successors of a node, up to the goal if it is one of them. Whoever is new is
remembered with the node and waits in the queue. -/
def Search.meet (goal node : α) : List α → Search α → Bool × Search α
  | [], search => (false, search)
  | next :: rest, search =>
    if next ∈ search.seen then meet goal node rest search
    else
      let parents := (next, node) :: search.parents
      let seen := next :: search.seen
      if next = goal then (true, { search with parents, seen })
      else meet goal node rest ⟨parents, seen, search.queue ++ [next]⟩

/-- The parents of all nodes but one. -/
def forget (node : α) (parents : List (α × α)) : List (α × α) :=
  parents.filter fun entry => entry.1 ≠ node

theorem length_forget_lt {node parent : α} {parents : List (α × α)}
    (known : parents.lookup node = some parent) :
    (forget node parents).length < parents.length := by
  obtain ⟨before, after, rfl, _⟩ := List.lookup_eq_some_iff.mp known
  rw [forget, List.length_filter_lt_length_iff_exists]
  exact ⟨(node, parent), by simp, by simp⟩

/-- Goes back from a node to the start, with the path from that node on. No node is passed twice, so
its parent is not needed again. -/
def unwind (start : α) (parents : List (α × α)) (node : α) (path : List α) : List α :=
  match _ : parents.lookup node with
  | none => node :: path
  | some parent =>
    if parent = start then parent :: node :: path
    else unwind start (forget node parents) parent (node :: path)
termination_by parents.length
decreasing_by exact length_forget_lt ‹_›

namespace Network

def unmet (network : Network α) (seen : List α) : List α := network.nodes.filter (· ∉ seen)

theorem length_unmet_cons_lt {network : Network α} {next : α} {seen : List α}
    (isNode : next ∈ network.nodes) (new : next ∉ seen) :
    (network.unmet (next :: seen)).length < (network.unmet seen).length := by
  have fewer : network.unmet (next :: seen) = (network.unmet seen).filter (· ≠ next) := by
    simp [unmet, List.filter_filter, not_or]
  rw [fewer, List.length_filter_lt_length_iff_exists]
  exact ⟨next, by simp [unmet, isNode, new], by simp⟩

/-- Each node that is met for the first time comes to the queue once. -/
theorem length_meet_le {network : Network α} (goal node : α) {nexts : List α}
    (within : ∀ next ∈ nexts, next ∈ network.nodes) (search : Search α) :
    (network.unmet (search.meet goal node nexts).2.seen).length +
        (search.meet goal node nexts).2.queue.length ≤
      (network.unmet search.seen).length + search.queue.length := by
  induction nexts generalizing search with
  | nil => exact Nat.le_refl _
  | cons next rest ih =>
    have later := ih fun other member => within other (List.mem_cons_of_mem _ member)
    unfold Search.meet
    split
    · exact later search
    next new =>
      have fewer := length_unmet_cons_lt (within next List.mem_cons_self) new
      dsimp only
      split
      · dsimp only
        omega
      · refine Nat.le_trans (later _) ?_
        simp only [List.length_append, List.length_singleton]
        omega

/-- Searches on until the goal is met or the queue is empty. -/
def searchFrom (network : Network α) (start goal : α) (search : Search α) : Option (List α) :=
  match _ : search.queue with
  | [] => none
  | node :: rest =>
    match _ : Search.meet goal node (network.successors node) { search with queue := rest } with
    | (true, found) => some (unwind start found.parents goal [])
    | (false, next) => network.searchFrom start goal next
termination_by (network.unmet search.seen).length + search.queue.length
decreasing_by
  rename_i queued turned
  have shorter := length_meet_le goal node (network.within node) { search with queue := rest }
  simp only [turned, queued, List.length_cons] at shorter ⊢
  omega

/-- A shortest path along edges from `start` to `goal`, with both ends. A path back to the start
itself is not looked for. -/
def path (network : Network α) (start goal : α) : Option (List α) :=
  network.searchFrom start goal { seen := [start], queue := [start] }

end Network

end GoFront.Build
