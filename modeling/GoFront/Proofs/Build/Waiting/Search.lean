import Mathlib.Data.List.Chain
import Mathlib.Logic.Relation

/-!
A breadth-first search with whole paths in its queue. The nodes not seen yet are kept in a fixed
order; each step moves the successors of one node from there to the end of the queue, so the search
ends after as many steps as there are nodes. It is exact: what it finds is a path along edges
between the two ends, and it finds one whenever there is one and the nodes given to it include every
node that an edge leads to.
-/
namespace GoFront.Build
open Relation

/-- A node and the path that led to it, in reverse. -/
structure Trail (α : Type) where
  last : α
  before : List α
  deriving Repr

namespace Trail

variable {α : Type}

/-- All nodes of the trail from the first to the last. -/
def nodes (trail : Trail α) : List α := (trail.last :: trail.before).reverse

def extend (trail : Trail α) (next : α) : Trail α := ⟨next, trail.last :: trail.before⟩

end Trail

variable {α : Type}

/-- The nodes to which an edge leads from `node`. -/
def successors (edge : α → α → Bool) (node : α) (nodes : List α) : List α :=
  nodes.filter (edge node)

/-- The nodes to which no edge leads from `node`. -/
def others (edge : α → α → Bool) (node : α) (nodes : List α) : List α :=
  nodes.filter fun other => !edge node other

theorem length_successors_add_others (edge : α → α → Bool) (node : α) (nodes : List α) :
    (successors edge node nodes).length + (others edge node nodes).length = nodes.length := by
  induction nodes with
  | nil => rfl
  | cons first rest ih =>
    simp only [successors, others] at ih
    cases h : edge node first <;> simp [successors, others, h] <;> omega

/-- Searches on from the trails in the queue, where `unseen` are the nodes not met so far. -/
def searchFrom [BEq α] (edge : α → α → Bool) (goal : α) (unseen : List α)
    (queue : List (Trail α)) : Option (List α) :=
  match queue with
  | [] => none
  | trail :: rest =>
    let fresh := successors edge trail.last unseen
    if fresh.contains goal then some (trail.extend goal).nodes
    else
      searchFrom edge goal (others edge trail.last unseen) (rest ++ fresh.map trail.extend)
termination_by unseen.length + queue.length
decreasing_by
  have := length_successors_add_others edge trail.last unseen
  simp
  omega

/-- A shortest path along edges from `start` to `goal`, with both ends, through the given nodes. A
path back to the start itself is not looked for. -/
def shortestPath [BEq α] (edge : α → α → Bool) (nodes : List α) (start goal : α) :
    Option (List α) :=
  searchFrom edge goal (nodes.filter (· != start)) [⟨start, []⟩]

/-! ### Paths -/

variable {edge : α → α → Bool} {start goal : α}

/-- The nodes lead from `start` to `goal`, each to the next along an edge. -/
structure IsRoute (edge : α → α → Bool) (start goal : α) (path : List α) : Prop where
  starts : path.head? = some start
  ends : path.getLast? = some goal
  chain : path.IsChain fun a b => edge a b = true

namespace IsRoute

theorem ne_nil {path : List α} (route : IsRoute edge start goal path) : path ≠ [] := by
  intro empty
  simpa [empty] using route.starts

theorem reaches {path : List α} (route : IsRoute edge start goal path) :
    ReflTransGen (fun a b => edge a b = true) start goal := by
  have reached := List.relationReflTransGen_of_exists_isChain path route.chain route.ne_nil
  have first : path.head route.ne_nil = start := by
    simpa [List.head?_eq_some_head route.ne_nil] using route.starts
  have last : path.getLast route.ne_nil = goal := by
    simpa [List.getLast?_eq_some_getLast route.ne_nil] using route.ends
  rwa [first, last] at reached

end IsRoute

namespace Trail

theorem nodes_extend (trail : Trail α) (next : α) :
    (trail.extend next).nodes = trail.nodes ++ [next] := by
  simp [nodes, extend]

theorem getLast?_nodes (trail : Trail α) : trail.nodes.getLast? = some trail.last := by
  simp [nodes]

theorem isRoute_extend {trail : Trail α} {next : α}
    (route : IsRoute edge start trail.last trail.nodes) (leads : edge trail.last next = true) :
    IsRoute edge start next (trail.extend next).nodes := by
  rw [nodes_extend]
  refine ⟨?_, by simp, ?_⟩
  · rw [List.head?_append, route.starts]
    rfl
  · refine route.chain.append (.singleton next) ?_
    intro a last b first
    rw [getLast?_nodes, Option.mem_some_iff] at last
    obtain rfl : next = b := by simpa using first
    exact last ▸ leads

theorem nodup_extend {trail : Trail α} {next : α} (unique : trail.nodes.Nodup)
    (fresh : next ∉ trail.nodes) : (trail.extend next).nodes.Nodup := by
  rw [nodes_extend, List.nodup_append]
  refine ⟨unique, by simp, ?_⟩
  rintro node member other last rfl
  exact fresh (List.mem_singleton.mp last ▸ member)

end Trail

theorem mem_successors {node other : α} {nodes : List α} :
    other ∈ successors edge node nodes ↔ other ∈ nodes ∧ edge node other = true := by
  simp [successors]

variable [BEq α] [LawfulBEq α]

theorem searchFrom_isRoute {unseen : List α} {queue : List (Trail α)} {path : List α}
    (routes : ∀ trail ∈ queue, IsRoute edge start trail.last trail.nodes)
    (found : searchFrom edge goal unseen queue = some path) : IsRoute edge start goal path := by
  fun_induction searchFrom edge goal unseen queue with
  | case1 => simp at found
  | case2 unseen trail rest fresh hit =>
    obtain rfl := Option.some.inj found
    have leads : goal ∈ successors edge trail.last unseen := by simpa using hit
    exact Trail.isRoute_extend (routes trail List.mem_cons_self) (mem_successors.mp leads).2
  | case3 unseen trail rest fresh _ ih =>
    refine ih ?_ found
    intro next member
    rcases List.mem_append.mp member with old | new
    · exact routes next (List.mem_cons_of_mem _ old)
    · obtain ⟨node, isFresh, rfl⟩ := List.mem_map.mp new
      exact Trail.isRoute_extend (routes trail List.mem_cons_self) (mem_successors.mp isFresh).2

/-- The trails of a search run through nodes that have been seen, so they repeat none. -/
theorem searchFrom_nodup {unseen : List α} {queue : List (Trail α)} {path : List α}
    (seen : ∀ trail ∈ queue, trail.nodes.Nodup ∧ ∀ node ∈ trail.nodes, node ∉ unseen)
    (found : searchFrom edge goal unseen queue = some path) : path.Nodup := by
  fun_induction searchFrom edge goal unseen queue with
  | case1 => simp at found
  | case2 unseen trail rest fresh hit =>
    obtain rfl := Option.some.inj found
    obtain ⟨unique, seen⟩ := seen trail List.mem_cons_self
    have goalFresh : goal ∈ successors edge trail.last unseen := by simpa using hit
    exact Trail.nodup_extend unique fun member => seen goal member (mem_successors.mp goalFresh).1
  | case3 unseen trail rest fresh _ ih =>
    refine ih ?_ found
    have left : ∀ node ∈ others edge trail.last unseen, node ∈ unseen := by
      intro node member
      exact (List.mem_filter.mp member).1
    intro next member
    rcases List.mem_append.mp member with old | new
    · obtain ⟨unique, seen⟩ := seen next (List.mem_cons_of_mem _ old)
      exact ⟨unique, fun node on later => seen node on (left node later)⟩
    · obtain ⟨node, isFresh, rfl⟩ := List.mem_map.mp new
      obtain ⟨unique, seen⟩ := seen trail List.mem_cons_self
      obtain ⟨waiting, leads⟩ := mem_successors.mp isFresh
      refine ⟨Trail.nodup_extend unique fun again => seen node again waiting, ?_⟩
      intro other on later
      rw [Trail.nodes_extend, List.mem_append, List.mem_singleton] at on
      rcases on with before | rfl
      · exact seen other before (left other later)
      · simp [others, leads] at later

/-- A search that ends without a path has closed a set of nodes that the goal is not in. `seen`
are the nodes met so far, and those that are not in the queue any more have only seen
successors. -/
theorem searchFrom_closed {unseen : List α} {queue : List (Trail α)} {seen : α → Prop}
    (covered : ∀ a b, edge a b = true → b ∈ unseen ∨ seen b)
    (explored : ∀ a, seen a → (∃ trail ∈ queue, trail.last = a) ∨ ∀ b, edge a b = true → seen b)
    (missed : ¬ seen goal) (exhausted : searchFrom edge goal unseen queue = none) :
    ∃ closed : α → Prop, (∀ a, seen a → closed a) ∧ ¬ closed goal ∧
      ∀ a b, closed a → edge a b = true → closed b := by
  fun_induction searchFrom edge goal unseen queue generalizing seen with
  | case1 unseen =>
    refine ⟨seen, fun _ => id, missed, ?_⟩
    intro a b known leads
    rcases explored a known with ⟨_, member, _⟩ | done
    · simp at member
    · exact done b leads
  | case2 => simp at exhausted
  | case3 unseen trail rest fresh miss =>
    rename_i ih
    have notFresh : goal ∉ successors edge trail.last unseen := by simpa using miss
    have coveredNext : ∀ a b, edge a b = true → b ∈ others edge trail.last unseen ∨
        (seen b ∨ b ∈ successors edge trail.last unseen) := by
      intro a b leads
      rcases covered a b leads with waiting | known
      · by_cases next : edge trail.last b = true
        · exact Or.inr (Or.inr (mem_successors.mpr ⟨waiting, next⟩))
        · exact Or.inl (by simp [others, waiting, next])
      · exact Or.inr (Or.inl known)
    have exploredNext : ∀ a, (seen a ∨ a ∈ successors edge trail.last unseen) →
        (∃ other ∈ rest ++ fresh.map trail.extend, other.last = a) ∨
        ∀ b, edge a b = true → (seen b ∨ b ∈ successors edge trail.last unseen) := by
      rintro a (known | new)
      · rcases explored a known with ⟨other, member, rfl⟩ | done
        · rcases List.mem_cons.mp member with rfl | later
          · right
            intro b leads
            rcases covered _ b leads with waiting | known
            · exact Or.inr (mem_successors.mpr ⟨waiting, leads⟩)
            · exact Or.inl known
          · exact Or.inl ⟨other, List.mem_append_left _ later, rfl⟩
        · exact Or.inr fun b leads => Or.inl (done b leads)
      · have queued : trail.extend a ∈ fresh.map trail.extend := List.mem_map.mpr ⟨a, new, rfl⟩
        exact Or.inl ⟨trail.extend a, List.mem_append_right rest queued, rfl⟩
    obtain ⟨closed, keeps, avoids, stable⟩ := ih coveredNext exploredNext
      (by rintro (known | new) <;> contradiction) exhausted
    exact ⟨closed, fun a known => keeps a (Or.inl known), avoids, stable⟩

theorem shortestPath_isRoute {nodes path : List α}
    (found : shortestPath edge nodes start goal = some path) : IsRoute edge start goal path := by
  refine searchFrom_isRoute ?_ found
  intro trail member
  obtain rfl := List.mem_singleton.mp member
  exact ⟨rfl, rfl, .singleton start⟩

theorem shortestPath_nodup {nodes path : List α}
    (found : shortestPath edge nodes start goal = some path) : path.Nodup := by
  refine searchFrom_nodup ?_ found
  intro trail member
  obtain rfl := List.mem_singleton.mp member
  simp [Trail.nodes]

/-- The search fails only if there is no path. -/
theorem not_reaches_of_shortestPath_eq_none {nodes : List α} (distinct : start ≠ goal)
    (covered : ∀ a b, edge a b = true → b ∈ nodes)
    (exhausted : shortestPath edge nodes start goal = none) :
    ¬ ReflTransGen (fun a b => edge a b = true) start goal := by
  have coveredFirst : ∀ a b, edge a b = true → b ∈ nodes.filter (· != start) ∨ b = start := by
    intro a b leads
    by_cases back : b = start
    · exact Or.inr back
    · exact Or.inl (by simp [covered a b leads, back])
  have exploredFirst : ∀ a, a = start → (∃ trail ∈ [(⟨start, []⟩ : Trail α)], trail.last = a) ∨
      ∀ b, edge a b = true → b = start := by
    rintro a rfl
    exact Or.inl ⟨⟨a, []⟩, List.mem_singleton_self _, rfl⟩
  obtain ⟨closed, keeps, avoids, stable⟩ :=
    searchFrom_closed coveredFirst exploredFirst distinct.symm exhausted
  intro reached
  have inside : ∀ a, ReflTransGen (fun a b => edge a b = true) start a → closed a := by
    intro a path
    induction path with
    | refl => exact keeps start rfl
    | tail _ leads ih => exact stable _ _ ih leads
  exact avoids (inside goal reached)

end GoFront.Build
