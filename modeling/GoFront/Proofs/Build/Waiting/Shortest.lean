import GoFront.Proofs.Build.Waiting.Acyclic

/-!
The breadth-first search finds a shortest path. Its queue is in the order of the lengths of the
trails, and on every path to the goal stands the end of a trail that came there no later than the
path; so when a trail reaches the goal, no path is shorter. Every turn of the search takes a node
from the queue for good, so there are no more turns than nodes.
-/
namespace GoFront.Build
open Relation

section
variable {α : Type} {edge : α → α → Bool} {start goal : α}

theorem exists_last_split {property : α → Prop} {items : List α}
    (some : ∃ item ∈ items, property item) : ∃ front item back,
      items = front ++ item :: back ∧ property item ∧ ∀ other ∈ back, ¬ property other := by
  induction items with
  | nil => simp at some
  | cons first rest ih =>
    by_cases later : ∃ item ∈ rest, property item
    · obtain ⟨front, item, back, rfl, holds, last⟩ := ih later
      exact ⟨first :: front, item, back, rfl, holds, last⟩
    · obtain ⟨item, member, holds⟩ := some
      rcases List.mem_cons.mp member with rfl | behind
      · exact ⟨[], item, rest, rfl, holds, fun other mem it => later ⟨other, mem, it⟩⟩
      · exact absurd ⟨item, behind, holds⟩ later

/-- Each node of a chain but the first is the target of an edge. -/
theorem exists_edge_of_mem {r : α → α → Prop} {first node : α} {rest : List α}
    (chain : (first :: rest).IsChain r) (member : node ∈ rest) : ∃ other, r other node := by
  induction rest generalizing first with
  | nil => simp at member
  | cons second rest ih =>
    obtain ⟨leads, chain⟩ := List.isChain_cons_cons.mp chain
    rcases List.mem_cons.mp member with rfl | later
    · exact ⟨first, leads⟩
    · exact ih chain later

theorem mem_others {node other : α} {nodes : List α} :
    other ∈ others edge node nodes ↔ other ∈ nodes ∧ other ∉ successors edge node nodes := by
  simp only [others, successors, List.mem_filter]
  cases edge node other <;> simp

/-! ### The queue -/

theorem Trail.length_before_extend (trail : Trail α) (next : α) :
    (trail.extend next).before.length = trail.before.length + 1 := rfl

theorem Trail.length_nodes (trail : Trail α) : trail.nodes.length = trail.before.length + 1 := by
  simp [nodes]

/-- No trail is shorter than one in front of it, nor longer by more than one node. -/
def InOrder (queue : List (Trail α)) : Prop :=
  queue.Pairwise fun a b =>
    a.before.length ≤ b.before.length ∧ b.before.length ≤ a.before.length + 1

theorem InOrder.first_le {trail other : Trail α} {rest : List (Trail α)}
    (ordered : InOrder (trail :: rest)) (queued : other ∈ trail :: rest) :
    trail.before.length ≤ other.before.length := by
  rcases List.mem_cons.mp queued with rfl | later
  · exact Nat.le_refl _
  · exact ((List.pairwise_cons.mp ordered).1 other later).1

theorem InOrder.turn {trail : Trail α} {rest : List (Trail α)} (ordered : InOrder (trail :: rest))
    (fresh : List α) : InOrder (rest ++ fresh.map trail.extend) := by
  obtain ⟨first, ordered⟩ := List.pairwise_cons.mp ordered
  refine List.pairwise_append.mpr ⟨ordered, ?_, ?_⟩
  · exact List.pairwise_map.mpr (List.pairwise_of_forall fun _ _ => ⟨Nat.le_refl _, Nat.le_succ _⟩)
  · intro old isOld new isNew
    obtain ⟨node, _, rfl⟩ := List.mem_map.mp isNew
    have bounds := first old isOld
    rw [Trail.length_before_extend]
    omega

/-- A trail of the queue has come to a node of the path no later than the path itself. Behind that
node the path runs through unseen nodes only. -/
def Meets (unseen : List α) (queue : List (Trail α)) (path : List α) : Prop :=
  ∃ trail ∈ queue, ∃ front back, path = front ++ trail.last :: back ∧
    trail.before.length ≤ front.length ∧ ∀ node ∈ back, node ∈ unseen

variable {unseen path : List α} {trail : Trail α} {rest : List (Trail α)}

/-- Behind the node where a trail meets a path to the goal the path goes on. -/
theorem ne_nil_of_ends {front back : List α} {last : α}
    (ends : (front ++ last :: back).getLast? = some goal) (unmet : last ≠ goal) : back ≠ [] := by
  rintro rfl
  exact unmet (by simpa using ends)

theorem Meets.turn (meets : Meets unseen (trail :: rest) path)
    (ordered : InOrder (trail :: rest)) (chain : path.IsChain fun a b => edge a b = true)
    (ends : path.getLast? = some goal) (unmet : trail.last ≠ goal) :
    Meets (others edge trail.last unseen)
      (rest ++ (successors edge trail.last unseen).map trail.extend) path := by
  obtain ⟨hit, queued, front, back, rfl, early, ahead⟩ := meets
  by_cases touched : ∃ node ∈ back, node ∈ successors edge trail.last unseen
  · -- The trail that was taken comes to the last of the nodes that it finds on the path.
    obtain ⟨mid, node, back, rfl, fresh, untouched⟩ := exists_last_split touched
    have first := ordered.first_le queued
    refine ⟨trail.extend node, List.mem_append_right _ (List.mem_map_of_mem fresh),
      front ++ hit.last :: mid, back, by simp [Trail.extend], ?_, fun other member => ?_⟩
    · rw [Trail.length_before_extend, List.length_append, List.length_cons]
      omega
    · exact mem_others.mpr ⟨ahead other (by simp [member]), untouched other member⟩
  · have away : ∀ node ∈ back, node ∈ others edge trail.last unseen := fun node member =>
      mem_others.mpr ⟨ahead node member, fun fresh => touched ⟨node, member, fresh⟩⟩
    rcases List.mem_cons.mp queued with rfl | later
    · -- The next node of the path is a successor of the trail that was taken.
      obtain ⟨next, others, rfl⟩ := List.exists_cons_of_ne_nil (ne_nil_of_ends ends unmet)
      have leads : edge hit.last next = true :=
        (List.isChain_cons_cons.mp (List.isChain_append.mp chain).2.1).1
      have fresh := mem_successors.mpr ⟨ahead next List.mem_cons_self, leads⟩
      exact absurd ⟨next, List.mem_cons_self, fresh⟩ touched
    · exact ⟨hit, List.mem_append_left _ later, front, back, rfl, early, away⟩

variable [BEq α] [LawfulBEq α]

/-- What the search finds is not longer than any path to the goal that it meets. -/
theorem searchFrom_shortest {queue : List (Trail α)} {found : List α}
    (ordered : InOrder queue) (unmet : ∀ trail ∈ queue, trail.last ≠ goal)
    (meets : Meets unseen queue path) (chain : path.IsChain fun a b => edge a b = true)
    (ends : path.getLast? = some goal)
    (success : searchFrom edge goal unseen queue = some found) : found.length ≤ path.length := by
  fun_induction searchFrom edge goal unseen queue with
  | case1 => simp at success
  | case2 unseen trail rest fresh hit =>
    obtain rfl := Option.some.inj success
    obtain ⟨other, queued, front, back, rfl, early, _⟩ := meets
    have goesOn := List.length_pos_of_ne_nil (ne_nil_of_ends ends (unmet other queued))
    have first := ordered.first_le queued
    rw [Trail.length_nodes, Trail.length_before_extend, List.length_append, List.length_cons]
    omega
  | case3 unseen trail rest fresh miss ih =>
    have notFresh : goal ∉ fresh := by simpa using miss
    refine ih (ordered.turn fresh) ?_
      (meets.turn ordered chain ends (unmet trail List.mem_cons_self)) success
    intro next member
    rcases List.mem_append.mp member with old | new
    · exact unmet next (List.mem_cons_of_mem _ old)
    · obtain ⟨node, isFresh, rfl⟩ := List.mem_map.mp new
      exact ne_of_mem_of_not_mem isFresh notFresh

theorem shortestPath_shortest {nodes found : List α} (distinct : start ≠ goal)
    (covered : ∀ a b, edge a b = true → b ∈ nodes)
    (success : shortestPath edge nodes start goal = some found)
    (route : IsRoute edge start goal path) : found.length ≤ path.length := by
  obtain ⟨starts, ends, chain⟩ := route
  obtain ⟨front, node, back, rfl, rfl, away⟩ :=
    @exists_last_split _ (· = start) path ⟨start, List.mem_of_head? starts, rfl⟩
  have meets : Meets (nodes.filter (· != node)) [⟨node, []⟩] (front ++ node :: back) := by
    refine ⟨_, List.mem_singleton_self _, front, back, rfl, Nat.zero_le _, fun other member => ?_⟩
    obtain ⟨before, leads⟩ := exists_edge_of_mem (List.isChain_append.mp chain).2.1 member
    simpa using ⟨covered before other leads, away other member⟩
  exact searchFrom_shortest (List.pairwise_singleton _ _)
    (by simpa using distinct) meets chain ends success

/-! ### Turns -/

/-- A search comes to this result after so many turns, in each of which it takes one trail from the
queue. -/
inductive Ends (edge : α → α → Bool) (goal : α) :
    List α → List (Trail α) → Nat → Option (List α) → Prop where
  | exhausted (unseen : List α) : Ends edge goal unseen [] 0 none
  | hit {unseen : List α} {trail : Trail α} (rest : List (Trail α))
      (fresh : goal ∈ successors edge trail.last unseen) :
      Ends edge goal unseen (trail :: rest) 1 (some (trail.extend goal).nodes)
  | next {unseen : List α} {trail : Trail α} {rest : List (Trail α)} {turns : Nat}
      {result : Option (List α)} (miss : goal ∉ successors edge trail.last unseen)
      (later : Ends edge goal (others edge trail.last unseen)
        (rest ++ (successors edge trail.last unseen).map trail.extend) turns result) :
      Ends edge goal unseen (trail :: rest) (turns + 1) result

/-- The search ends before it has taken more trails than there are nodes left. -/
theorem searchFrom_ends (unseen : List α) (queue : List (Trail α)) :
    ∃ turns ≤ unseen.length + queue.length,
      Ends edge goal unseen queue turns (searchFrom edge goal unseen queue) := by
  fun_induction searchFrom edge goal unseen queue with
  | case1 unseen => exact ⟨0, Nat.zero_le _, .exhausted unseen⟩
  | case2 unseen trail rest fresh hit =>
    exact ⟨1, by rw [List.length_cons]; omega, .hit rest (by simpa using hit)⟩
  | case3 unseen trail rest fresh miss ih =>
    obtain ⟨turns, few, later⟩ := ih
    refine ⟨turns + 1, ?_, .next (by simpa using miss) later⟩
    have moved : fresh.length + _ = _ := length_successors_add_others edge trail.last unseen
    rw [List.length_append, List.length_map] at few
    rw [List.length_cons]
    omega

end

section
variable {α : Type} [DecidableEq α] {network : Network α} {start goal : α}

/-- A search that remembers parents comes to this result after so many turns, in each of which it
takes one node from the queue. -/
inductive Network.Ends (network : Network α) (start goal : α) :
    Search α → Nat → Option (List α) → Prop where
  | exhausted {search : Search α} (empty : search.queue = []) :
      Ends network start goal search 0 none
  | hit {search found : Search α} {node : α} {rest : List α} (taken : search.queue = node :: rest)
      (met : Search.meet goal node (network.successors node) { search with queue := rest } =
        (true, found)) :
      Ends network start goal search 1 (some (unwind start found.parents goal []))
  | next {search next : Search α} {node : α} {rest : List α} {turns : Nat}
      {result : Option (List α)} (taken : search.queue = node :: rest)
      (missed : Search.meet goal node (network.successors node) { search with queue := rest } =
        (false, next)) (later : Ends network start goal next turns result) :
      Ends network start goal search (turns + 1) result

/-- The search ends before it has taken more nodes than there are left. -/
theorem Network.searchFrom_ends (search : Search α) :
    ∃ turns ≤ (network.unmet search.seen).length + search.queue.length,
      network.Ends start goal search turns (network.searchFrom start goal search) := by
  fun_induction network.searchFrom start goal search with
  | case1 search empty => exact ⟨0, Nat.zero_le _, .exhausted empty⟩
  | case2 search node rest queued found turn =>
    exact ⟨1, by rw [queued, List.length_cons]; omega, .hit queued turn⟩
  | case3 search node rest queued next turn ih =>
    obtain ⟨turns, few, later⟩ := ih
    have shorter := length_meet_le goal node (network.within node) { search with queue := rest }
    rw [turn] at shorter
    refine ⟨turns + 1, ?_, .next queued turn later⟩
    rw [queued, List.length_cons]
    dsimp only at shorter
    omega

end

/-! ### Paths of waiting -/

namespace ImportGraph

variable {graph : ImportGraph} {units : Table PackageUnit} {start goal : UnitName}
  {path : List UnitName}

/-- The units lead from the first to the last, each waiting for the next. -/
structure IsWaitPath (graph : ImportGraph) (units : Table PackageUnit) (start goal : UnitName)
    (path : List UnitName) : Prop where
  starts : path.head? = some start
  ends : path.getLast? = some goal
  waits : path.IsChain (graph.Waits units)

theorem isRoute_iff : IsRoute (graph.waits units) start goal path ↔
    graph.IsWaitPath units start goal path := by
  constructor
  · rintro ⟨starts, ends, chain⟩
    exact ⟨starts, ends, chain.imp fun _ _ => waits_eq_true.mp⟩
  · rintro ⟨starts, ends, chain⟩
    exact ⟨starts, ends, chain.imp fun _ _ => waits_eq_true.mpr⟩

/-- What a search for a path of waiting gives. -/
structure Searched (graph : ImportGraph) (units : Table PackageUnit) (start goal : UnitName) :
    Prop where
  /-- It finds a path exactly if there is one. -/
  finds : (∃ path, graph.path units start goal = some path) ↔
    ReflTransGen (graph.Waits units) start goal
  isPath : ∀ path, graph.path units start goal = some path →
    graph.IsWaitPath units start goal path
  simple : ∀ path, graph.path units start goal = some path → path.Nodup
  shortest : ∀ path, graph.path units start goal = some path →
    ∀ other, graph.IsWaitPath units start goal other → path.length ≤ other.length
  /-- A search that keeps whole trails ends with it too, and takes no more turns. -/
  terminates : ∃ turns ≤ (waitedFor units).length + 1, Ends (graph.waits units) goal
    ((waitedFor units).filter (· != start)) [⟨start, []⟩] turns (graph.path units start goal)
  /-- It takes each node from its queue at most once, whatever cycles there are. -/
  turns : ∃ turns ≤ (waitedFor units).length + 1, (graph.network units).Ends start goal
    { seen := [start], queue := [start] } turns (graph.path units start goal)

/-- The search between two units finds a shortest path of waiting, if there is any, and ends on
every graph. -/
theorem path_searched (graph : ImportGraph) (units : Table PackageUnit)
    (distinct : start ≠ goal) : Searched graph units start goal where
  finds := by
    constructor
    · rintro ⟨path, found⟩
      exact reaches_of_path found
    · intro reached
      cases searched : graph.path units start goal with
      | none => exact absurd reached (not_reaches_of_path_eq_none distinct searched)
      | some path => exact ⟨path, rfl⟩
  isPath _ found := isRoute_iff.mp (path_isRoute found)
  simple _ found := path_nodup found
  shortest _ found _ isPath := shortestPath_shortest distinct
    (fun _ _ waits => waits_covered (waits_eq_true.mp waits)) (path_eq.symm.trans found)
    (isRoute_iff.mpr isPath)
  terminates := by
    obtain ⟨turns, few, ends⟩ := @searchFrom_ends _ (graph.waits units) goal _ _
      ((waitedFor units).filter (· != start)) [⟨start, []⟩]
    have fewer := List.length_filter_le (· != start) (waitedFor units)
    rw [path_eq]
    exact ⟨turns, by rw [List.length_singleton] at few; omega, ends⟩
  turns := by
    have few : ((graph.network units).unmet [start]).length ≤ (waitedFor units).length :=
      List.length_filter_le _ _
    obtain ⟨turns, bound, ends⟩ := @Network.searchFrom_ends _ _ (graph.network units) start goal
      { seen := [start], queue := [start] }
    exact ⟨turns, bound.trans (Nat.add_le_add_right few 1), ends⟩

/-- In a ring of two packages the search from one to the member of the other ends, and no path is
shorter than the one through all four units. -/
theorem path_searched_ring :
    let unit (name file : String) : PackageUnit := { name, members := [file], outstanding := [file] }
    let units : Table PackageUnit := ⟨[("a", unit "a" "a.go"), ("b", unit "b" "b.go")]⟩
    let graph : ImportGraph := ⟨[("a.go", "b"), ("b.go", "a")]⟩
    UnitName.package "a" ≠ .file "b.go" ∧
      graph.IsWaitPath units (.package "a") (.file "b.go")
        [.package "a", .file "a.go", .package "b", .file "b.go"] ∧
      ∀ other, graph.IsWaitPath units (.package "a") (.file "b.go") other → 4 ≤ other.length := by
  intro unit units graph
  have apart : UnitName.package "a" ≠ .file "b.go" := by decide
  have searched := path_searched graph units apart
  have found : graph.path units (.package "a") (.file "b.go") =
      some [.package "a", .file "a.go", .package "b", .file "b.go"] := by decide +kernel
  exact ⟨apart, searched.isPath _ found, searched.shortest _ found⟩

end ImportGraph

end GoFront.Build
