import GoFront.Build.Waiting.Search
import GoFront.Proofs.Build.Waiting.Search

/-!
The search that remembers parents and the search that carries whole paths are in step: the parents
lead from every node in the queue back along its path. So going back from the goal gives the path
(`Network.path_eq_shortestPath`).
-/
namespace GoFront.Build

variable {α : Type} [DecidableEq α] {start goal node : α} {parents others : List (α × α)}
  {trail : Trail α}

/-! ### Parents -/

theorem lookup_forget {other : α} (apart : node ≠ other) :
    (forget other parents).lookup node = parents.lookup node := by
  unfold forget
  induction parents with
  | nil => rfl
  | cons entry rest ih =>
    obtain ⟨key, parent⟩ := entry
    by_cases gone : key = other
    · have miss : (node == key) = false := by simpa [gone] using apart
      rw [List.filter_cons_of_neg (by simpa using gone), ih, List.lookup_cons, miss]
    · rw [List.filter_cons_of_pos (by simpa using gone), List.lookup_cons, List.lookup_cons, ih]

theorem lookup_append_of_new {before : List (α × α)} {seen : List α}
    (fresh : ∀ entry ∈ before, entry.1 ∉ seen) (met : node ∈ seen) :
    (before ++ parents).lookup node = parents.lookup node := by
  have missed : before.lookup node = none := by
    refine List.lookup_eq_none_iff.mpr fun entry mem => ?_
    have apart : node ≠ entry.1 := fun same => fresh entry mem (same ▸ met)
    simpa using apart
  rw [List.lookup_append, missed, Option.none_or]

theorem lookup_map_of_mem {fresh : List α} {next : α} (mem : next ∈ fresh) :
    (fresh.map fun other => (other, node)).lookup next = some node := by
  induction fresh with
  | nil => simp at mem
  | cons first rest ih =>
    rw [List.map_cons, List.lookup_cons]
    split
    · rfl
    next apart =>
      exact ih ((List.mem_cons.mp mem).resolve_left fun same => by simp [same] at apart)

/-! ### Going back -/

/-- The parents lead from the end of the trail back to the start, along its nodes. -/
inductive Trail.Backed (start : α) (parents : List (α × α)) : Trail α → Prop where
  | start : Backed start parents ⟨start, []⟩
  | extend {trail : Trail α} {next : α} (backed : Backed start parents trail)
      (known : parents.lookup next = some trail.last) : Backed start parents (trail.extend next)

namespace Trail.Backed

theorem start_mem (backed : trail.Backed start parents) : start ∈ trail.nodes := by
  induction backed with
  | start => simp [nodes]
  | extend _ _ ih =>
    rw [nodes_extend]
    exact List.mem_append_left _ ih

theorem congr (backed : trail.Backed start parents)
    (same : ∀ node ∈ trail.nodes, others.lookup node = parents.lookup node) :
    trail.Backed start others := by
  induction backed with
  | start => exact .start
  | @extend trail next _ known ih =>
    rw [nodes_extend] at same
    refine .extend (ih fun node mem => same node (List.mem_append_left _ mem)) ?_
    rw [same next (by simp), known]

/-- Going back from a node behind the trail gives the trail, also if parents of other nodes are
forgotten on the way. -/
theorem unwind_eq (backed : trail.Backed start parents) {next : α}
    (known : others.lookup next = some trail.last) (unique : (trail.extend next).nodes.Nodup)
    (same : ∀ node ∈ trail.nodes, others.lookup node = parents.lookup node) (path : List α) :
    unwind start others next path = trail.nodes ++ next :: path := by
  induction backed generalizing others next path with
  | start =>
    rw [unwind.eq_def, known]
    simp [nodes]
  | @extend trail last earlier knownLast ih =>
    rw [nodes_extend, List.nodup_append] at unique
    obtain ⟨uniqueTrail, -, apart⟩ := unique
    have notStart : last ≠ start := by
      rw [nodes_extend, List.nodup_append] at uniqueTrail
      exact (uniqueTrail.2.2 start earlier.start_mem last (List.mem_singleton_self _)).symm
    have kept : ∀ node ∈ (trail.extend last).nodes,
        (forget next others).lookup node = parents.lookup node := fun node mem =>
      (lookup_forget (apart node mem next (List.mem_singleton_self _))).trans (same node mem)
    have inTrail : ∀ node ∈ trail.nodes, node ∈ (trail.extend last).nodes := fun node mem => by
      rw [nodes_extend]
      exact List.mem_append_left _ mem
    have knownLast := (kept last (by simp [nodes_extend])).trans knownLast
    have back := ih knownLast uniqueTrail (fun node mem => kept node (inTrail node mem))
      (next :: path)
    rw [unwind.eq_def, known]
    change (if last = start then _ else unwind start (forget next others) last (next :: path)) = _
    rw [if_neg notStart, back, nodes_extend, List.append_assoc, List.singleton_append]

end Trail.Backed

/-! ### Looking at successors -/

/-- The successors that are new are remembered and queued in their order. -/
def Search.add (search : Search α) (node : α) (fresh : List α) : Search α where
  parents := (fresh.map fun next => (next, node)).reverse ++ search.parents
  seen := fresh.reverse ++ search.seen
  queue := search.queue ++ fresh

/-- The nodes that a search has not met. -/
def Search.new (search : Search α) (nexts : List α) : List α := nexts.filter (· ∉ search.seen)

section

variable {next : α} {rest nexts : List α} {search : Search α}

theorem Search.new_cons_of_mem (met : next ∈ search.seen) :
    search.new (next :: rest) = search.new rest := by
  simp [new, met]

theorem Search.new_cons_of_not_mem (isNew : next ∉ search.seen) :
    search.new (next :: rest) = next :: search.new rest := by
  simp [new, isNew]

/-- Nothing but the node itself stops being new when it is met. -/
theorem Search.new_add (absent : next ∉ rest) :
    (search.add node [next]).new rest = search.new rest := by
  refine List.filter_congr fun other mem => ?_
  have apart : other ≠ next := fun same => absent (same ▸ mem)
  simp [add, apart]

omit [DecidableEq α] in
theorem Search.add_add (first second : List α) :
    (search.add node first).add node second = search.add node (first ++ second) := by
  simp [add]

theorem Search.meet_of_miss (node : α) (unique : nexts.Nodup) (miss : goal ∉ search.new nexts) :
    search.meet goal node nexts = (false, search.add node (search.new nexts)) := by
  induction nexts generalizing search with
  | nil => simp [meet, add, new]
  | cons next rest ih =>
    obtain ⟨absent, unique⟩ := List.nodup_cons.mp unique
    unfold meet
    split
    next met =>
      rw [new_cons_of_mem met] at miss ⊢
      exact ih unique miss
    next isNew =>
      rw [new_cons_of_not_mem isNew, List.mem_cons, not_or] at miss
      dsimp only
      rw [if_neg (Ne.symm miss.1), new_cons_of_not_mem isNew]
      have later := @ih (search.add node [next]) unique (by rw [new_add absent]; exact miss.2)
      rw [new_add absent, add_add] at later
      exact later

/-- The goal is met from the node. What was new before the goal does not lie on any trail yet. -/
theorem Search.meet_of_hit (node : α) (unique : nexts.Nodup) (hit : goal ∈ search.new nexts) :
    ∃ found before, search.meet goal node nexts = (true, found) ∧
      found.parents = (goal, node) :: before ++ search.parents ∧
      ∀ entry ∈ before, entry.1 ∉ search.seen := by
  induction nexts generalizing search with
  | nil => simp [new] at hit
  | cons next rest ih =>
    obtain ⟨absent, unique⟩ := List.nodup_cons.mp unique
    unfold meet
    split
    next met =>
      rw [new_cons_of_mem met] at hit
      exact ih unique hit
    next isNew =>
      dsimp only
      split
      next isGoal => exact ⟨_, [], rfl, by rw [isGoal]; rfl, by simp⟩
      next notGoal =>
        rw [new_cons_of_not_mem isNew, List.mem_cons] at hit
        have later := @ih (search.add node [next]) unique
          (by rw [new_add absent]; exact hit.resolve_left (Ne.symm notGoal))
        obtain ⟨found, before, met, isParents, fresh⟩ := later
        refine ⟨found, before ++ [(next, node)], met, by simp [isParents, add], ?_⟩
        refine List.forall_mem_append.mpr ⟨fun entry mem => ?_, by simpa using isNew⟩
        exact fun seen => fresh entry mem (by simp [add, seen])

end

/-! ### The nodes that are new -/

variable {network : Network α} {edge : α → α → Bool} {seen : List α}

theorem Network.new_successors (search : Search α)
    (edges : network.successors node = Build.successors edge node network.nodes) :
    search.new (network.successors node) =
      Build.successors edge node (network.unmet search.seen) := by
  unfold Search.new unmet
  rw [edges]
  unfold Build.successors
  rw [List.filter_filter, List.filter_filter]
  exact List.filter_congr fun _ _ => Bool.and_comm _ _

theorem Network.not_mem_of_mem_successors {next : α}
    (mem : next ∈ Build.successors edge node (network.unmet seen)) : next ∉ seen := by
  simpa using (List.mem_filter.mp (mem_successors.mp mem).1).2

theorem Network.others_unmet :
    Build.others edge node (network.unmet seen) =
      network.unmet ((Build.successors edge node (network.unmet seen)).reverse ++ seen) := by
  unfold Build.others unmet
  rw [List.filter_filter]
  refine List.filter_congr fun other isNode => ?_
  by_cases met : other ∈ seen <;> by_cases leads : edge node other <;>
    simp [Build.successors, isNode, met, leads]

/-! ### The two searches in step -/

/-- The queue holds the ends of the trails, the parents lead back along them, and all their nodes
have been met. -/
structure Search.InStep (search : Search α) (start : α) (trails : List (Trail α)) : Prop where
  queue : search.queue = trails.map Trail.last
  backed : ∀ trail ∈ trails, trail.Backed start search.parents
  unique : ∀ trail ∈ trails, trail.nodes.Nodup
  seen : ∀ trail ∈ trails, ∀ node ∈ trail.nodes, node ∈ search.seen

namespace Search.InStep

variable {search : Search α} {trails : List (Trail α)}

theorem initial : InStep { seen := [start], queue := [start] } start [⟨start, []⟩] where
  queue := rfl
  backed := by simpa using Trail.Backed.start
  unique := by simp [Trail.nodes]
  seen := by simp [Trail.nodes]

/-- A turn that does not meet the goal keeps the two searches in step. -/
theorem add (inStep : search.InStep start (trail :: trails)) {fresh : List α}
    (new : ∀ next ∈ fresh, next ∉ search.seen) :
    (Search.add { search with queue := trails.map Trail.last } trail.last fresh).InStep start
      (trails ++ fresh.map trail.extend) := by
  have kept : ∀ node ∈ search.seen, (Search.add { search with queue := trails.map Trail.last }
      trail.last fresh).parents.lookup node = search.parents.lookup node := fun node met =>
    lookup_append_of_new (by simpa using new) met
  have backed : ∀ other ∈ trail :: trails, Trail.Backed start _ other := fun other mem =>
    (inStep.backed other mem).congr fun node on => kept node (inStep.seen other mem node on)
  refine ⟨by simp [Search.add, Function.comp_def, Trail.extend], ?_, ?_, ?_⟩
  all_goals refine List.forall_mem_append.mpr ⟨fun other mem => ?_, List.forall_mem_map.mpr
    fun next mem => ?_⟩
  · exact backed other (List.mem_cons_of_mem _ mem)
  · refine .extend (backed trail List.mem_cons_self) ?_
    rw [Search.add, List.lookup_append, ← List.map_reverse,
      lookup_map_of_mem (List.mem_reverse.mpr mem), Option.some_or]
  · exact inStep.unique other (List.mem_cons_of_mem _ mem)
  · exact Trail.nodup_extend (inStep.unique trail List.mem_cons_self) fun on =>
      new next mem (inStep.seen trail List.mem_cons_self next on)
  · exact fun node on =>
      List.mem_append_right _ (inStep.seen other (List.mem_cons_of_mem _ mem) node on)
  · intro node on
    rw [Trail.nodes_extend, List.mem_append, List.mem_singleton] at on
    rcases on with before | rfl
    · exact List.mem_append_right _ (inStep.seen trail List.mem_cons_self node before)
    · exact List.mem_append_left _ (List.mem_reverse.mpr mem)

/-- Going back from the goal gives the trail that led to it. -/
theorem unwind_eq (inStep : search.InStep start trails) (mem : trail ∈ trails)
    {before : List (α × α)} (new : goal ∉ search.seen)
    (fresh : ∀ entry ∈ before, entry.1 ∉ search.seen) :
    unwind start ((goal, trail.last) :: before ++ search.parents) goal [] =
      (trail.extend goal).nodes := by
  have newGoal : ∀ entry ∈ (goal, trail.last) :: before, entry.1 ∉ search.seen :=
    List.forall_mem_cons.mpr ⟨new, fresh⟩
  rw [Trail.nodes_extend]
  refine (inStep.backed trail mem).unwind_eq (by simp) ?_ (fun node on => ?_) []
  · exact Trail.nodup_extend (inStep.unique trail mem) fun on => new (inStep.seen trail mem goal on)
  · exact lookup_append_of_new newGoal (inStep.seen trail mem node on)

end Search.InStep

namespace Network

/-- Searches in step find the same path. -/
theorem searchFrom_eq (unique : network.nodes.Nodup)
    (edges : ∀ node, network.successors node = Build.successors edge node network.nodes)
    {search : Search α} {trails : List (Trail α)} (inStep : search.InStep start trails) :
    network.searchFrom start goal search =
      Build.searchFrom edge goal (network.unmet search.seen) trails := by
  have uniqueNexts : ∀ node, (network.successors node).Nodup := fun node => by
    rw [edges]
    exact unique.filter _
  fun_induction network.searchFrom start goal search generalizing trails with
  | case1 search empty =>
    obtain rfl : trails = [] := List.map_eq_nil_iff.mp (inStep.queue.symm.trans empty)
    rw [Build.searchFrom]
  | case2 search node rest queued found turn =>
    obtain ⟨trail, trails, rfl, rfl, rfl⟩ :=
      List.map_eq_cons_iff.mp (inStep.queue.symm.trans queued)
    have fresh := new_successors { search with queue := trails.map Trail.last } (edges trail.last)
    by_cases hit : goal ∈ Build.successors edge trail.last (network.unmet search.seen)
    · obtain ⟨_, before, met, parents, apart⟩ :=
        Search.meet_of_hit trail.last (uniqueNexts trail.last) (fresh.symm ▸ hit)
      obtain ⟨-, rfl⟩ := Prod.mk.inj (turn.symm.trans met)
      rw [Build.searchFrom, if_pos (by simpa using hit), parents]
      exact congrArg some
        (inStep.unwind_eq List.mem_cons_self (not_mem_of_mem_successors hit) apart)
    · have miss := Search.meet_of_miss trail.last (uniqueNexts trail.last) (fresh.symm ▸ hit)
      simp [turn] at miss
  | case3 search node rest queued next turn ih =>
    obtain ⟨trail, trails, rfl, rfl, rfl⟩ :=
      List.map_eq_cons_iff.mp (inStep.queue.symm.trans queued)
    have fresh := new_successors { search with queue := trails.map Trail.last } (edges trail.last)
    by_cases hit : goal ∈ Build.successors edge trail.last (network.unmet search.seen)
    · obtain ⟨_, before, met, -, -⟩ :=
        Search.meet_of_hit trail.last (uniqueNexts trail.last) (fresh.symm ▸ hit)
      simp [turn] at met
    · have miss := Search.meet_of_miss trail.last (uniqueNexts trail.last) (fresh.symm ▸ hit)
      rw [turn, fresh] at miss
      obtain ⟨-, rfl⟩ := Prod.mk.inj miss
      rw [Build.searchFrom, if_neg (by simpa using hit), others_unmet]
      exact ih (inStep.add fun _ => not_mem_of_mem_successors)

theorem path_eq_shortestPath (unique : network.nodes.Nodup)
    (edges : ∀ node, network.successors node = Build.successors edge node network.nodes) :
    network.path start goal = shortestPath edge network.nodes start goal := by
  have unmet : network.unmet [start] = network.nodes.filter (· != start) :=
    List.filter_congr fun node _ => by by_cases same : node = start <;> simp [same]
  rw [path, searchFrom_eq unique edges .initial, shortestPath, unmet]

end Network

end GoFront.Build
