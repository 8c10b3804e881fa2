import GoFront.Build.Desk.Imports
import GoFront.Proofs.Build.Waiting.Parents
import GoFront.Proofs.Names
import Mathlib.Data.List.Sort
import Mathlib.Logic.Relation

/-!
Waiting never runs in a circle. The recorded imports and the outstanding members make a graph. An
edge enters it only after a search has shown that no path leads back, so the graph stays without
cycles.
-/
namespace GoFront.Build
open Relation

/-- New edges that leave one node `a`, towards nodes from which `a` cannot be reached, close no
cycle. -/
theorem acyclic_of_edges_from {α : Type} {r r' : α → α → Prop} {a : α}
    (acyclic : ∀ u, ¬ TransGen r u u)
    (edges : ∀ u v, r' u v → r u v ∨ (u = a ∧ ¬ ReflTransGen r v a)) :
    ∀ u, ¬ TransGen r' u u := by
  have back : ∀ u, ReflTransGen r' u a → ReflTransGen r u a := by
    intro u path
    induction path using ReflTransGen.head_induction_on with
    | refl => exact .refl
    | head first _ ih =>
      rcases edges _ _ first with old | ⟨rfl, _⟩
      · exact ih.head old
      · exact .refl
  -- A path is old, or it passes through `a` and leaves it by a new edge.
  have split : ∀ u w, TransGen r' u w →
      TransGen r u w ∨ ReflTransGen r' u a ∧ ∃ v, ¬ ReflTransGen r v a ∧ ReflTransGen r' v w := by
    intro u w path
    induction path with
    | single first =>
      rcases edges _ _ first with old | ⟨rfl, away⟩
      · exact Or.inl (.single old)
      · exact Or.inr ⟨.refl, _, away, .refl⟩
    | tail before last ih =>
      rcases edges _ _ last with old | ⟨rfl, away⟩
      · rcases ih with path | ⟨reached, v, away, rest⟩
        · exact Or.inl (path.tail old)
        · exact Or.inr ⟨reached, v, away, rest.tail last⟩
      · exact Or.inr ⟨before.to_reflTransGen, _, away, .refl⟩
  intro u cycle
  rcases split u u cycle with old | ⟨reached, v, away, rest⟩
  · exact acyclic u old
  · exact away (back v (rest.trans reached))

namespace ImportGraph

/-- The first unit waits for the second. -/
inductive Waits (graph : ImportGraph) (units : Table PackageUnit) : UnitName → UnitName → Prop where
  | imports {file package : String} {unit : PackageUnit}
      (recorded : (file, package) ∈ graph.imports) (known : units.get? package = some unit)
      (live : unit.isLive = true) : Waits graph units (.file file) (.package package)
  | member {package file : String} {unit : PackageUnit}
      (known : units.get? package = some unit) (live : unit.isLive = true)
      (outstanding : file ∈ unit.outstanding) : Waits graph units (.package package) (.file file)

def waits (graph : ImportGraph) (units : Table PackageUnit) : UnitName → UnitName → Bool
  | .file file, .package package =>
    graph.imports.contains (file, package) && ((units.get? package).map (·.isLive)).getD false
  | .package package, .file file =>
    match units.get? package with
    | some unit => unit.isLive && unit.outstanding.contains file
    | none => false
  | _, _ => false

variable {graph : ImportGraph} {units : Table PackageUnit} {start goal : UnitName}

theorem waits_eq_true {u v : UnitName} :
    graph.waits units u v = true ↔ graph.Waits units u v := by
  constructor
  · intro waits
    match u, v with
    | .file file, .package package =>
      cases known : units.get? package with
      | none => simp [ImportGraph.waits, known] at waits
      | some unit =>
        simp only [ImportGraph.waits, known, Option.map_some, Option.getD_some, Bool.and_eq_true,
          List.contains_iff_mem] at waits
        exact .imports waits.1 known waits.2
    | .package package, .file file =>
      cases known : units.get? package with
      | none => simp [ImportGraph.waits, known] at waits
      | some unit =>
        simp only [ImportGraph.waits, known, Bool.and_eq_true, List.contains_iff_mem] at waits
        exact .member known waits.1 waits.2
    | .file _, .file _ | .package _, .package _ => simp [ImportGraph.waits] at waits
  · intro waits
    cases waits with
    | imports recorded known live => simp [ImportGraph.waits, recorded, known, live]
    | member known live outstanding => simp [ImportGraph.waits, known, live, outstanding]

theorem mem_record {file package : String} {edge : String × String} :
    edge ∈ (graph.record file package).imports ↔ edge = (file, package) ∨ edge ∈ graph.imports := by
  unfold record
  split
  · rename_i present
    constructor
    · exact Or.inr
    · rintro (rfl | old)
      · simpa using present
      · exact old
  · simp [or_comm]

/-! ### Paths of waiting -/

theorem nodup_waitedFor : (waitedFor units).Nodup := by
  refine List.nodup_append.mpr ⟨?_, ?_, ?_⟩
  · exact (Names.pairwise_ofList _).nodup.map fun _ _ => UnitName.package.inj
  · exact (Names.pairwise_ofList _).nodup.map fun _ _ => UnitName.file.inj
  · intro package isPackage file isFile
    obtain ⟨_, -, rfl⟩ := List.mem_map.mp isPackage
    obtain ⟨_, -, rfl⟩ := List.mem_map.mp isFile
    exact UnitName.noConfusion

theorem mem_importsOf {file package : String} :
    package ∈ graph.importsOf file ↔ (file, package) ∈ graph.imports := by
  simp [importsOf]

/-- A file waits for the live packages that it imports. -/
theorem filter_importsOf (file : String) :
    (graph.importsOf file).filter (isLive units) =
      (Names.ofList units.keys).filter fun package =>
        graph.waits units (.file file) (.package package) := by
  refine ((Names.pairwise_ofList _).filter _).eq_of_mem_iff ((Names.pairwise_ofList _).filter _)
    fun package => ?_
  have known (live : isLive units package = true) : package ∈ units.keys := by
    cases known : units.get? package with
    | none => simp [isLive, known] at live
    | some unit => exact Table.mem_keys.mpr ⟨unit, known⟩
  have same := @mem_importsOf graph file package
  simp only [importsOf] at same
  simp only [List.mem_filter, same, Names.mem_ofList, ImportGraph.waits, ← isLive.eq_1,
    Bool.and_eq_true, List.contains_iff_mem]
  tauto

/-- A live package waits for its outstanding members. -/
theorem filter_outstanding {package : String} {unit : PackageUnit}
    (known : units.get? package = some unit) :
    (if unit.isLive then Names.ofList unit.outstanding else []) =
      (Names.ofList (units.values.flatMap (·.outstanding))).filter fun file =>
        graph.waits units (.package package) (.file file) := by
  have listed (file : String) (outstanding : file ∈ unit.outstanding) :
      file ∈ units.values.flatMap (·.outstanding) :=
    List.mem_flatMap.mpr ⟨unit, Table.mem_values known, outstanding⟩
  split
  next live =>
    refine (Names.pairwise_ofList _).eq_of_mem_iff ((Names.pairwise_ofList _).filter _)
      fun file => ?_
    simp only [List.mem_filter, Names.mem_ofList, ImportGraph.waits, known, live, Bool.true_and,
      List.contains_iff_mem]
    exact ⟨fun outstanding => ⟨listed file outstanding, outstanding⟩, And.right⟩
  next dead => simp [ImportGraph.waits, known, dead]

/-- The units that a unit waits for stand in the order of all units. -/
theorem successors_eq (unit : UnitName) :
    graph.successors units unit = Build.successors (graph.waits units) unit (waitedFor units) := by
  unfold Build.successors waitedFor
  rw [List.filter_append, List.filter_map, List.filter_map]
  cases unit with
  | file file =>
    have noFile : ((graph.waits units (.file file)) ∘ UnitName.file) = fun _ => false := rfl
    rw [noFile, List.filter_false, List.map_nil, List.append_nil]
    exact congrArg (List.map _) (filter_importsOf file)
  | package package =>
    have noPackage : ((graph.waits units (.package package)) ∘ UnitName.package) =
      fun _ => false := rfl
    rw [noPackage, List.filter_false, List.map_nil, List.nil_append]
    simp only [successors]
    split
    next unit known =>
      exact (apply_ite (List.map UnitName.file) _ _ _).symm.trans
        (congrArg (List.map _) (filter_outstanding known))
    next missing => simp [Function.comp_def, ImportGraph.waits, missing]

theorem path_eq : graph.path units start goal =
    shortestPath (graph.waits units) (waitedFor units) start goal :=
  Network.path_eq_shortestPath nodup_waitedFor successors_eq

theorem path_isRoute {path : List UnitName} (found : graph.path units start goal = some path) :
    IsRoute (graph.waits units) start goal path := shortestPath_isRoute (path_eq.symm.trans found)

theorem path_nodup {path : List UnitName} (found : graph.path units start goal = some path) :
    path.Nodup := shortestPath_nodup (path_eq.symm.trans found)

theorem reaches_of_path {path : List UnitName} (found : graph.path units start goal = some path) :
    ReflTransGen (graph.Waits units) start goal := by
  have reached := (path_isRoute found).reaches
  simpa only [waits_eq_true] using reached

theorem waits_covered {u v : UnitName} (waits : graph.Waits units u v) : v ∈ waitedFor units := by
  cases waits with
  | imports _ known _ =>
    refine List.mem_append_left _ (List.mem_map.mpr ⟨_, Names.mem_ofList.mpr ?_, rfl⟩)
    exact Table.mem_keys.mpr ⟨_, known⟩
  | member known _ outstanding =>
    refine List.mem_append_right _ (List.mem_map.mpr ⟨_, Names.mem_ofList.mpr ?_, rfl⟩)
    exact List.mem_flatMap.mpr ⟨_, Table.mem_values known, outstanding⟩

theorem not_reaches_of_path_eq_none (distinct : start ≠ goal)
    (missing : graph.path units start goal = none) :
    ¬ ReflTransGen (graph.Waits units) start goal := by
  have unreached := not_reaches_of_shortestPath_eq_none distinct
    (fun _ _ waits => waits_covered (waits_eq_true.mp waits)) (path_eq.symm.trans missing)
  simpa only [waits_eq_true] using unreached

end ImportGraph

namespace ImportDesk

variable {desk : ImportDesk}

/-- The first unit waits for the second. -/
def Waits (desk : ImportDesk) : UnitName → UnitName → Prop := desk.graph.Waits desk.units

/-- No unit waits for itself, directly or through others. -/
def Acyclic (desk : ImportDesk) : Prop := ∀ unit, ¬ TransGen desk.Waits unit unit

theorem reaches_of_importCycle {request : ImportRequest} {cycle : List String}
    (closes : desk.importCycle request = some cycle) :
    ReflTransGen desk.Waits (.package request.package) (.file request.fromFile) := by
  simp only [importCycle, Option.bind_eq_bind, Option.bind_eq_some_iff] at closes
  obtain ⟨path, found, _⟩ := closes
  exact ImportGraph.reaches_of_path found

theorem not_reaches_of_importCycle {request : ImportRequest}
    (safe : desk.importCycle request = none) :
    ¬ ReflTransGen desk.Waits (.package request.package) (.file request.fromFile) := by
  cases found : desk.graph.path desk.units (.package request.package) (.file request.fromFile) with
  | none => exact ImportGraph.not_reaches_of_path_eq_none (by simp) found
  | some path =>
    -- The path starts at the package, so the list of its packages has a last one.
    exfalso
    obtain ⟨rest, rfl⟩ : ∃ rest, path = .package request.package :: rest := by
      have starts := (ImportGraph.path_isRoute found).starts
      cases path with
      | nil => simp at starts
      | cons first rest => exact ⟨rest, by simpa using starts⟩
    simp [importCycle, found, ImportGraph.packagesOn] at safe

theorem reaches_of_memberCycle {package : String} {members cycle : List String}
    (closes : desk.memberCycle package members = some cycle) :
    ∃ file ∈ members, ReflTransGen desk.Waits (.file file) (.package package) := by
  simp only [memberCycle, Option.bind_eq_bind, Option.bind_eq_some_iff] at closes
  obtain ⟨path, found, _⟩ := closes
  obtain ⟨file, member, found⟩ := List.exists_of_findSome?_eq_some found
  exact ⟨file, member, ImportGraph.reaches_of_path found⟩

theorem not_reaches_of_memberCycle {package : String} {members : List String}
    (safe : desk.memberCycle package members = none) :
    ∀ file ∈ members, ¬ ReflTransGen desk.Waits (.file file) (.package package) := by
  intro file member
  simp only [memberCycle, Option.bind_eq_bind, Option.bind_eq_none_iff, Option.pure_def,
    reduceCtorEq, imp_false] at safe
  have missing := List.findSome?_eq_none_iff.mp (Option.eq_none_iff_forall_ne_some.mpr safe)
  exact ImportGraph.not_reaches_of_path_eq_none (by simp) (missing file member)

end ImportDesk

end GoFront.Build
