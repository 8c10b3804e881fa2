import GoFront.Build.Unit.Package
import GoFront.Build.Waiting.Search

/-!
Who waits for whom. A file waits for each live package that it imports, and a live package for
each of its members that has not reported. If a new import would close a cycle of waiting, then
the source has an import cycle.
-/
namespace GoFront.Build

/-- The imports recorded so far, as pairs of file and package. -/
structure ImportGraph where
  imports : List (String × String) := []
  deriving Repr

namespace ImportGraph

def record (graph : ImportGraph) (file package : String) : ImportGraph :=
  if graph.imports.contains (file, package) then graph else ⟨graph.imports ++ [(file, package)]⟩

/-- All units that another may wait for, in the order of their names. -/
def waitedFor (units : Table PackageUnit) : List UnitName :=
  (Names.ofList units.keys).map .package ++
    (Names.ofList (units.values.flatMap (·.outstanding))).map .file

def isLive (units : Table PackageUnit) (package : String) : Bool :=
  ((units.get? package).map (·.isLive)).getD false

/-- The packages that a file imports, in the order of their names. -/
def importsOf (graph : ImportGraph) (file : String) : List String :=
  Names.ofList ((graph.imports.filter (·.1 = file)).map (·.2))

/-- The units that a unit waits for, in the order of their names. -/
def successors (graph : ImportGraph) (units : Table PackageUnit) : UnitName → List UnitName
  | .file file => ((graph.importsOf file).filter (isLive units)).map .package
  | .package package =>
    match units.get? package with
    | some unit => if unit.isLive then (Names.ofList unit.outstanding).map .file else []
    | none => []

theorem successors_within (graph : ImportGraph) (units : Table PackageUnit) (unit : UnitName) :
    ∀ next ∈ graph.successors units unit, next ∈ waitedFor units := by
  intro next waited
  unfold waitedFor
  cases unit with
  | file file =>
    obtain ⟨package, recorded, rfl⟩ := List.mem_map.mp waited
    have live := (List.mem_filter.mp recorded).2
    refine List.mem_append_left _ (List.mem_map.mpr ⟨package, Names.mem_ofList.mpr ?_, rfl⟩)
    cases known : units.get? package with
    | none => simp [isLive, known] at live
    | some unit => exact Table.mem_keys.mpr ⟨unit, known⟩
  | package package =>
    simp only [successors] at waited
    split at waited
    next unit known =>
      split at waited
      next =>
        obtain ⟨file, outstanding, rfl⟩ := List.mem_map.mp waited
        refine List.mem_append_right _ (List.mem_map.mpr ⟨file, Names.mem_ofList.mpr ?_, rfl⟩)
        exact List.mem_flatMap.mpr ⟨unit, Table.mem_values known, Names.mem_ofList.mp outstanding⟩
      next => simp at waited
    next => simp at waited

/-- The waiting of the units as nodes and edges. -/
def network (graph : ImportGraph) (units : Table PackageUnit) : Network UnitName where
  nodes := waitedFor units
  successors := graph.successors units
  within := graph.successors_within units

/-- A shortest path of waiting, with both ends. -/
def path (graph : ImportGraph) (units : Table PackageUnit) (start goal : UnitName) :
    Option (List UnitName) :=
  (graph.network units).path start goal

def packagesOn (path : List UnitName) : List String :=
  path.filterMap fun
    | .package name => some name
    | .file _ => none

end ImportGraph

end GoFront.Build
