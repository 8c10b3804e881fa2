import GoFront.Proofs.Build.Dependency
import GoFront.Proofs.Build.Waiting.Acyclic
import Mathlib.Data.List.Nodup

/-!
The cycles that the import desk reports. A path of waiting runs through files and packages in turn;
its packages alone are a path of imports, and the list that is reported closes that path to a cycle.
-/
namespace GoFront

namespace Frontend
open Build Relation

/-- A file of the first package imports the second. -/
def Imports (frontend : Frontend) (package other : String) : Prop :=
  ∃ file, frontend.Needs (.package package) (.file file) ∧ frontend.Needs (.file file) (.package other)

/-- Packages from the first to the last, each importing the next and none named twice. -/
structure IsImportPath (frontend : Frontend) (first last : String) (path : List String) : Prop where
  starts : path.head? = some first
  ends : path.getLast? = some last
  unique : path.Nodup
  chain : path.IsChain frontend.Imports

/-- Packages that import each other in a circle: the first is named again at the end, and no other
is named twice. -/
structure IsCycle (frontend : Frontend) (cycle : List String) : Prop where
  long : 2 ≤ cycle.length
  closed : cycle.head? = cycle.getLast?
  simple : cycle.dropLast.Nodup
  imports : cycle.IsChain frontend.Imports

/-- The file imports the package in a statement that stands at the position. -/
def ImportsAt (frontend : Frontend) (file package : String) (position : Position) : Prop :=
  ∃ parsed, frontend.prepare file = .ok parsed ∧ ⟨package, position⟩ ∈ parsed.file.importSites

/-- The import at the position leads from a package of the cycle to the next one. -/
def LiesOn (frontend : Frontend) (file : String) (position : Position) (cycle : List String) : Prop :=
  ∃ i package next, cycle[i]? = some package ∧ cycle[i + 1]? = some next ∧
    frontend.Needs (.package package) (.file file) ∧ frontend.ImportsAt file next position

variable {frontend : Frontend}

theorem ImportsAt.needs {file package : String} {position : Position}
    (imports : frontend.ImportsAt file package position) :
    frontend.Needs (.file file) (.package package) := by
  obtain ⟨parsed, prepared, site⟩ := imports
  refine .imports prepared ?_
  rw [← ParsedFile.mem_imports, ParsedFile.imports, ImportSite.mem_firstOfEach]
  exact List.mem_map_of_mem site

theorem LiesOn.of_append {file package next : String} {position : Position} {front rest : List String}
    (member : frontend.Needs (.package package) (.file file))
    (imports : frontend.ImportsAt file next position) :
    frontend.LiesOn file position (front ++ package :: next :: rest) :=
  ⟨front.length, package, next, by simp, by simp, member, imports⟩

theorem IsCycle.transGen {cycle : List String} (isCycle : frontend.IsCycle cycle) :
    ∃ package, TransGen frontend.Imports package package := by
  obtain ⟨long, closed, _, imports⟩ := isCycle
  match cycle, long with
  | first :: second :: rest, _ =>
    obtain ⟨imported, chain⟩ := List.isChain_cons_cons.mp imports
    have back := List.relationReflTransGen_of_exists_isChain (second :: rest) chain (by simp)
    have last : first = (second :: rest).getLast (by simp) := by
      simpa [List.getLast?_eq_some_getLast, List.getLast_cons] using closed
    rw [List.head_cons, ← last] at back
    exact ⟨first, TransGen.head' imported back⟩

/-- A path of imports is a cycle together with an import from its end to its start. -/
theorem IsImportPath.isCycle {first last : String} {path : List String}
    (isPath : frontend.IsImportPath first last path) (back : frontend.Imports last first) :
    frontend.IsCycle (last :: path) := by
  obtain ⟨starts, ends, unique, chain⟩ := isPath
  obtain ⟨front, rfl⟩ := List.getLast?_eq_some_iff.mp ends
  refine ⟨by simp, ?_, ?_, List.isChain_cons.mpr ⟨?_, chain⟩⟩
  · rw [← List.cons_append, List.getLast?_concat, List.cons_append, List.head?_cons]
  · rw [← List.cons_append, List.dropLast_concat]
    exact List.nodup_append_comm.mp unique
  · intro next isFirst
    rw [starts, Option.mem_some_iff] at isFirst
    exact isFirst ▸ back

end Frontend

namespace Build

namespace ImportGraph

variable {frontend : Frontend} {graph : ImportGraph} {units : Table PackageUnit}
  {path : List UnitName} {file package : String}

@[simp] theorem packagesOn_nil : packagesOn [] = [] := rfl

@[simp] theorem packagesOn_package (name : String) (rest : List UnitName) :
    packagesOn (.package name :: rest) = name :: packagesOn rest := rfl

@[simp] theorem packagesOn_file (name : String) (rest : List UnitName) :
    packagesOn (.file name :: rest) = packagesOn rest := rfl

@[simp] theorem packagesOn_append (path rest : List UnitName) :
    packagesOn (path ++ rest) = packagesOn path ++ packagesOn rest := by
  simp [packagesOn]

theorem nodup_packagesOn (unique : path.Nodup) : (packagesOn path).Nodup := by
  refine unique.filterMap ?_
  intro unit other name here there
  cases unit <;> cases other <;> simp_all

/-- The packages on a path of needs import each other. -/
theorem isChain_packagesOn : ∀ {path : List UnitName}, path.IsChain frontend.Needs →
    (packagesOn path).IsChain frontend.Imports
  | [], _ => .nil
  | .file _ :: _, chain => by
    rw [packagesOn_file]
    exact isChain_packagesOn chain.tail
  | [.package name], _ => .singleton name
  | .package _ :: .package _ :: _, chain => by cases (List.isChain_cons_cons.mp chain).1
  | [.package name, .file _], _ => .singleton name
  | .package _ :: .file _ :: .file _ :: _, chain => by
    cases (List.isChain_cons_cons.mp (List.isChain_cons_cons.mp chain).2).1
  | .package name :: .file file :: .package other :: rest, chain => by
    obtain ⟨member, chain⟩ := List.isChain_cons_cons.mp chain
    obtain ⟨imported, chain⟩ := List.isChain_cons_cons.mp chain
    have later := isChain_packagesOn chain
    rw [packagesOn_package] at later
    exact List.isChain_cons_cons.mpr ⟨⟨file, member, imported⟩, later⟩

section
variable (needs : ∀ unit other, graph.Waits units unit other → frontend.Needs unit other)
include needs

theorem isChain_path {start goal : UnitName} (found : graph.path units start goal = some path) :
    path.IsChain frontend.Needs :=
  (path_isRoute found).chain.imp fun _ _ waits => needs _ _ (waits_eq_true.mp waits)

/-- A package that waits for a file leads by imports to a package of which the file is a member. -/
theorem isImportPath_to_file
    (found : graph.path units (.package package) (.file file) = some path) :
    ∃ owner, frontend.Needs (.package owner) (.file file) ∧
      frontend.IsImportPath package owner (packagesOn path) := by
  have chain := isChain_path needs found
  have unique := nodup_packagesOn (path_nodup found)
  have packages := isChain_packagesOn chain
  obtain ⟨starts, ends, _⟩ := path_isRoute found
  obtain ⟨front, rfl⟩ := List.getLast?_eq_some_iff.mp ends
  rcases List.eq_nil_or_concat' front with rfl | ⟨front, unit, rfl⟩
  · simp at starts
  · rw [List.append_assoc] at starts chain
    obtain ⟨_, last, _⟩ := List.isChain_append_cons_cons.mp chain
    obtain ⟨owner, rfl⟩ : ∃ owner, unit = .package owner := by
      cases last with
      | @member owner => exact ⟨owner, rfl⟩
    refine ⟨owner, last, ?_, by simp, unique, packages⟩
    cases front with
    | nil => simpa using starts
    | cons first rest =>
      obtain rfl : first = .package package := by simpa using starts
      simp

/-- A file that waits for a package imports one that leads there by imports. -/
theorem isImportPath_to_package
    (found : graph.path units (.file file) (.package package) = some path) :
    ∃ first, frontend.Needs (.file file) (.package first) ∧
      frontend.IsImportPath first package (packagesOn path) := by
  have chain := isChain_path needs found
  have unique := nodup_packagesOn (path_nodup found)
  have packages := isChain_packagesOn chain
  obtain ⟨starts, ends, _⟩ := path_isRoute found
  match path, starts with
  | [unit], starts =>
    obtain rfl : unit = .file file := by simpa using starts
    simp at ends
  | unit :: next :: rest, starts =>
    obtain rfl : unit = .file file := by simpa using starts
    obtain ⟨enters, _⟩ := List.isChain_cons_cons.mp chain
    obtain ⟨first, rfl⟩ : ∃ first, next = .package first := by
      cases enters with
      | @imports _ first => exact ⟨first, rfl⟩
    refine ⟨first, enters, by simp, ?_, unique, packages⟩
    obtain ⟨front, same⟩ := List.getLast?_eq_some_iff.mp ends
    rw [same, packagesOn_append]
    simp

/-- The last import on a path of waiting is on record, and its file is a member of the package
before. -/
theorem importer_of_path (found : graph.path units (.file file) (.package package) = some path) :
    ∃ importer, (importer, package) ∈ graph.imports ∧
      (importer = file ∧ packagesOn path = [package] ∨
        ∃ front owner, packagesOn path = front ++ [owner, package] ∧
          frontend.Needs (.package owner) (.file importer)) := by
  have chain := isChain_path needs found
  obtain ⟨starts, ends, waits⟩ := path_isRoute found
  obtain ⟨front, rfl⟩ := List.getLast?_eq_some_iff.mp ends
  rcases List.eq_nil_or_concat' front with rfl | ⟨front, unit, rfl⟩
  · simp at starts
  · rw [List.append_assoc] at starts chain waits
    obtain ⟨_, last, _⟩ := List.isChain_append_cons_cons.mp waits
    obtain ⟨importer, rfl, recorded⟩ : ∃ importer, unit = .file importer ∧
        (importer, package) ∈ graph.imports := by
      cases waits_eq_true.mp last with
      | @imports importer _ _ recorded => exact ⟨importer, rfl, recorded⟩
    refine ⟨importer, recorded, ?_⟩
    rcases List.eq_nil_or_concat' front with rfl | ⟨front, unit, rfl⟩
    · left
      have same : importer = file := by simpa using starts
      exact ⟨same, by simp⟩
    · right
      rw [List.append_assoc] at chain
      obtain ⟨_, member, _⟩ := List.isChain_append_cons_cons.mp chain
      obtain ⟨owner, rfl⟩ : ∃ owner, unit = .package owner := by
        cases member with
        | @member owner => exact ⟨owner, rfl⟩
      exact ⟨packagesOn front, owner, by simp, member⟩

end

end ImportGraph

namespace ImportDesk

variable {frontend : Frontend} {desk : ImportDesk} {cycle : List String}
  (needs : ∀ unit other, desk.Waits unit other → frontend.Needs unit other)
include needs

/-- The cycle that an import closes starts with the package of the importing file and goes on with
the package that is imported. -/
theorem importCycle_spec {request : ImportRequest}
    (closes : desk.importCycle request = some cycle) :
    ∃ owner path, cycle = owner :: path ∧ frontend.IsImportPath request.package owner path ∧
      frontend.Needs (.package owner) (.file request.fromFile) := by
  simp only [importCycle, Option.bind_eq_bind, Option.bind_eq_some_iff, Option.pure_def,
    Option.some.injEq] at closes
  obtain ⟨path, found, last, ends, rfl⟩ := closes
  obtain ⟨owner, member, isPath⟩ := ImportGraph.isImportPath_to_file needs found
  obtain rfl : owner = last := Option.some.inj (isPath.ends.symm.trans ends)
  exact ⟨owner, _, rfl, isPath, member⟩

/-- The cycle that members close starts with their package and goes on with one that is imported by a
member. The import that leads back is on record. -/
theorem memberCycle_spec {package : String} {members : List String}
    (closes : desk.memberCycle package members = some cycle) :
    ∃ file ∈ members, ∃ first path, cycle = package :: path ∧
      frontend.Needs (.file file) (.package first) ∧ frontend.IsImportPath first package path ∧
      ∃ importer, (importer, package) ∈ desk.graph.imports ∧
        (importer = file ∧ path = [package] ∨ ∃ front owner, path = front ++ [owner, package] ∧
          frontend.Needs (.package owner) (.file importer)) := by
  simp only [memberCycle, Option.bind_eq_bind, Option.bind_eq_some_iff, Option.pure_def,
    Option.some.injEq] at closes
  obtain ⟨path, found, rfl⟩ := closes
  obtain ⟨file, member, found⟩ := List.exists_of_findSome?_eq_some found
  obtain ⟨first, imported, isPath⟩ := ImportGraph.isImportPath_to_package needs found
  exact ⟨file, member, first, _, rfl, imported, isPath, ImportGraph.importer_of_path needs found⟩

end ImportDesk

end Build

end GoFront
