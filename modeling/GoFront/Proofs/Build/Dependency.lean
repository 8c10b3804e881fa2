import GoFront.Build.Schedule
import Mathlib.Logic.Relation

/-!
What the units of a program need, before anything is compiled. `Good` says from the leaves up which
units can be compiled, `Faulty` from the top down which cannot.
-/
namespace GoFront.Frontend
open Build Relation

/-- The first unit needs the second: a file the packages it imports, a package its members. -/
inductive Needs (frontend : Frontend) : UnitName → UnitName → Prop where
  | imports {file package : String} {parsed : ParsedFile}
      (prepared : frontend.prepare file = .ok parsed)
      (imported : package ∈ parsed.file.importPaths) :
      Needs frontend (.file file) (.package package)
  | member {package file : String} {files : List String}
      (located : frontend.locate package = .ok files) (listed : file ∈ files.map Path.normalize) :
      Needs frontend (.package package) (.file file)

/-- The unit cannot be made whatever it needs: the file has no parse or no symbols, or the package
is not found. -/
inductive Broken (frontend : Frontend) : UnitName → Prop where
  | file {file : String} {failure : Failure} (failed : frontend.prepare file = .error failure) :
      Broken frontend (.file file)
  | package {package : String} {fault : Setback LocateError}
      (failed : frontend.locate package = .error fault) : Broken frontend (.package package)

/-- The least set of units that are not broken and need only units of the set. -/
inductive Good (frontend : Frontend) : UnitName → Prop where
  | file {file : String} {parsed : ParsedFile} (prepared : frontend.prepare file = .ok parsed)
      (imports : ∀ package ∈ parsed.file.importPaths, Good frontend (.package package)) :
      Good frontend (.file file)
  | package {package : String} {files : List String}
      (located : frontend.locate package = .ok files)
      (members : ∀ file ∈ files.map Path.normalize, Good frontend (.file file)) :
      Good frontend (.package package)

/-- The unit needs, directly or through others, a unit that is broken or needs itself. -/
def Faulty (frontend : Frontend) (unit : UnitName) : Prop :=
  ∃ cause, ReflTransGen frontend.Needs unit cause ∧
    (frontend.Broken cause ∨ TransGen frontend.Needs cause cause)

/-- The units that a unit needs, in order. -/
def needed (frontend : Frontend) : UnitName → List UnitName
  | .file file =>
    match frontend.prepare file with
    | .ok parsed => parsed.file.importPaths.map .package
    | .error _ => []
  | .package package =>
    match frontend.locate package with
    | .ok files => (files.map Path.normalize).map .file
    | .error _ => []

variable {frontend : Frontend} {unit other : UnitName}

theorem mem_needed : other ∈ frontend.needed unit ↔ frontend.Needs unit other := by
  constructor
  · intro member
    cases unit with
    | file file =>
      cases prepared : frontend.prepare file with
      | error failure => simp [needed, prepared] at member
      | ok parsed =>
        simp only [needed, prepared] at member
        obtain ⟨package, imported, rfl⟩ := List.mem_map.mp member
        exact .imports prepared imported
    | package package =>
      cases located : frontend.locate package with
      | error fault => simp [needed, located] at member
      | ok files =>
        simp only [needed, located] at member
        obtain ⟨file, listed, rfl⟩ := List.mem_map.mp member
        exact .member located listed
  · intro needs
    cases needs with
    | imports prepared imported =>
      simp only [needed, prepared]
      exact List.mem_map_of_mem imported
    | member located listed =>
      simp only [needed, located]
      exact List.mem_map_of_mem listed

instance : Decidable (frontend.Needs unit other) := decidable_of_iff _ mem_needed

/-- Whether a unit is broken. -/
def isBroken (frontend : Frontend) : UnitName → Bool
  | .file file => (frontend.prepare file).toOption.isNone
  | .package package => (frontend.locate package).toOption.isNone

theorem isBroken_eq_true : frontend.isBroken unit = true ↔ frontend.Broken unit := by
  constructor
  · intro broken
    cases unit with
    | file file =>
      cases prepared : frontend.prepare file with
      | ok parsed => simp [isBroken, prepared, Except.toOption] at broken
      | error failure => exact .file prepared
    | package package =>
      cases located : frontend.locate package with
      | ok files => simp [isBroken, located, Except.toOption] at broken
      | error fault => exact .package located
  · intro broken
    cases broken with
    | file failed => simp [isBroken, failed, Except.toOption]
    | package failed => simp [isBroken, failed, Except.toOption]

instance : Decidable (frontend.Broken unit) := decidable_of_iff _ isBroken_eq_true

namespace Good

theorem of_needs (whole : ¬ frontend.Broken unit)
    (needs : ∀ other, frontend.Needs unit other → frontend.Good other) : frontend.Good unit := by
  cases unit with
  | file file =>
    cases prepared : frontend.prepare file with
    | error failure => exact (whole (.file prepared)).elim
    | ok parsed => exact .file prepared fun package imported => needs _ (.imports prepared imported)
  | package package =>
    cases located : frontend.locate package with
    | error fault => exact (whole (.package located)).elim
    | ok files => exact .package located fun file listed => needs _ (.member located listed)

theorem not_broken (good : frontend.Good unit) : ¬ frontend.Broken unit := by
  intro broken
  cases broken with
  | file failed =>
    cases good with
    | file prepared => simp [failed] at prepared
  | package failed =>
    cases good with
    | package located => simp [failed] at located

theorem needs (good : frontend.Good unit) (needed : frontend.Needs unit other) :
    frontend.Good other := by
  cases needed with
  | imports prepared imported =>
    cases good with
    | file again imports =>
      obtain rfl := Except.ok.inj (prepared.symm.trans again)
      exact imports _ imported
  | member located listed =>
    cases good with
    | package again members =>
      obtain rfl := Except.ok.inj (located.symm.trans again)
      exact members _ listed

theorem reaches (good : frontend.Good unit) (reached : ReflTransGen frontend.Needs unit other) :
    frontend.Good other := by
  induction reached with
  | refl => exact good
  | tail _ needed ih => exact ih.needs needed

theorem acyclic (good : frontend.Good unit) : ¬ TransGen frontend.Needs unit unit := by
  -- A cycle through a unit passes through one of the units it needs, which came before it.
  have turn : ∀ {unit}, (∀ other, frontend.Needs unit other →
      ¬ TransGen frontend.Needs other other) → ¬ TransGen frontend.Needs unit unit := by
    intro unit below cycle
    obtain ⟨other, needed, back⟩ := TransGen.head'_iff.mp cycle
    exact below other needed (TransGen.tail' back needed)
  induction good with
  | file prepared _ ih =>
    refine turn fun other needed => ?_
    cases needed with
    | imports again imported =>
      obtain rfl := Except.ok.inj (prepared.symm.trans again)
      exact ih _ imported
  | package located _ ih =>
    refine turn fun other needed => ?_
    cases needed with
    | member again listed =>
      obtain rfl := Except.ok.inj (located.symm.trans again)
      exact ih _ listed

end Good

namespace Faulty

theorem of_broken (broken : frontend.Broken unit) : frontend.Faulty unit :=
  ⟨unit, .refl, Or.inl broken⟩

theorem of_cycle (cycle : TransGen frontend.Needs unit unit) : frontend.Faulty unit :=
  ⟨unit, .refl, Or.inr cycle⟩

theorem of_needs (needed : frontend.Needs unit other) (faulty : frontend.Faulty other) :
    frontend.Faulty unit := by
  obtain ⟨cause, reached, reason⟩ := faulty
  exact ⟨cause, reached.head needed, reason⟩

theorem not_good (faulty : frontend.Faulty unit) : ¬ frontend.Good unit := by
  intro good
  obtain ⟨cause, reached, broken | cycle⟩ := faulty
  · exact (good.reaches reached).not_broken broken
  · exact (good.reaches reached).acyclic cycle

end Faulty

end GoFront.Frontend
