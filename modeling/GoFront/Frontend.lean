import GoFront.Locator
import GoFront.Parser
import GoFront.Symbol

/-!
The collaborators of the compiler: one that reads and parses a file and builds its symbols, and
one that finds the files of a package.
-/
namespace GoFront

/-- The import of a package and where it stands. -/
structure ImportSite where
  package : String
  position : Position
  deriving DecidableEq, Repr

structure ParsedFile where
  file : SourceFile
  symbols : SymbolTable
  deriving Repr

namespace SourceFile

def importSites (file : SourceFile) : List ImportSite :=
  file.imports.map fun i => ⟨i.value.path, file.position i.span⟩

end SourceFile

namespace ImportSite

def firstOfEach (sites : List ImportSite) : List ImportSite :=
  sites.foldl (fun seen site => if seen.any (·.package = site.package) then seen else seen ++ [site])
    []

end ImportSite

namespace ParsedFile

/-- The first import of each package, in order. -/
def imports (parsed : ParsedFile) : List ImportSite :=
  ImportSite.firstOfEach parsed.file.importSites

end ParsedFile

/-- The end of a call that gave no answer, with the words it left, if any. -/
structure Breakdown where
  words : Option String
  deriving DecidableEq, Repr

namespace Breakdown

def text (breakdown : Breakdown) : String := breakdown.words.getD "unknown panic"

end Breakdown

/-- Why a collaborator has no result: it refused for a reason, or broke down. -/
inductive Setback (ε : Type) where
  | refused (reason : ε)
  | crashed (breakdown : Breakdown)
  deriving DecidableEq, Repr

/-- The collaborators as functions of the names they are asked for. -/
structure Frontend where
  parse : String → Except (Setback Failure) SourceFile
  createSymbols : String → SourceFile → Except (Setback Failure) SymbolTable
  locate : String → Except (Setback LocateError) (List String)

namespace Frontend

/-- The outline of a file, or its first fault as a failure. -/
def parseText (name source : String) : Except Failure SourceFile :=
  match Parser.parseSource source with
  | .ok file => .ok file
  | .error (first :: _) => .error (.ofDiagnostic name (.ofSource source) first.diagnostic)
  | .error [] => .error (.internal name "parser failed without a diagnostic")

/-- Parses a file whose text is at hand and builds its symbols. -/
def parseSource (name source : String) : Except Failure ParsedFile := do
  let file ← parseText name source
  return ⟨file, ← file.createSymbols name⟩

def unreadable {α : Type} (name : String) (error : FileError) : Except Failure α :=
  .error (.unreadable name error.message)

def symbolsOf (name : String) (file : SourceFile) : Except (Setback Failure) SymbolTable :=
  (file.createSymbols name).mapError .refused

/-- Parses files of a tree and finds packages in it. -/
def ofTree (tree : Tree) (locator : Locator) : Frontend where
  parse name :=
    match tree.read name with
    | .ok source => (parseText name source).mapError .refused
    | .error error => .error (.refused (.unreadable name error.message))
  createSymbols := symbolsOf
  locate package := (locator.locate tree.entries? package).mapError .refused

def textOf (files : List (String × String)) (name : String) : Except Failure String :=
  match files.lookup name with
  | some source => .ok source
  | none => .error (.unreadable name "no such file")

def parseStored (files : List (String × String)) (name : String) : Except Failure SourceFile := do
  parseText name (← textOf files name)

def membersOf (packages : List (String × List String)) (package : String) :
    Except LocateError (List String) :=
  match packages.lookup package with
  | some files => .ok files
  | none => .error (.notFound package [])

def ofMemory (files : List (String × String)) (packages : List (String × List String)) :
    Frontend where
  parse name := (parseStored files name).mapError .refused
  createSymbols := symbolsOf
  locate package := (membersOf packages package).mapError .refused

end Frontend

end GoFront
