import GoFront.Failure
import GoFront.SourceFile

/-!
The names that a file declares and binds. Declarations and imports live in two scopes; a name may
be taken once in each, and a file may not use one name in both.
-/
namespace GoFront

inductive SymbolKind where
  | declared (kind : DeclarationKind)
  | imported (path : String)
  deriving DecidableEq, Repr

inductive Scope where
  | package | file
  deriving DecidableEq, Repr

namespace SymbolKind

/-- Declarations belong to the package, imports to the file. -/
def scope : SymbolKind → Scope
  | declared _ => .package
  | imported _ => .file

end SymbolKind

structure Symbol where
  name : String
  kind : SymbolKind
  span : Span
  position : Position
  deriving DecidableEq, Repr

/-- Symbols in the order of their definition. A symbol's place in the list is its number. -/
structure SymbolTable where
  symbols : List Symbol := []
  deriving Repr

namespace SymbolTable

def find? (table : SymbolTable) (scope : Scope) (name : String) : Option Symbol :=
  table.symbols.find? fun s => s.name = name && s.kind.scope = scope

/-- Adds a symbol and gives its number, or gives the symbol that has the name already. -/
def define (table : SymbolTable) (symbol : Symbol) : Except Symbol (Nat × SymbolTable) :=
  match table.find? symbol.kind.scope symbol.name with
  | some taken => .error taken
  | none => .ok (table.symbols.length, ⟨table.symbols ++ [symbol]⟩)

/-- The symbol that a name means: the import of that name, else the declaration. -/
def lookup (table : SymbolTable) (name : String) : Option Symbol :=
  (table.find? .file name).or (table.find? .package name)

def get? (table : SymbolTable) (number : Nat) : Option Symbol := table.symbols[number]?

def size (table : SymbolTable) : Nat := table.symbols.length

/-- Defines a declared symbol, or reports that the name is taken. -/
def declare (table : SymbolTable) (symbol : Symbol) : Except Diagnostic SymbolTable :=
  match table.define symbol with
  | .ok (_, table) => .ok table
  | .error first => .error (Fault.diagnostic (.redeclared symbol.name first.position) symbol.span)

/-- Defines the name of an import, or reports that it is taken in either scope. -/
def bindImport (table : SymbolTable) (path : String) (symbol : Symbol) :
    Except Diagnostic SymbolTable :=
  match table.lookup symbol.name with
  | some first =>
    .error <| (Fault.diagnostic (.redeclared symbol.name first.position) symbol.span).addHint
      s!"import \"{path}\" under a different name"
  | none => .ok ⟨table.symbols ++ [symbol]⟩

end SymbolTable

namespace Declaration

/-- The names under which the declaration enters the package scope: a method under its type and
its name. -/
def keys : Declaration → List (Spanned String)
  | func name (some type) _ => [⟨s!"{type}.{name.value}", name.span⟩]
  | func name none _ => [name]
  | group _ names => names

/-- The underscore declares nothing, and functions named `init` may be many. -/
def isAnonymous (kind : DeclarationKind) (key : String) : Bool :=
  key = "_" || (kind = .func && key = "init")

end Declaration

namespace SourceFile

def declaredSymbols (file : SourceFile) : List Symbol :=
  file.declarations.flatMap fun d =>
    (d.value.keys.filter fun key => !Declaration.isAnonymous d.value.kind key.value).map fun key =>
      ⟨key.value, .declared d.value.kind, key.span, file.position key.span⟩

/-- The symbols of the imports that bind a name, in order, with the imported paths. -/
def importedSymbols (file : SourceFile) : List (String × Symbol) :=
  file.imports.filterMap fun i =>
    i.value.localName.map fun name =>
      (i.value.path, ⟨name, .imported i.value.path, i.span, file.position i.span⟩)

/-- The symbol table of a file, or the first clash of names. -/
def symbolTable (file : SourceFile) : Except Diagnostic SymbolTable := do
  let declared ← file.declaredSymbols.foldlM SymbolTable.declare {}
  file.importedSymbols.foldlM (fun table (path, symbol) => table.bindImport path symbol) declared

/-- The symbol table of the named file; a clash of names is its failure. -/
def createSymbols (file : SourceFile) (name : String) : Except Failure SymbolTable :=
  match file.symbolTable with
  | .ok table => .ok table
  | .error clash => .error (.ofDiagnostic name file.lines clash)

end SourceFile

end GoFront
