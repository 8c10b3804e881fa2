import GoFront.Names
import GoFront.Symbol

/-!
The symbol table with an index. The symbols stand in the order of their definition, and each scope
has a map from its names to places in that order.
-/
namespace GoFront

structure SymbolIndex where
  symbols : List Symbol := []
  package : Table Nat := {}
  file : Table Nat := {}
  deriving Repr

namespace SymbolIndex

def places (index : SymbolIndex) : Scope → Table Nat
  | .package => index.package
  | .file => index.file

/-- Adds a symbol behind the others and puts its place under its name in its scope. -/
def add (index : SymbolIndex) (symbol : Symbol) : SymbolIndex :=
  let place := index.symbols.length
  let symbols := index.symbols ++ [symbol]
  match symbol.kind.scope with
  | .package => { index with symbols, package := index.package.set symbol.name place }
  | .file => { index with symbols, file := index.file.set symbol.name place }

/-- The number of the new symbol, or the symbol that has the name already, and the table after it.
Nothing if the name leads to a place without a symbol. -/
def define (index : SymbolIndex) (symbol : Symbol) : Option (Except Symbol Nat × SymbolIndex) :=
  match (index.places symbol.kind.scope).get? symbol.name with
  | some place => index.symbols[place]?.map fun taken => (.error taken, index)
  | none => some (.ok index.symbols.length, index.add symbol)

/-- The symbol that a name means, if any. Nothing if the name leads to a place without a symbol. -/
def lookup (index : SymbolIndex) (name : String) : Option (Option Symbol) :=
  match (index.file.get? name).or (index.package.get? name) with
  | some place => index.symbols[place]?.map some
  | none => some none

def get? (index : SymbolIndex) (number : Nat) : Option Symbol := index.symbols[number]?

/-- The answers to a sequence of definitions, and the table after them. -/
def defineAll (index : SymbolIndex) : List Symbol → Option (List (Except Symbol Nat) × SymbolIndex)
  | [] => some ([], index)
  | symbol :: later => do
    let (answer, next) ← index.define symbol
    let (answers, last) ← next.defineAll later
    return (answer :: answers, last)

end SymbolIndex

/-- The answers to a sequence of definitions, and the table after them. -/
def SymbolTable.defineAll (table : SymbolTable) :
    List Symbol → List (Except Symbol Nat) × SymbolTable
  | [] => ([], table)
  | symbol :: later =>
    match table.define symbol with
    | .ok (number, next) =>
      let (answers, last) := next.defineAll later
      (.ok number :: answers, last)
    | .error taken =>
      let (answers, last) := table.defineAll later
      (.error taken :: answers, last)

end GoFront
