import GoFront.Source.Position
import GoFront.Source.Span

/-!
The outline of a source file: its package clause, its imports and the names it declares at the top
level. Bodies, signatures and types are checked for balance and not kept.
-/
namespace GoFront

inductive ImportBinding where
  /-- The last element of the path names the package. -/
  | default
  | named (name : String)
  /-- All names of the package are visible without a name for it. -/
  | dot
  /-- The package is compiled and not named. -/
  | blank
  deriving DecidableEq, Repr

structure Import where
  path : String
  binding : ImportBinding
  deriving DecidableEq, Repr

namespace Import

def lastElement (path : List Char) : List Char := (path.reverse.takeWhile (· ≠ '/')).reverse

/-- The name that the import binds in its file, if any. -/
def localName (i : Import) : Option String :=
  match i.binding with
  | .default =>
    match lastElement i.path.toList with
    | [] => none
    | name => some (String.ofList name)
  | .named name => some name
  | .dot | .blank => none

end Import

inductive GroupKind where
  | var | const | type
  deriving DecidableEq, Repr

inductive DeclarationKind where
  | func | method | var | const | type
  deriving DecidableEq, Repr

namespace DeclarationKind

def label : DeclarationKind → String
  | func => "func"
  | method => "method"
  | var => "var"
  | const => "const"
  | type => "type"

end DeclarationKind

inductive Declaration where
  /-- A function, or a method if there is a receiver type. -/
  | func (name : Spanned String) (receiver : Option String) (hasBody : Bool)
  | group (kind : GroupKind) (names : List (Spanned String))
  deriving DecidableEq, Repr

namespace Declaration

def kind : Declaration → DeclarationKind
  | func _ (some _) _ => .method
  | func _ none _ => .func
  | group .var _ => .var
  | group .const _ => .const
  | group .type _ => .type

def names : Declaration → List (Spanned String)
  | func name _ _ => [name]
  | group _ names => names

end Declaration

structure SourceFile where
  package : Spanned String
  imports : List (Spanned Import)
  declarations : List (Spanned Declaration)
  lines : LineIndex
  deriving Repr

namespace SourceFile

def position (file : SourceFile) (span : Span) : Position := file.lines.position span.start

def importPaths (file : SourceFile) : List String := file.imports.map (·.value.path)

def describeImport (file : SourceFile) (i : Spanned Import) : String :=
  let place := (file.position i.span).text
  match i.value.binding with
  | .default => s!"import \"{i.value.path}\" ({place})\n"
  | .named name => s!"import {name} \"{i.value.path}\" ({place})\n"
  | .dot => s!"import . \"{i.value.path}\" ({place})\n"
  | .blank => s!"import _ \"{i.value.path}\" ({place})\n"

def describeDeclaration (file : SourceFile) (d : Spanned Declaration) : String :=
  let line (name : Spanned String) (owner : String) : String :=
    s!"{d.value.kind.label} {owner}{name.value} ({(file.position name.span).text})\n"
  match d.value with
  | .func name receiver _ => line name (match receiver with | some type => type ++ "." | none => "")
  | .group _ names => String.join (names.map (line · ""))

/-- The outline in lines: the package, then the imports, then the declared names. -/
def describe (file : SourceFile) : String :=
  s!"package {file.package.value} ({(file.position file.package.span).text})\n" ++
    String.join (file.imports.map file.describeImport) ++
    String.join (file.declarations.map file.describeDeclaration)

end SourceFile

end GoFront
