import GoFront.Proofs.Lexer.Rendering
import GoFront.Proofs.Parser.Likeness

/-! What a file declares, without the places, and when it can be written down. -/
namespace GoFront

/-- A declaration without places. -/
inductive Outline.Entry where
  | func (name : String) (receiver : Option String) (hasBody : Bool)
  | group (kind : GroupKind) (names : List String)
  deriving DecidableEq, Repr

structure Outline where
  package : String
  imports : List Import
  declarations : List Outline.Entry
  deriving DecidableEq, Repr

def Declaration.entry : Declaration → Outline.Entry
  | func name receiver hasBody => .func name.value receiver hasBody
  | group kind names => .group kind (names.map (·.value))

def SourceFile.outline (file : SourceFile) : Outline :=
  ⟨file.package.value, file.imports.map (·.value), file.declarations.map (·.value.entry)⟩

/-- The path is legal, and a name for the package is an identifier. -/
def Import.wellFormed (i : Import) : Bool :=
  i.path ≠ "" && i.path.toList.all Parser.isPathChar &&
    match i.binding with
    | .named name => isIdentifier name && name ≠ "_"
    | _ => true

def Outline.Entry.wellFormed : Outline.Entry → Bool
  | func name receiver _ => isIdentifier name && receiver.all isIdentifier
  | group _ names => names.all isIdentifier

def Outline.wellFormed (o : Outline) : Bool :=
  isIdentifier o.package && o.package ≠ "_" && o.imports.all Import.wellFormed &&
    o.declarations.all Outline.Entry.wellFormed

/-- Where the package name, the imports and the declared names stand. -/
def SourceFile.positions (file : SourceFile) : Position × List Position × List (List Position) :=
  (file.position file.package.span, file.imports.map (file.position ·.span),
    file.declarations.map fun d => d.value.names.map (file.position ·.span))

theorem map_eq_map_of_forall₂ {α β γ : Type} {rel : α → β → Prop} {f : α → γ} {g : β → γ}
    (same : ∀ a b, rel a b → f a = g b) {found : List α} {found' : List β}
    (related : List.Forall₂ rel found found') : found.map f = found'.map g := by
  induction related with
  | nil => rfl
  | cons first _ ih => rw [List.map_cons, List.map_cons, same _ _ first, ih]

theorem forall_mem_of_forall₂ {α β : Type} {rel : α → β → Prop} {p : α → Prop}
    (holds : ∀ a b, rel a b → p a) {found : List α} {found' : List β}
    (related : List.Forall₂ rel found found') : ∀ a ∈ found, p a := by
  induction related with
  | nil => simp
  | cons first _ ih => exact List.forall_mem_cons.mpr ⟨holds _ _ first, ih⟩

namespace Likeness

variable {like : Likeness}

theorem Declarations.entry_eq {d d' : Declaration} (alike : like.Declarations d d') :
    d.entry = d'.entry := by
  cases alike with
  | func named _ hasBody => rw [Declaration.entry, Declaration.entry, named.value]
  | group kind named =>
    rw [Declaration.entry, Declaration.entry,
      map_eq_map_of_forall₂ (fun _ _ alike => alike.value) named]

theorem Declarations.names {d d' : Declaration} (alike : like.Declarations d d') :
    List.Forall₂ like.Names d.names d'.names := by
  cases alike with
  | func named => exact .cons named .nil
  | group _ named => exact named

theorem Files.outline_eq {file file' : SourceFile} (alike : like.Files file file') :
    file.outline = file'.outline := by
  rw [SourceFile.outline, SourceFile.outline, alike.package.value,
    map_eq_map_of_forall₂ (fun _ _ alike => alike.value) alike.imports,
    map_eq_map_of_forall₂ (fun _ _ alike => Declarations.entry_eq alike) alike.declarations]

theorem Files.positions_eq {file file' : SourceFile} (alike : like.Files file file')
    (same : ∀ a b, like.Placed a b → file.position a = file'.position b) :
    file.positions = file'.positions := by
  rw [SourceFile.positions, SourceFile.positions, same _ _ alike.package.placed,
    map_eq_map_of_forall₂ (fun _ _ alike => same _ _ alike.placed) alike.imports]
  refine congrArg (fun found => (_, _, found)) (map_eq_map_of_forall₂ ?_ alike.declarations)
  exact fun _ _ declared =>
    map_eq_map_of_forall₂ (fun _ _ alike => same _ _ alike.placed) declared.names

theorem Imports.wellFormed {i i' : Spanned Import} (alike : like.Imports i i')
    (identifiers : ∀ name, like.Named name → isIdentifier name) : i.value.wellFormed := by
  simp only [Import.wellFormed, Bool.and_eq_true, decide_eq_true_eq, List.all_eq_true]
  refine ⟨alike.path, ?_⟩
  cases bound : i.value.binding with
  | named name =>
    obtain ⟨notBlank, named⟩ := alike.binding name bound
    simp [identifiers name named, notBlank]
  | _ => rfl

theorem Declarations.wellFormed {d d' : Declaration} (alike : like.Declarations d d')
    (identifiers : ∀ name, like.Named name → isIdentifier name) : d.entry.wellFormed := by
  cases alike with
  | @func name _ receiver named typed hasBody =>
    simp only [Declaration.entry, Outline.Entry.wellFormed, Bool.and_eq_true]
    refine ⟨identifiers _ named.named, ?_⟩
    cases receiver with
    | none => rfl
    | some type => exact identifiers type (typed type rfl)
  | group kind named =>
    simp only [Declaration.entry, Outline.Entry.wellFormed, List.all_map, List.all_eq_true]
    exact forall_mem_of_forall₂ (fun _ _ alike => identifiers _ alike.named) named

theorem Files.wellFormed {file file' : SourceFile} (alike : like.Files file file')
    (identifiers : ∀ name, like.Named name → isIdentifier name) : file.outline.wellFormed := by
  simp only [SourceFile.outline, Outline.wellFormed, Bool.and_eq_true, List.all_map,
    List.all_eq_true]
  refine ⟨⟨⟨identifiers _ alike.package.named, decide_eq_true alike.notBlank⟩, ?_⟩, ?_⟩
  · exact forall_mem_of_forall₂ (fun _ _ alike => alike.wellFormed identifiers) alike.imports
  · exact forall_mem_of_forall₂ (fun _ _ alike => Declarations.wellFormed alike identifiers)
      alike.declarations

end Likeness

end GoFront
