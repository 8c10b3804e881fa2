import GoFront.Proofs.Parser.Outline

/-!
Outlines written out as files, one item a line, and the tokens of such a file. Every line ends
where a semicolon is inserted.
-/
namespace GoFront

open Lexer

/-! ### The text -/

namespace Import

def text (i : Import) : String :=
  match i.binding with
  | .default => "\"" ++ i.path ++ "\""
  | .named name => name ++ " \"" ++ i.path ++ "\""
  | .dot => ". \"" ++ i.path ++ "\""
  | .blank => "_ \"" ++ i.path ++ "\""

end Import

/-- Imports as they are laid out: one on its own, or a group in parentheses. -/
inductive ImportBlock where
  | single (i : Import)
  | group (imports : List Import)

namespace ImportBlock

def imports : ImportBlock → List Import
  | single i => [i]
  | group imports => imports

def text : ImportBlock → String
  | single i => "import " ++ i.text
  | group imports => "import ( " ++ "\n".intercalate (imports.map Import.text) ++ " )"

end ImportBlock

def GroupKind.keyword : GroupKind → Keyword
  | var => .varKw
  | const => .constKw
  | type => .typeKw

namespace Outline.Entry

def text : Outline.Entry → String
  | func name receiver hasBody =>
    "func " ++ receiver.elim "" (fun type => "(r " ++ type ++ ") ") ++ name ++ "()" ++
      (if hasBody then " \x7b\x7d" else "")
  | group kind names =>
    kind.keyword.spelling ++ " ( " ++ "\n".intercalate (names.map (· ++ " int")) ++ " )"

end Outline.Entry

/-- The file with this outline, its imports laid out in these blocks. -/
def Outline.print (o : Outline) (layout : List ImportBlock) : String :=
  let lines := ("package " ++ o.package) ::
    (layout.map ImportBlock.text ++ o.declarations.map Outline.Entry.text)
  String.join (lines.map (· ++ "\n"))

/-! ### Its tokens -/

/-- The semicolon that ends a line. -/
abbrev semicolon : TokenKind := .punctuation .semicolon

abbrev opening : TokenKind := .punctuation (.opening .paren)

abbrev closing : TokenKind := .punctuation (.closing .paren)

def parenthesised (items : List (List TokenKind)) : List TokenKind :=
  opening :: [semicolon].intercalate items ++ [closing]

/-- The body of a function, if it has one. -/
def body (hasBody : Bool) : List TokenKind :=
  if hasBody then [.punctuation (.opening .brace), .punctuation (.closing .brace)] else []

def Import.kinds (i : Import) : List TokenKind :=
  match i.binding with
  | .default => [.string i.path]
  | .named name => [.ident name, .string i.path]
  | .dot => [.punctuation .dot, .string i.path]
  | .blank => [.ident "_", .string i.path]

def ImportBlock.kinds : ImportBlock → List TokenKind
  | single i => .keyword .importKw :: i.kinds
  | group imports => .keyword .importKw :: parenthesised (imports.map Import.kinds)

def Outline.Entry.kinds : Outline.Entry → List TokenKind
  | func name receiver hasBody =>
    .keyword .funcKw ::
      receiver.elim [] (fun type => [opening, .ident "r", .ident type, closing]) ++
      [.ident name, opening, closing] ++ body hasBody
  | group kind names =>
    .keyword kind.keyword :: parenthesised (names.map fun name => [.ident name, .ident "int"])

/-- The tokens after the package clause. -/
def Outline.itemKinds (o : Outline) (layout : List ImportBlock) : List TokenKind :=
  layout.flatMap (fun block => block.kinds ++ [semicolon]) ++
    o.declarations.flatMap fun entry => entry.kinds ++ [semicolon]

def Outline.kinds (o : Outline) (layout : List ImportBlock) : List TokenKind :=
  .keyword .packageKw :: .ident o.package :: semicolon :: o.itemKinds layout

/-- The text has these tokens. `canEnd` says that the token before it can end a line. -/
inductive Printed : Bool → List Char → List TokenKind → Prop where
  | nil : Printed false [] []
  | space {canEnd : Bool} {text : List Char} {kinds : List TokenKind}
      (later : Printed canEnd text kinds) : Printed canEnd (' ' :: text) kinds
  | feed {text : List Char} {kinds : List TokenKind} (later : Printed false text kinds) :
      Printed true ('\n' :: text) (semicolon :: kinds)
  | token {canEnd : Bool} (kind : TokenKind) {text : List Char} {kinds : List TokenKind}
      (renderable : kind.renderable) (ends : Ends kind text)
      (later : Printed kind.endsLine text kinds) :
      Printed canEnd (kind.render.toList ++ text) (kind :: kinds)

namespace Printed

variable {canEnd : Bool} {text : List Char} {kinds : List TokenKind}

theorem accepted (printed : Printed canEnd text kinds) :
    ∀ piece ∈ pieces text, piece.Accepted := by
  induction printed with
  | nil => simp [pieces]
  | space _ ih =>
    rw [pieces_space]
    exact List.forall_mem_cons.mpr ⟨⟨_, rfl⟩, ih⟩
  | feed _ ih =>
    rw [pieces_lineFeed]
    exact List.forall_mem_cons.mpr ⟨⟨_, rfl⟩, ih⟩
  | token kind renderable ends _ ih =>
    rw [pieces_render renderable ends]
    exact List.forall_mem_cons.mpr ⟨⟨_, rfl⟩, ih⟩

theorem kinds_eq (printed : Printed canEnd text kinds) (offset : Nat) :
    (tokens offset canEnd (pieces text)).map (·.kind) = kinds ++ [.eof] := by
  induction printed generalizing offset with
  | nil => rw [pieces]; rfl
  | space _ ih =>
    rw [pieces_space]
    exact ih _
  | feed _ ih =>
    rw [pieces_lineFeed]
    exact congrArg (semicolon :: ·) (ih _)
  | token kind renderable ends _ ih =>
    rw [pieces_render renderable ends]
    simp only [tokens, List.map_cons, ih, List.cons_append]

theorem keyword (word : Keyword) (later : Printed word.endsStatement (' ' :: text) kinds) :
    Printed canEnd (word.spelling.toList ++ ' ' :: text) (.keyword word :: kinds) :=
  .token (.keyword word) rfl (ends_space _ _) later

theorem ident (name : String) (identifier : isIdentifier name) {next : Char}
    (stops : isWordChar next = false) (later : Printed true (next :: text) kinds) :
    Printed canEnd (name.toList ++ next :: text) (.ident name :: kinds) := by
  refine .token (.ident name) identifier ?_ later
  rintro c isNext
  rwa [← Option.mem_some_iff.mp isNext]

theorem sign (c : Char) (sign : Punctuation) (spelled : sign.spelling.toList = [c])
    (ends : Ends (.punctuation sign) text) (later : Printed sign.isClosing text kinds) :
    Printed canEnd (c :: text) (.punctuation sign :: kinds) := by
  have isText : c :: text = (TokenKind.punctuation sign).render.toList ++ text := by
    rw [TokenKind.render, spelled, List.singleton_append]
  rw [isText]
  exact .token (.punctuation sign) rfl ends later

/-- The text and the tokens of something after which a line can end. -/
structure Item (written : List Char) (kindsOf : List TokenKind) : Prop where
  before : ∀ {canEnd blank after kinds}, blank ∈ blanks → Printed true (blank :: after) kinds →
    Printed canEnd (written ++ blank :: after) (kindsOf ++ kinds)

theorem items {α : Type} {written : α → List Char} {kindsOf : α → List TokenKind} {list : List α}
    (item : ∀ a ∈ list, Item (written a) (kindsOf a)) (later : Printed true text kinds) :
    Printed canEnd (['\n'].intercalate (list.map written) ++ ' ' :: ')' :: text)
      ([semicolon].intercalate (list.map kindsOf) ++ closing :: kinds) := by
  have close : ∀ canEnd, Printed canEnd (' ' :: ')' :: text) (closing :: kinds) :=
    fun _ => .space (.sign ')' (.closing .paren) rfl trivial later)
  induction list generalizing canEnd with
  | nil => exact close canEnd
  | cons a rest ih =>
    obtain ⟨first, others⟩ := List.forall_mem_cons.mp item
    cases rest with
    | nil => simpa using first.before (by decide) (close true)
    | cons b rest =>
      have line : Printed canEnd _ _ := first.before (by decide : '\n' ∈ blanks) (.feed (ih others))
      simpa using line

theorem group {α : Type} {written : α → List Char} {kindsOf : α → List TokenKind} {list : List α}
    (item : ∀ a ∈ list, Item (written a) (kindsOf a)) (word : Keyword) :
    Item (word.spelling.toList ++ ' ' :: '(' :: ' ' ::
        (['\n'].intercalate (list.map written) ++ [' ', ')']))
      (.keyword word :: parenthesised (list.map kindsOf)) := by
  refine ⟨fun {canEnd blank after kinds} isBlank later => ?_⟩
  have inside : Printed false _ _ := items item later
  have opened : Printed word.endsStatement _ _ :=
    .sign '(' (.opening .paren) rfl trivial (.space inside)
  have whole : Printed canEnd _ _ := .keyword word (.space opened)
  simpa [parenthesised] using whole

end Printed

theorem render_path {path : String} (legal : ∀ c ∈ path.toList, Parser.isPathChar c) :
    (TokenKind.string path).render.toList = '"' :: (path.toList ++ ['"']) := by
  have plain : ∀ c ∈ path.toList, TokenKind.escaped '"' c = [c] := by
    intro c mem
    have isLegal := legal c mem
    have ne : ∀ other, Parser.isPathChar other = false → c ≠ other := by
      rintro other illegal rfl
      simp [illegal] at isLegal
    simp [TokenKind.escaped, ne '"' (by decide), ne '\\' (by decide), ne '\n' (by decide)]
  rw [TokenKind.render, String.toList_ofList, TokenKind.quoted, List.flatMap_congr plain]
  simp

theorem Import.printed {i : Import} (wellFormed : i.wellFormed) :
    Printed.Item i.text.toList i.kinds := by
  refine ⟨fun {canEnd blank after kinds} isBlank later => ?_⟩
  simp only [Import.wellFormed, Bool.and_eq_true, decide_eq_true_eq, List.all_eq_true] at wellFormed
  obtain ⟨⟨-, legal⟩, bound⟩ := wellFormed
  have path : ∀ canEnd, Printed canEnd ('"' :: (i.path.toList ++ '"' :: blank :: after))
      (.string i.path :: kinds) := by
    intro canEnd
    have ends : Ends (.string i.path) (blank :: after) := by simpa [Ends] using isBlank
    have printed : Printed canEnd _ _ := .token (.string i.path) rfl ends later
    rw [render_path legal] at printed
    simpa using printed
  unfold Import.text Import.kinds
  cases isBound : i.binding with
  | default => simpa using path canEnd
  | dot =>
    have printed : Printed canEnd _ _ := .sign '.' .dot rfl (ends_space _ _) (.space (path false))
    simpa using printed
  | blank =>
    have printed : Printed canEnd _ _ := .ident "_" (by decide) (by decide) (.space (path true))
    simpa using printed
  | named name =>
    simp only [isBound, Bool.and_eq_true] at bound
    have printed : Printed canEnd _ _ := .ident name bound.1 (by decide) (.space (path true))
    simpa using printed

theorem ImportBlock.printed {block : ImportBlock}
    (wellFormed : ∀ i ∈ block.imports, i.wellFormed) :
    Printed.Item block.text.toList block.kinds := by
  cases block with
  | single i =>
    refine ⟨fun {canEnd blank after kinds} isBlank later => ?_⟩
    have item := i.printed (wellFormed i (by simp [imports]))
    have spec : Printed false _ _ := item.before isBlank later
    have printed : Printed canEnd _ _ := .keyword .importKw (.space spec)
    simpa [text, ImportBlock.kinds, Keyword.spelling] using printed
  | group imports =>
    have printed := Printed.group (fun i mem => Import.printed (wellFormed i mem)) .importKw
    simpa [text, ImportBlock.kinds, ImportBlock.imports, Keyword.spelling,
      String.toList_intercalate, Function.comp_def] using printed

theorem Outline.Entry.printed {entry : Outline.Entry} (wellFormed : entry.wellFormed) :
    Printed.Item entry.text.toList entry.kinds := by
  cases entry with
  | func name receiver hasBody =>
    simp only [Outline.Entry.wellFormed, Bool.and_eq_true] at wellFormed
    obtain ⟨named, typed⟩ := wellFormed
    refine ⟨fun {canEnd blank after kinds} isBlank later => ?_⟩
    have body : Printed true ((if hasBody then [' ', '\x7b', '\x7d'] else []) ++ blank :: after)
        (body hasBody ++ kinds) := by
      cases hasBody with
      | false => exact later
      | true =>
        refine .space (.sign '\x7b' (.opening .brace) rfl trivial ?_)
        exact .sign '\x7d' (.closing .brace) rfl trivial later
    have signature : ∀ canEnd, Printed canEnd _ _ := fun canEnd =>
      .ident name named (by decide : isWordChar '(' = false)
        (.sign '(' (.opening .paren) rfl trivial (.sign ')' (.closing .paren) rfl trivial body))
    cases receiver with
    | none =>
      have printed : Printed canEnd _ _ := .keyword .funcKw (.space (signature false))
      cases hasBody <;> simpa [text, Outline.Entry.kinds, Keyword.spelling] using printed
    | some type =>
      have close : Printed true _ _ :=
        .sign ')' (.closing .paren) rfl trivial (.space (signature true))
      have inside : Printed false _ _ := .ident "r" (by decide) (by decide : isWordChar ' ' = false)
        (.space (.ident type typed (by decide) close))
      have printed : Printed canEnd _ _ :=
        .keyword .funcKw (.space (.sign '(' (.opening .paren) rfl trivial inside))
      cases hasBody <;> simpa [text, Outline.Entry.kinds, Keyword.spelling] using printed
  | group kind names =>
    have item : ∀ name ∈ names,
        Printed.Item (name.toList ++ ' ' :: "int".toList) [.ident name, .ident "int"] := by
      refine fun name mem => ⟨fun {canEnd blank after kinds} isBlank later => ?_⟩
      have identifier : isIdentifier name := List.all_eq_true.mp wellFormed name mem
      have type : Printed true _ _ := .ident "int" (by decide) (blank_ends_number isBlank).1 later
      have printed : Printed canEnd _ _ :=
        .ident name identifier (by decide : isWordChar ' ' = false) (.space type)
      simpa using printed
    have printed := Printed.group item kind.keyword
    simpa [text, Outline.Entry.kinds, String.toList_intercalate, Function.comp_def] using printed

theorem Printed.lines {α : Type} {written : α → String} {kindsOf : α → List TokenKind}
    {list : List α} (item : ∀ a ∈ list, Item (written a).toList (kindsOf a)) {text : List Char}
    {kinds : List TokenKind} (later : Printed false text kinds) :
    Printed false (list.flatMap (fun a => (written a).toList ++ ['\n']) ++ text)
      (list.flatMap (fun a => kindsOf a ++ [semicolon]) ++ kinds) := by
  induction list with
  | nil => exact later
  | cons a rest ih =>
    obtain ⟨first, others⟩ := List.forall_mem_cons.mp item
    have line : Printed false _ _ := first.before (by decide : '\n' ∈ blanks) (.feed (ih others))
    simpa using line

theorem Outline.printed {o : Outline} {layout : List ImportBlock} (wellFormed : o.wellFormed)
    (laid : layout.flatMap ImportBlock.imports = o.imports) :
    Printed false (o.print layout).toList (o.kinds layout) := by
  simp only [Outline.wellFormed, Bool.and_eq_true, List.all_eq_true] at wellFormed
  obtain ⟨⟨⟨package, -⟩, imports⟩, declarations⟩ := wellFormed
  have blocks : ∀ block ∈ layout, Printed.Item block.text.toList block.kinds := by
    intro block mem
    refine ImportBlock.printed fun i isImport => imports i ?_
    rw [← laid]
    exact List.mem_flatMap.mpr ⟨block, mem, isImport⟩
  have entries : ∀ entry ∈ o.declarations, Printed.Item entry.text.toList entry.kinds :=
    fun entry mem => entry.printed (declarations entry mem)
  have later := Printed.lines blocks (Printed.lines entries .nil)
  have name : Printed false _ _ := .ident o.package package (by decide) (.feed later)
  have printed : Printed false _ _ := .keyword .packageKw (.space name)
  simpa [print, Outline.kinds, Outline.itemKinds, Keyword.spelling, String.toList_join,
    List.flatMap_map, Function.comp_def] using printed

end GoFront
