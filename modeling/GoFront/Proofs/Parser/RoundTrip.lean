import GoFront.Proofs.Parser.Print

/-!
Parsing undoes printing. The parser looks at the kinds of the tokens only (`Likeness.parse`), so it
is run on tokens that all stand at the start of the file. `parseSource_print` goes back from there
to texts.
-/
namespace GoFront

/-- The place of all tokens that only have a kind. -/
def nowhere : Span := ⟨0, 0⟩

abbrev unplaced {α : Type} (value : α) : Spanned α := ⟨value, nowhere⟩

/-- The declaration of the entry, with all its names nowhere. -/
def Outline.Entry.declaration : Outline.Entry → Declaration
  | func name receiver hasBody => .func (unplaced name) receiver hasBody
  | group kind names => .group kind (names.map unplaced)

def bare (kinds : List TokenKind) : List Token := kinds.map fun kind => ⟨kind, nowhere⟩

def Stream.bare (kinds : List TokenKind) : Stream := ⟨GoFront.bare kinds, nowhere⟩

namespace Parser

theorem drop_bare (taken rest : List TokenKind) :
    (bare (taken ++ rest)).drop taken.length = bare rest := by
  simp [bare]

theorem Stream.drop_bare (taken rest : List TokenKind) :
    (Stream.bare (taken ++ rest)).drop taken.length = .bare rest := by
  rw [Stream.drop, Stream.bare, Parser.drop_bare, Stream.bare]

theorem bare_cons (kind : TokenKind) (rest : List TokenKind) :
    bare (kind :: rest) = ⟨kind, nowhere⟩ :: bare rest :=
  rfl

theorem Stream.bare_cons (kind : TokenKind) (rest : List TokenKind) :
    Stream.bare (kind :: rest) = ⟨⟨kind, nowhere⟩ :: bare rest, nowhere⟩ :=
  rfl

/-- From tokens of these kinds the parser reads the value and leaves the rest. -/
def Parses {α : Type} (p : Parser α) (kinds : List TokenKind) (value : α)
    (rest : List TokenKind) : Prop :=
  ∃ taken, kinds = taken ++ rest ∧ p (.bare kinds) = .ok value taken.length

namespace Parses

variable {α β : Type} {p : Parser α} {next : α → Parser β} {value : α} {found : β}
  {kind : TokenKind} {kinds rest later : List TokenKind}

theorem pure (value : α) : Parses (pure value) kinds value kinds := ⟨[], rfl, rfl⟩

theorem bind (first : Parses p kinds value rest) (second : Parses (next value) rest found later) :
    Parses (p >>= next) kinds found later := by
  obtain ⟨taken, rfl, isOk⟩ := first
  obtain ⟨more, rfl, isFound⟩ := second
  refine ⟨taken ++ more, by rw [List.append_assoc], ?_⟩
  simp only [Bind.bind, isOk, Stream.drop_bare, isFound, Reply.after, List.length_append]

theorem peek : Parses peek (kind :: rest) ⟨kind, nowhere⟩ (kind :: rest) := ⟨[], rfl, rfl⟩

theorem advance : Parses advance (kind :: rest) ⟨kind, nowhere⟩ rest := ⟨[kind], rfl, rfl⟩

theorem map (f : α → β) (parses : Parses p kinds value rest) :
    Parses (f <$> p) kinds (f value) rest :=
  parses.bind (pure (f value))

theorem identifier (what name : String) :
    Parses (identifier what) (.ident name :: rest) (unplaced name) rest :=
  ⟨[.ident name], rfl, rfl⟩

theorem atSign (sign : Punctuation) :
    Parses (atSign sign) (kind :: rest) (kind = .punctuation sign) (kind :: rest) :=
  ⟨[], rfl, rfl⟩

theorem lineEnd : Parses lineEnd (semicolon :: rest) () rest := ⟨[semicolon], rfl, rfl⟩

theorem lineEnd_closing : Parses Parser.lineEnd (closing :: rest) () (closing :: rest) :=
  ⟨[], rfl, rfl⟩

theorem importPath {path : String} (nonempty : path ≠ "")
    (legal : ∀ c ∈ path.toList, isPathChar c) :
    Parses importPath (.string path :: rest) (unplaced path) rest := by
  have noFault : path.toList.find? (!isPathChar ·) = none := by simpa using legal
  refine peek.bind (advance.bind ?_)
  rw [if_neg nonempty, noFault]
  exact pure _

theorem importSpec {i : Import} (wellFormed : i.wellFormed) :
    Parses importSpec (i.kinds ++ rest) (unplaced i) rest := by
  obtain ⟨path, binding⟩ := i
  simp only [Import.wellFormed, Bool.and_eq_true, decide_eq_true_eq, List.all_eq_true] at wellFormed
  obtain ⟨⟨nonempty, legal⟩, bound⟩ := wellFormed
  have spec : ∀ binding, Parses (do
      let path ← Parser.importPath
      return (⟨⟨path.value, binding⟩, nowhere.merge path.span⟩ : Spanned Import))
      (.string path :: rest) ⟨⟨path, binding⟩, nowhere⟩ rest :=
    fun binding => (importPath nonempty legal).bind (pure _)
  cases binding with
  | default => exact peek.bind (spec .default)
  | dot => exact peek.bind (advance.bind (spec .dot))
  | blank => exact peek.bind (advance.bind (spec .blank))
  | named name =>
    simp only [Bool.and_eq_true, decide_eq_true_eq] at bound
    have isNamed : bindingOf (.ident name) = .named name := if_neg bound.2
    refine peek.bind ?_
    dsimp only
    rw [isNamed]
    exact advance.bind (spec (.named name))

/-! ### Lists of items -/

theorem items_nil {item : Parser α} (opener : Span) :
    Parses (items item opener) (closing :: rest) [] rest := by
  refine ⟨[closing], rfl, ?_⟩
  rw [Stream.bare_cons, items]
  rfl

/-- A parser that takes something takes the first token. -/
theorem uncons (parses : Parses p (kind :: kinds) value rest)
    (shorter : rest.length ≤ kinds.length) :
    ∃ taken, kinds = taken ++ rest ∧
      p ⟨⟨kind, nowhere⟩ :: bare kinds, nowhere⟩ = .ok value (taken.length + 1) := by
  obtain ⟨taken, split, isOk⟩ := parses
  cases taken with
  | nil =>
    rw [List.nil_append] at split
    simp [← split] at shorter
  | cons first taken =>
    obtain ⟨rfl, isKinds⟩ := List.cons.inj split
    exact ⟨taken, isKinds, isOk⟩

theorem items_cons {item : Parser α} {opener : Span} {values : List α}
    (noSemicolon : kind ≠ semicolon) (noClosing : kind ≠ closing)
    (one : Parses (do let value ← item; Parser.lineEnd; return value) (kind :: kinds) value later)
    (shorter : later.length ≤ kinds.length)
    (others : Parses (items item opener) later values rest) :
    Parses (items item opener) (kind :: kinds) (value :: values) rest := by
  obtain ⟨taken, rfl, isOk⟩ := one.uncons shorter
  obtain ⟨more, rfl, isOthers⟩ := others
  refine ⟨kind :: taken ++ more, by simp, ?_⟩
  rw [Stream.bare] at isOthers
  rw [Stream.bare_cons, items, if_neg noSemicolon, if_neg noClosing]
  simp only [isOk, Nat.add_sub_cancel, drop_bare, isOthers, Reply.map, Reply.after]
  simp
  omega

/-- The parser reads the value from tokens of these kinds and stops before a semicolon or a closing
parenthesis. The tokens start with neither. -/
structure ReadsItem (item : Parser α) (kinds : List TokenKind) (value : α) : Prop where
  reads : ∀ {stop} rest, stop = semicolon ∨ stop = closing →
    Parses item (kinds ++ stop :: rest) value (stop :: rest)
  starts : ∃ kind more, kinds = kind :: more ∧ kind ≠ semicolon ∧ kind ≠ closing

theorem items {item : Parser α} {opener : Span} {list : List β} {kindsOf : β → List TokenKind}
    {valueOf : β → α} (one : ∀ b ∈ list, ReadsItem item (kindsOf b) (valueOf b)) :
    Parses (items item opener) ([semicolon].intercalate (list.map kindsOf) ++ closing :: rest)
      (list.map valueOf) rest := by
  induction list with
  | nil => exact items_nil opener
  | cons b list ih =>
    obtain ⟨first, others⟩ := List.forall_mem_cons.mp one
    obtain ⟨kind, more, isKinds, noSemicolon, noClosing⟩ := first.starts
    have reads := @first.reads
    rw [isKinds] at reads
    cases list with
    | nil =>
      have line := items_cons noSemicolon noClosing
        ((reads rest (.inr rfl)).bind (lineEnd_closing.bind (pure _))) (by simp) (items_nil opener)
      simpa [isKinds] using line
    | cons c list =>
      have line := items_cons noSemicolon noClosing
        ((reads _ (.inl rfl)).bind (lineEnd.bind (pure _))) (by simp; omega) (ih others)
      simpa [isKinds] using line

theorem oneOrMany {item : Parser α} {list : List β} {kindsOf : β → List TokenKind}
    {valueOf : β → α} (one : ∀ b ∈ list, ReadsItem item (kindsOf b) (valueOf b)) :
    Parses (oneOrMany item) (parenthesised (list.map kindsOf) ++ rest) (list.map valueOf) rest := by
  have inside : Parses (Parser.items item nowhere) _ _ rest := items one
  have whole : Parses (Parser.oneOrMany item) (opening :: _) _ rest :=
    (atSign _).bind (advance.bind inside)
  simpa [parenthesised] using whole

theorem oneOrMany_single {item : Parser α} (noParen : kind ≠ opening)
    (one : Parses item (kind :: kinds) value rest) :
    Parses (Parser.oneOrMany item) (kind :: kinds) [value] rest := by
  refine (atSign _).bind ?_
  rw [if_neg (by simpa using noParen)]
  exact one.bind (pure _)

/-! ### Imports and declarations -/

theorem kinds_cons (i : Import) : ∃ kind more, i.kinds = kind :: more ∧
    kind ≠ semicolon ∧ kind ≠ closing ∧ kind ≠ opening := by
  unfold Import.kinds
  cases i.binding <;> exact ⟨_, _, rfl, by simp, by simp, by simp⟩

theorem readsItem_importSpec {i : Import} (wellFormed : i.wellFormed) :
    ReadsItem Parser.importSpec i.kinds (unplaced i) := by
  obtain ⟨kind, more, isKinds, noSemicolon, noClosing, -⟩ := kinds_cons i
  exact ⟨fun rest _ => importSpec wellFormed, kind, more, isKinds, noSemicolon, noClosing⟩

theorem importDeclaration {block : ImportBlock} (wellFormed : ∀ i ∈ block.imports, i.wellFormed) :
    Parses importDeclaration (block.kinds ++ semicolon :: rest) (block.imports.map unplaced)
      rest := by
  cases block with
  | single i =>
    have spec : Parses Parser.importSpec (i.kinds ++ semicolon :: rest) (unplaced i) _ :=
      importSpec (wellFormed i (by simp [ImportBlock.imports]))
    obtain ⟨kind, more, isKinds, -, -, noParen⟩ := kinds_cons i
    rw [isKinds] at spec
    rw [ImportBlock.kinds, isKinds]
    exact advance.bind ((oneOrMany_single noParen spec).bind (lineEnd.bind (pure _)))
  | group imports =>
    have specs : Parses (Parser.oneOrMany Parser.importSpec)
        (parenthesised (imports.map Import.kinds) ++ semicolon :: rest) (imports.map unplaced) _ :=
      oneOrMany fun i mem => readsItem_importSpec (wellFormed i mem)
    exact advance.bind (specs.bind (lineEnd.bind (pure _)))

theorem moreNames_nil (noComma : kind ≠ .punctuation .comma) :
    Parses moreNames (kind :: rest) [] (kind :: rest) := by
  refine ⟨[], rfl, ?_⟩
  rw [Stream.bare_cons, moreNames]
  · rfl
  · simp [noComma]

theorem readsItem_groupEntry (kind : GroupKind) (name : String) :
    ReadsItem (groupEntry kind) [.ident name, .ident "int"] [unplaced name] := by
  refine ⟨fun {stop} rest isStop => ?_, ⟨_, _, rfl, by simp, by simp⟩⟩
  have tail : Parses (tail false) (.ident "int" :: stop :: rest) () (stop :: rest) := by
    refine ⟨[.ident "int"], rfl, ?_⟩
    rw [Stream.bare_cons, Parser.tail, skipTail]
    rcases isStop with rfl | rfl <;> simp [bare, skipTail, Reply.after]
  have ends : Parses (do
      Parser.tail false
      if (← Parser.atSign (.closing .bracket)) || (← Parser.atSign (.closing .brace)) then
        unexpected "';' or newline"
      else
        return [unplaced name]) (.ident "int" :: stop :: rest) [unplaced name] (stop :: rest) := by
    refine tail.bind ((atSign _).bind ((atSign _).bind ?_))
    rcases isStop with rfl | rfl <;> exact pure _
  unfold groupEntry
  dsimp only
  split_ifs
  · exact ((identifier _ name).map List.singleton).bind ends
  · have noMore : Parses moreNames (.ident "int" :: stop :: rest) [] _ := moreNames_nil (by simp)
    have names : Parses nameList (.ident name :: .ident "int" :: stop :: rest) [unplaced name] _ :=
      (identifier _ name).bind (noMore.bind (pure _))
    exact names.bind ends

theorem nameGroup (kind : GroupKind) (names : List String) :
    Parses (nameGroup kind) ((Outline.Entry.group kind names).kinds ++ rest)
      (.group kind (names.map unplaced)) rest := by
  have entries : Parses (Parser.oneOrMany (groupEntry kind))
      (parenthesised (names.map fun name => [.ident name, .ident "int"]) ++ rest)
      (names.map fun name => [unplaced name]) rest :=
    oneOrMany fun name _ => readsItem_groupEntry kind name
  have isNames : (names.map fun name => [unplaced name]).flatten = names.map unplaced := by
    rw [← List.flatMap_def]
    exact List.flatMap_pure_eq_map _ _
  rw [← isNames]
  exact advance.bind (entries.bind (pure _))

theorem receiver (type : String) :
    Parses receiver (opening :: .ident "r" :: .ident type :: closing :: rest) type rest := by
  have base : Parses (receiverBase nowhere none) (.ident "r" :: .ident type :: closing :: rest)
      (some type) rest := by
    refine ⟨[.ident "r", .ident type, closing], rfl, ?_⟩
    simp [Stream.bare, bare_cons, receiverBase, Reply.after]
  have inside : Parses (Parser.advance >>= fun _ => receiverBase nowhere none)
      (opening :: .ident "r" :: .ident type :: closing :: rest) (some type) rest :=
    advance.bind base
  obtain ⟨taken, split, isOk⟩ := inside
  refine ⟨taken, split, ?_⟩
  unfold Parser.receiver
  dsimp only
  have isOpener : (Stream.bare (opening :: .ident "r" :: .ident type :: closing ::
      rest)).current.span = nowhere := rfl
  rw [isOpener, isOk]

theorem group_body : Parses group (body true ++ rest) nowhere rest := ⟨body true, rfl, rfl⟩

theorem tail_parameters (hasBody : Bool) :
    Parses (tail true) (opening :: closing :: (body hasBody ++ semicolon :: rest)) ()
      (body hasBody ++ semicolon :: rest) := by
  refine ⟨[opening, closing], rfl, ?_⟩
  cases hasBody <;>
    simp [Stream.bare, bare_cons, Parser.tail, skipTail, closeGroups, body, Reply.after]

theorem signature (name : String) (receiver : Option String) (hasBody : Bool) :
    Parses (signature receiver)
      (.ident name :: opening :: closing :: (body hasBody ++ semicolon :: rest))
      (.func (unplaced name) receiver hasBody) (semicolon :: rest) := by
  refine (identifier _ name).bind ((atSign _).bind ((atSign _).bind ?_))
  refine (tail_parameters hasBody).bind ?_
  cases hasBody with
  | false => exact (atSign (.opening .brace)).bind (pure _)
  | true => exact (atSign (.opening .brace)).bind (group_body.bind (pure _))

theorem function (name : String) (receiver : Option String) (hasBody : Bool) :
    Parses function ((Outline.Entry.func name receiver hasBody).kinds ++ semicolon :: rest)
      (.func (unplaced name) receiver hasBody) (semicolon :: rest) := by
  rw [function_eq]
  have plain : Parses (Parser.signature receiver) _ _ (semicolon :: rest) :=
    signature name receiver hasBody
  cases receiver with
  | none =>
    have isKinds : (Outline.Entry.func name none hasBody).kinds ++ semicolon :: rest =
        .keyword .funcKw :: .ident name :: opening :: closing ::
          (body hasBody ++ semicolon :: rest) := by
      simp [Outline.Entry.kinds]
    rw [isKinds]
    refine advance.bind ((atSign _).bind ?_)
    exact (pure none).bind plain
  | some type =>
    have isKinds : (Outline.Entry.func name (some type) hasBody).kinds ++ semicolon :: rest =
        .keyword .funcKw :: opening :: .ident "r" :: .ident type :: closing ::
          .ident name :: opening :: closing :: (body hasBody ++ semicolon :: rest) := by
      simp [Outline.Entry.kinds]
    rw [isKinds]
    refine advance.bind ((atSign _).bind ?_)
    exact ((receiver type).map some).bind plain

theorem covered_bare (kinds : List TokenKind) (n : Nat) :
    (Stream.bare kinds).covered n = nowhere := by
  have span : ∀ kinds, (Stream.bare kinds).current.span = nowhere := by
    rintro (_ | ⟨kind, rest⟩) <;> rfl
  have dropped : ∀ n, (Stream.bare kinds).drop n = .bare (kinds.drop n) := by
    intro n
    rw [Stream.bare, Stream.bare, Stream.drop, bare, bare, List.map_drop]
  rw [Stream.covered, dropped, span, span]
  rfl

theorem declaration {word : Keyword} {found : Declaration}
    (parses : Parses (declarationOf word) (.keyword word :: kinds) found (semicolon :: rest)) :
    Parses declaration (.keyword word :: kinds) (unplaced found) rest := by
  obtain ⟨taken, split, isOk⟩ := parses
  refine ⟨taken ++ [semicolon], by simpa using split, ?_⟩
  have isKeyword : (Stream.bare (.keyword word :: kinds)).current.kind = .keyword word := rfl
  have left : (Stream.bare (.keyword word :: kinds)).drop taken.length =
      .bare (semicolon :: rest) := by
    rw [split, Stream.drop_bare]
  unfold Parser.declaration
  simp only [isKeyword, isOk, covered_bare, left]
  rw [List.length_append]
  rfl

theorem entry (entry : Outline.Entry) :
    Parses Parser.declaration (entry.kinds ++ semicolon :: rest) (unplaced entry.declaration)
      rest := by
  cases entry with
  | func name receiver hasBody => exact declaration (function name receiver hasBody)
  | group kind names =>
    cases kind <;> exact declaration (nameGroup _ names)

/-! ### Files -/

theorem packageClause {name : String} (notBlank : name ≠ "_") :
    Parses packageClause (.keyword .packageKw :: .ident name :: semicolon :: rest)
      (unplaced name) rest := by
  have skipped : Parses skipSemicolons
      (.keyword .packageKw :: .ident name :: semicolon :: rest) () _ := ⟨[], rfl, rfl⟩
  refine skipped.bind (peek.bind (advance.bind (peek.bind ?_)))
  dsimp only
  rw [if_neg notBlank]
  exact advance.bind (lineEnd.bind (pure _))

end Parses

theorem importSection_blocks {rest : List TokenKind} {layout : List ImportBlock}
    (wellFormed : ∀ block ∈ layout, ∀ i ∈ block.imports, i.wellFormed)
    (ends : importSection nowhere (bare rest) = ⟨[], [], bare rest⟩) :
    importSection nowhere
        (bare (layout.flatMap (fun block => block.kinds ++ [semicolon]) ++ rest)) =
      ⟨(layout.flatMap ImportBlock.imports).map unplaced, [], bare rest⟩ := by
  induction layout with
  | nil => exact ends
  | cons block layout ih =>
    obtain ⟨first, others⟩ := List.forall_mem_cons.mp wellFormed
    have isKinds : block.kinds = .keyword .importKw :: block.kinds.tail := by cases block <;> rfl
    have parses : Parses importDeclaration _ _
        (layout.flatMap (fun block => block.kinds ++ [semicolon]) ++ rest) :=
      .importDeclaration first
    rw [isKinds, List.cons_append] at parses
    obtain ⟨taken, split, isOk⟩ := parses.uncons (by simp; omega)
    rw [List.flatMap_cons, isKinds, List.append_assoc, List.append_assoc]
    simp only [List.cons_append, List.nil_append, split]
    rw [split] at isOk
    rw [bare_cons, importSection, if_neg (by simp), if_pos rfl]
    simp only [isOk, Nat.add_sub_cancel, drop_bare, ih others, List.flatMap_cons, List.map_append]

theorem entry_starts (entry : Outline.Entry) :
    ∃ word more, entry.kinds = .keyword word :: more ∧ word ≠ .importKw := by
  cases entry with
  | func name receiver hasBody => exact ⟨.funcKw, _, rfl, by decide⟩
  | group kind names => exact ⟨kind.keyword, _, rfl, by cases kind <;> decide⟩

theorem importSection_entries (entries : List Outline.Entry) :
    importSection nowhere (bare (entries.flatMap fun entry => entry.kinds ++ [semicolon])) =
      ⟨[], [], bare (entries.flatMap fun entry => entry.kinds ++ [semicolon])⟩ := by
  cases entries with
  | nil =>
    rw [List.flatMap_nil, bare, List.map_nil, importSection]
  | cons first entries =>
    obtain ⟨word, more, isKinds, noImport⟩ := entry_starts first
    rw [List.flatMap_cons, isKinds, List.cons_append, List.cons_append, bare_cons, importSection,
      if_neg (by simp), if_neg (by simpa using noImport)]

theorem declarationSection_entries (entries : List Outline.Entry) :
    declarationSection nowhere (bare (entries.flatMap fun entry => entry.kinds ++ [semicolon])) =
      ⟨entries.map fun entry => unplaced entry.declaration, []⟩ := by
  induction entries with
  | nil =>
    rw [List.flatMap_nil, bare, List.map_nil, declarationSection]
    rfl
  | cons first entries ih =>
    have parses : Parses declaration _ _
        (entries.flatMap fun entry => entry.kinds ++ [semicolon]) := .entry first
    obtain ⟨word, more, isKinds, noImport⟩ := entry_starts first
    rw [isKinds, List.cons_append] at parses
    obtain ⟨taken, split, isOk⟩ := parses.uncons (by simp; omega)
    rw [List.flatMap_cons, isKinds, List.append_assoc]
    simp only [List.cons_append, List.nil_append, split]
    rw [split] at isOk
    rw [bare_cons, declarationSection, if_neg (by simp)]
    simp only [TokenKind.keyword.injEq, noImport, if_false, isOk, Nat.add_sub_cancel, drop_bare, ih,
      List.map_cons]

theorem entry_declaration (entry : Outline.Entry) : entry.declaration.entry = entry := by
  cases entry with
  | func name receiver hasBody => rfl
  | group kind names =>
    simp [Outline.Entry.declaration, Declaration.entry, Function.comp_def]

/-- The tokens of a printed file give its outline. -/
theorem parseStream_kinds {o : Outline} {layout : List ImportBlock} (wellFormed : o.wellFormed)
    (laid : layout.flatMap ImportBlock.imports = o.imports) (lines : LineIndex) :
    ∃ file, parseStream (.bare (o.kinds layout)) lines = .ok file ∧ file.outline = o := by
  simp only [Outline.wellFormed, Bool.and_eq_true, List.all_eq_true, decide_eq_true_eq]
    at wellFormed
  obtain ⟨⟨⟨-, notBlank⟩, imports⟩, -⟩ := wellFormed
  have blocks : ∀ block ∈ layout, ∀ i ∈ block.imports, i.wellFormed := by
    intro block mem i isImport
    exact imports i (laid ▸ List.mem_flatMap.mpr ⟨block, mem, isImport⟩)
  have package : Parses packageClause (o.kinds layout) (unplaced o.package) (o.itemKinds layout) :=
    .packageClause notBlank
  obtain ⟨taken, split, isOk⟩ := package
  have later : (Stream.bare (o.kinds layout)).tokens.drop taken.length =
      bare (o.itemKinds layout) := by
    rw [split, Stream.bare, drop_bare]
  have isImports := importSection_blocks blocks (importSection_entries o.declarations)
  rw [← Outline.itemKinds] at isImports
  have isFinish : (Stream.bare (o.kinds layout)).finish = nowhere := rfl
  refine ⟨⟨unplaced o.package, o.imports.map unplaced,
    o.declarations.map fun entry => unplaced entry.declaration, lines⟩, ?_, ?_⟩
  · unfold parseStream
    simp only [isOk, later, isFinish, isImports, declarationSection_entries, laid, List.append_nil]
  · simp [SourceFile.outline, Function.comp_def, entry_declaration]

/-! ### Texts -/

/-- Files whose tokens have the same kinds, wherever they stand. -/
def Likeness.ofKinds (Named : String → Prop) : Likeness where
  Named := Named
  Placed _ _ := True
  merge _ _ := trivial

theorem Likeness.streams_bare {front : List Token} (noEnd : ∀ token ∈ front, token.kind ≠ .eof)
    (finish : Span) :
    (ofKinds fun _ => True).Streams (.bare (front.map (·.kind)))
      (.ofTokens (front ++ [⟨.eof, finish⟩])) := by
  rw [GoFront.Likeness.Streams, Stream.tokens_ofTokens noEnd rfl, Stream.bare, bare,
    List.map_map, List.forall₂_map_left_iff]
  exact List.forall₂_same.mpr fun token _ => ⟨rfl, fun _ _ => trivial, fun _ _ => trivial⟩

theorem lex_print {o : Outline} {layout : List ImportBlock} (wellFormed : o.wellFormed)
    (laid : layout.flatMap ImportBlock.imports = o.imports) :
    ∃ front finish, Lexer.lex (o.print layout) = .ok (front ++ [⟨.eof, finish⟩]) ∧
      (∀ token ∈ front, token.kind ≠ .eof) ∧ front.map (·.kind) = o.kinds layout := by
  have printed := o.printed wellFormed laid
  have lexed : Lexer.lex (o.print layout) = .ok _ :=
    Lexer.lexChars_eq_ok_iff.mpr ⟨printed.accepted, rfl⟩
  have isKinds := printed.kinds_eq 0
  obtain ⟨front, isFound, noEnd⟩ := Lexer.lex_ended lexed
  rw [isFound, List.map_append] at isKinds
  rw [isFound] at lexed
  exact ⟨front, _, lexed, noEnd, List.append_cancel_right isKinds⟩

/-- The outline of a printed file is that which was printed. -/
theorem outline_print {o : Outline} {layout : List ImportBlock} (wellFormed : o.wellFormed)
    (laid : layout.flatMap ImportBlock.imports = o.imports) :
    ∃ file, parseSource (o.print layout) = .ok file ∧ file.outline = o := by
  obtain ⟨front, finish, lexed, noEnd, isKinds⟩ := lex_print wellFormed laid
  have streams := Likeness.streams_bare noEnd finish
  rw [isKinds] at streams
  have lines : LineIndex := .ofSource (o.print layout)
  obtain ⟨file, isOk, isOutline⟩ := parseStream_kinds wellFormed laid lines
  have outlines := Likeness.parseStream streams lines (.ofSource (o.print layout))
  obtain ⟨bareFile, printed, isBare, isPrinted, alike⟩ | ⟨faults, _, isError, -⟩ := outlines.both
  · rw [isOk] at isBare
    obtain rfl := Except.ok.inj isBare
    refine ⟨printed, ?_, ?_⟩
    · rw [parseSource, lexed]
      exact isPrinted
    · rw [← isOutline, alike.outline_eq]
  · simp [isOk] at isError

/-- The outline of an accepted source text can be printed. -/
theorem wellFormed_outline {source : String} {file : SourceFile}
    (parsed : parseSource source = .ok file) : file.outline.wellFormed := by
  unfold parseSource at parsed
  cases lexed : Lexer.lex source with
  | error faults => simp [lexed, bind, Except.bind] at parsed
  | ok found =>
    simp only [lexed, bind, Except.bind] at parsed
    have tokens :
        List.Forall₂ (Likeness.ofKinds fun name => isIdentifier name).Tokens found found := by
      refine List.forall₂_same.mpr fun token mem => ⟨rfl, ?_, fun _ _ => trivial⟩
      exact Lexer.lex_identifiers lexed token mem
    have outlines := Likeness.parse tokens (.ofSource source) (.ofSource source)
    obtain ⟨file', _, isOk, -, alike⟩ | ⟨faults, _, isError, -⟩ := outlines.both
    · rw [parsed] at isOk
      obtain rfl := Except.ok.inj isOk
      exact alike.wellFormed fun _ named => named
    · simp [parsed] at isError

/-- The outline of a well-formed file comes back from its text, however its imports are laid out,
and every accepted source text has such an outline. -/
theorem parseSource_print :
    (∀ (o : Outline) (layout : List ImportBlock), o.wellFormed →
      layout.flatMap ImportBlock.imports = o.imports →
      ∃ file, parseSource (o.print layout) = .ok file ∧ file.outline = o) ∧
    ∀ (source : String) (file : SourceFile), parseSource source = .ok file →
      file.outline.wellFormed ∧ ∀ layout : List ImportBlock,
        layout.flatMap ImportBlock.imports = file.outline.imports →
        ∃ again, parseSource (file.outline.print layout) = .ok again ∧
          again.outline = file.outline := by
  refine ⟨fun o layout => outline_print, fun source file parsed => ?_⟩
  have wellFormed := wellFormed_outline parsed
  exact ⟨wellFormed, fun layout => outline_print wellFormed⟩

theorem parseSource_print_stack :
    (∃ file, parseSource "package p\nimport ( x \"a/b\"\n. \"m\" )\nfunc (r T) f() \x7b\x7d\n" =
        .ok file ∧
      file.outline =
        ⟨"p", [⟨"a/b", .named "x"⟩, ⟨"m", .dot⟩], [.func "f" (some "T") true]⟩) ∧
    ∃ file, parseSource "package a\nfunc (s *Stack[T]) Push(v T)\n" = .ok file ∧
      file.outline.wellFormed ∧
      ∃ again, parseSource (file.outline.print (file.outline.imports.map .single)) = .ok again ∧
        again.outline = file.outline := by
  constructor
  · have isText : Outline.print
        ⟨"p", [⟨"a/b", .named "x"⟩, ⟨"m", .dot⟩], [.func "f" (some "T") true]⟩
        [.group [⟨"a/b", .named "x"⟩, ⟨"m", .dot⟩]] =
          "package p\nimport ( x \"a/b\"\n. \"m\" )\nfunc (r T) f() \x7b\x7d\n" := by
      decide +kernel
    rw [← isText]
    exact parseSource_print.1 _ _ (by decide) rfl
  · obtain ⟨file, parsed⟩ :=
      exists_file "package a\nfunc (s *Stack[T]) Push(v T)\n" (by decide +kernel)
    obtain ⟨wellFormed, again⟩ := parseSource_print.2 _ _ parsed
    refine ⟨file, parsed, wellFormed, again _ ?_⟩
    rw [List.flatMap_map]
    exact List.flatMap_pure_eq_map id _ |>.trans (List.map_id _)

end Parser

end GoFront
