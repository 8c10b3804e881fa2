import GoFront.Proofs.Parser.Tracing
import Mathlib.Data.String.Basic

/-!
The spans in an outline are those of the source text: names are written where they say, and imports
and declarations stand one behind the other, each over the tokens it was read from.
-/
namespace GoFront

open Lexer

/-! ### Text under a span -/

/-- The part of the text that the span covers. -/
def Span.slice (span : Span) (source : String) : String :=
  String.Pos.Raw.extract source ⟨span.start⟩ ⟨span.stop⟩

theorem Text.utf8Len_eq (text : List Char) : String.utf8Len text = byteLength text := by
  induction text with
  | nil => rfl
  | cons c rest ih => rw [String.utf8Len_cons, ih, byteLength_cons, Nat.add_comm]

theorem Span.slice_eq {source : String} {before word after : List Char}
    (split : source.toList = before ++ word ++ after) :
    Span.slice ⟨Text.byteLength before, Text.byteLength (before ++ word)⟩ source =
      String.ofList word := by
  have valid := String.extract_of_valid before word after
  rw [← split, String.ofList_toList, Text.utf8Len_eq, Text.utf8Len_eq] at valid
  rw [Span.slice, Text.byteLength_append]
  exact valid

/-- A token that is not a semicolon covers the text that it is written with. -/
theorem written_of_lex {source : String} {tokens : List Token} {token : Token}
    (lexed : lex source = .ok tokens) (mem : token ∈ tokens) (notEnd : token.kind ≠ .eof)
    (noSemicolon : token.kind ≠ .punctuation .semicolon) :
    ∃ before word after, source.toList = before ++ word ++ after ∧ word ≠ [] ∧
      token.span = ⟨Text.byteLength before, Text.byteLength (before ++ word)⟩ ∧
      Spelled before word after token.kind := by
  obtain ⟨accepted, rfl⟩ := lexChars_eq_ok_iff.mp lexed
  have laid := laid_tokens false accepted (parted_nil _)
  have isWritten : token.written = true := by
    simp [Token.written, Token.implicit, notEnd, noSemicolon]
  simpa using laid.placed token (List.mem_filter.mpr ⟨mem, isWritten⟩)

theorem slice_of_lex {source : String} {tokens : List Token} {name : Spanned String}
    (lexed : lex source = .ok tokens) (mem : name.token ∈ tokens) :
    name.span.slice source = name.value := by
  obtain ⟨before, word, after, split, -, span, -, isName, -⟩ :=
    written_of_lex lexed mem (by simp [Spanned.token]) (by simp [Spanned.token])
  have isSpan : name.span = ⟨Text.byteLength before, Text.byteLength (before ++ word)⟩ := span
  rw [isSpan, Span.slice_eq split, isName, String.ofList_toList]

theorem nonempty_of_lex {source : String} {tokens : List Token} {token : Token}
    (lexed : lex source = .ok tokens) (mem : token ∈ tokens) (notEnd : token.kind ≠ .eof)
    (noSemicolon : token.kind ≠ .punctuation .semicolon) : token.span.start < token.span.stop := by
  obtain ⟨before, word, after, -, nonempty, span, -⟩ :=
    written_of_lex lexed mem notEnd noSemicolon
  have := byteLength_pos nonempty
  rw [span, Text.byteLength_append]
  exact Nat.lt_add_of_pos_right this

/-! ### Spans over tokens -/

namespace Gathered

variable {α β γ : Type} {reads : List β → α → Prop} {list : List β} {values : List α}

theorem map {reads' : List β → γ → Prop} {f : α → γ} (gathered : Gathered reads list values)
    (maps : ∀ part value, reads part value → reads' part (f value)) :
    Gathered reads' list (values.map f) := by
  induction gathered with
  | nil => exact .nil _
  | cons gap first _ ih => exact .cons gap (maps _ _ first) ih

/-- What holds between the parts, one behind the other, holds between the values. -/
theorem pairwise {before : β → β → Prop} {rel : α → α → Prop}
    (gathered : Gathered reads list values) (ordered : list.Pairwise before)
    (relates : ∀ part part' value value', reads part value → reads part' value' →
      (∀ x ∈ part, ∀ y ∈ part', before x y) → rel value value') : values.Pairwise rel := by
  induction gathered with
  | nil => exact .nil
  | cons gap first later ih =>
    obtain ⟨-, ordered, -⟩ := List.pairwise_append.mp ordered
    obtain ⟨-, orderedLater, across⟩ := List.pairwise_append.mp ordered
    refine .cons (fun other mem => ?_) (ih orderedLater)
    obtain ⟨part', within, read⟩ := later.exists_part other mem
    exact relates _ _ _ _ first read fun x isFirst y isLater =>
      across x isFirst y (within.subset isLater)

end Gathered

namespace Parser

theorem first_le_of_ordered {part : List Token} {start stop : Nat} {first : Token}
    (ordered : Ordered start stop part) (isFirst : part.head? = some first) :
    ∀ token ∈ part, first.span.start ≤ token.span.start := by
  obtain ⟨others, rfl⟩ := List.head?_eq_some_iff.mp isFirst
  refine List.forall_mem_cons.mpr ⟨le_rfl, fun token mem => ?_⟩
  exact ((List.pairwise_cons.mp ordered.increasing).1 token mem).1.le

theorem le_last_of_ordered {part : List Token} {start stop : Nat} {last : Token}
    (ordered : Ordered start stop part) (isLast : part.getLast? = some last) :
    ∀ token ∈ part, token.span.stop ≤ last.span.stop := by
  have forward := (ordered.bounded last (List.mem_of_getLast? isLast)).2.1
  obtain ⟨others, rfl⟩ := List.getLast?_eq_some_iff.mp isLast
  intro token mem
  rcases List.mem_append.mp mem with isOther | isLast
  · have := (List.pairwise_append.mp ordered.increasing).2.2 token isOther last (by simp)
    omega
  · rw [List.mem_singleton.mp isLast]

/-- A span that runs over tokens in their order has its ends at the first and at the last. -/
theorem SpanOf.ends {part : List Token} {span : Span} {start stop : Nat}
    (spanOf : SpanOf part span) (ordered : Ordered start stop part) :
    ∃ first last, part.head? = some first ∧ part.getLast? = some last ∧
      span = ⟨first.span.start, last.span.stop⟩ := by
  obtain ⟨first, last, isFirst, isLast, rfl⟩ := spanOf
  refine ⟨first, last, isFirst, isLast, ?_⟩
  have := first_le_of_ordered ordered isFirst last (List.mem_of_getLast? isLast)
  have := le_last_of_ordered ordered isLast first (List.mem_of_head? isFirst)
  simp only [Span.merge, Span.mk.injEq]
  omega

theorem SpanOf.covers {part : List Token} {span : Span} {start stop : Nat}
    (spanOf : SpanOf part span) (ordered : Ordered start stop part) :
    ∀ token ∈ part, span.start ≤ token.span.start ∧ token.span.stop ≤ span.stop := by
  obtain ⟨first, last, isFirst, isLast, rfl⟩ := spanOf.ends ordered
  exact fun token mem =>
    ⟨first_le_of_ordered ordered isFirst token mem, le_last_of_ordered ordered isLast token mem⟩

theorem SpanOf.start_mem {part : List Token} {span : Span} (spanOf : SpanOf part span) :
    ∃ token ∈ part, span.start = token.span.start := by
  obtain ⟨first, last, isFirst, isLast, rfl⟩ := spanOf
  rcases min_choice first.span.start last.span.start with isStart | isStart
  · exact ⟨first, List.mem_of_head? isFirst, isStart⟩
  · exact ⟨last, List.mem_of_getLast? isLast, isStart⟩

theorem SpanOf.stop_mem {part : List Token} {span : Span} (spanOf : SpanOf part span) :
    ∃ token ∈ part, span.stop = token.span.stop := by
  obtain ⟨first, last, isFirst, isLast, rfl⟩ := spanOf
  rcases max_choice first.span.stop last.span.stop with isStop | isStop
  · exact ⟨first, List.mem_of_head? isFirst, isStop⟩
  · exact ⟨last, List.mem_of_getLast? isLast, isStop⟩

/-- The tokens make up the span, and one of them is written. -/
def Marks (part : List Token) (span : Span) : Prop :=
  SpanOf part span ∧ ∃ token ∈ part, token.kind ≠ .eof ∧ token.kind ≠ .punctuation .semicolon

theorem IsDeclaration.marks {part : List Token} {d : Spanned Declaration}
    (declared : IsDeclaration part d) : Marks part d.span := by
  obtain ⟨token, mem, word, isKeyword⟩ := declared.keyword
  exact ⟨declared.placed, token, mem, by simp [isKeyword], by simp [isKeyword]⟩

theorem getLast?_kinds (i : Import) : i.kinds.getLast? = some (.string i.path) := by
  unfold Import.kinds
  split <;> rfl

theorem IsImport.marks {part : List Token} {i : Spanned Import} (imported : IsImport part i) :
    Marks part i.span := by
  have isPath := List.mem_of_getLast? (getLast?_kinds i.value)
  rw [← imported.kinds] at isPath
  obtain ⟨token, mem, isPath⟩ := List.mem_map.mp isPath
  exact ⟨imported.placed, token, mem, by simp [isPath], by simp [isPath]⟩

/-- The spans lie in the text, one behind the other. -/
structure Spread (source : String) (spans : List Span) : Prop where
  bounded : ∀ span ∈ spans, span.start < span.stop ∧ span.stop ≤ source.utf8ByteSize
  increasing : spans.Pairwise fun earlier later =>
    earlier.start < later.start ∧ earlier.stop ≤ later.start

theorem spread_of_gathered {source : String} {tokens : List Token} {spans : List Span}
    (ordered : Ordered 0 source.utf8ByteSize tokens)
    (written : ∀ token ∈ tokens, token.kind ≠ .eof → token.kind ≠ .punctuation .semicolon →
      token.span.start < token.span.stop)
    (gathered : Gathered Marks tokens spans) : Spread source spans := by
  refine ⟨fun span mem => ?_, gathered.pairwise ordered.increasing ?_⟩
  · obtain ⟨part, within, spanOf, token, isToken, notEnd, noSemicolon⟩ :=
      gathered.exists_part span mem
    have covered := spanOf.covers (ordered.sublist within.sublist) token isToken
    have nonempty := written token (within.subset isToken) notEnd noSemicolon
    obtain ⟨last, isLast, isStop⟩ := spanOf.stop_mem
    have bounded := ordered.bounded last (within.subset isLast)
    omega
  · rintro part part' span span' ⟨spanOf, -⟩ ⟨spanOf', -⟩ before
    obtain ⟨first, isFirst, isStart⟩ := spanOf.start_mem
    obtain ⟨last, isLast, isStop⟩ := spanOf.stop_mem
    obtain ⟨first', isFirst', isStart'⟩ := spanOf'.start_mem
    rw [isStart, isStop, isStart']
    exact ⟨(before first isFirst first' isFirst').1, (before last isLast first' isFirst').2⟩

/-! ### Files -/

/-- The spans of an outline are those of the source text. -/
structure Located (source : String) (file : SourceFile) : Prop where
  package : file.package.span.slice source = file.package.value
  names : ∀ d ∈ file.declarations, ∀ name ∈ d.value.names, name.span.slice source = name.value
  /-- Every import runs from its first token, the binding or the path, to the end of its path. -/
  imports : ∀ i ∈ file.imports, ∃ tokens part first last, lex source = .ok tokens ∧
    part <:+: tokens ∧ part.map (·.kind) = i.value.kinds ∧ part.head? = some first ∧
    part.getLast? = some last ∧ last.kind = .string i.value.path ∧
    i.span = ⟨first.span.start, last.span.stop⟩
  /-- Imports come before declarations, and all of them stand apart. -/
  spread : Spread source (file.imports.map (·.span) ++ file.declarations.map (·.span))
  inside : ∀ d ∈ file.declarations, ∀ name ∈ d.value.names,
    d.span.start ≤ name.span.start ∧ name.span.stop ≤ d.span.stop
  increasing : ∀ d ∈ file.declarations, d.value.names.Pairwise fun earlier later =>
    earlier.span.start < later.span.start ∧ earlier.span.stop ≤ later.span.start

theorem IsImport.ends {part : List Token} {i : Spanned Import} {start stop : Nat}
    (imported : IsImport part i) (ordered : Ordered start stop part) :
    ∃ first last, part.head? = some first ∧ part.getLast? = some last ∧
      last.kind = .string i.value.path ∧ i.span = ⟨first.span.start, last.span.stop⟩ := by
  obtain ⟨first, last, isFirst, isLast, isSpan⟩ := imported.placed.ends ordered
  refine ⟨first, last, isFirst, isLast, ?_, isSpan⟩
  have isPath := getLast?_kinds i.value
  rw [← imported.kinds, List.getLast?_map, isLast] at isPath
  exact Option.some.inj isPath

theorem IsDeclaration.token_mem {part : List Token} {d : Spanned Declaration}
    {name : Spanned String} (declared : IsDeclaration part d) (mem : name ∈ d.value.names) :
    name.token ∈ part :=
  declared.names.mem (List.mem_map_of_mem mem)

theorem parseSource_located {source : String} {file : SourceFile}
    (parsed : parseSource source = .ok file) : Located source file := by
  cases lexed : lex source with
  | error found => simp [parseSource, lexed, bind, Except.bind] at parsed
  | ok tokens =>
    obtain ⟨stream, rfl, ordered, isParse⟩ := parseSource_of_lex lexed
    obtain ⟨clause, front, back, rfl, package, imports, declarations⟩ :=
      gathered_parseStream (isParse ▸ parsed)
    have slice : ∀ name : Spanned String, name.token ∈ clause ++ (front ++ back) →
        name.span.slice source = name.value :=
      fun name mem => slice_of_lex lexed (List.mem_append_left _ mem)
    have orderedImports : Ordered 0 source.utf8ByteSize front :=
      ordered.sublist (by simp)
    have orderedDeclarations : Ordered 0 source.utf8ByteSize back :=
      ordered.sublist (by simp)
    refine ⟨slice _ (List.mem_append_left _ package), fun d isDeclared name isName => ?_,
      fun i isImported => ?_, ?_, fun d isDeclared name isName => ?_, fun d isDeclared => ?_⟩
    · obtain ⟨part, within, declared⟩ := declarations.exists_part d isDeclared
      have isToken := within.subset (declared.token_mem isName)
      exact slice name (by simp [isToken])
    · obtain ⟨part, within, imported⟩ := imports.exists_part i isImported
      obtain ⟨first, last, isFirst, isLast, isPath, isSpan⟩ :=
        imported.ends (orderedImports.sublist within.sublist)
      have isPart := within.trans (List.infix_append' clause front back)
      exact ⟨_, part, first, last, lexed, isPart.trans (List.prefix_append _ _).isInfix,
        imported.kinds, isFirst, isLast, isPath, isSpan⟩
    · refine spread_of_gathered (ordered.sublist (List.sublist_append_right clause _)) ?_ ?_
      · exact fun token mem =>
          nonempty_of_lex lexed (List.mem_append_left _ (List.mem_append_right clause mem))
      · exact (imports.map fun _ _ => IsImport.marks).append
          (declarations.map fun _ _ => IsDeclaration.marks)
    · obtain ⟨part, within, declared⟩ := declarations.exists_part d isDeclared
      exact declared.placed.covers (orderedDeclarations.sublist within.sublist) _
        (declared.token_mem isName)
    · obtain ⟨part, within, declared⟩ := declarations.exists_part d isDeclared
      have names := (orderedDeclarations.sublist within.sublist).sublist declared.names
      exact List.pairwise_map.mp names.increasing

theorem parseSource_located_group :
    ∃ file, parseSource "package p\nimport f \"fmt\"\nvar ( a, b = 1, 2; c int )" = .ok file ∧
      Located "package p\nimport f \"fmt\"\nvar ( a, b = 1, 2; c int )" file := by
  obtain ⟨file, parsed⟩ :=
    exists_file "package p\nimport f \"fmt\"\nvar ( a, b = 1, 2; c int )" (by decide +kernel)
  exact ⟨file, parsed, parseSource_located parsed⟩

end Parser

end GoFront
