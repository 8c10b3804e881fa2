import GoFront.Proofs.Parser.Grammar

/-!
Recovery after a fault. A file is cut into segments by its semicolons outside of all groups; a
segment is a well-formed declaration or junk. The parser reports every run of junk once, at its
first token, and finds all declarations around it.
-/
namespace GoFront

/-! ### Segments -/

/-- The tokens of a well-formed top-level declaration. -/
structure Declared (tokens : List Token) (d : Spanned Declaration) : Prop where
  declares : Declares tokens d.value
  placed : Parser.SpanOf tokens d.span
  noEnd : ∀ token ∈ tokens, token.kind ≠ .eof

/-- Nested tokens without a semicolon outside of all groups that do not start like a declaration. -/
structure Junk (first : Token) (more : List Token) : Prop where
  statement : Statement (first :: more)
  starts : ∀ word, first.kind = .keyword word → word.startsDeclaration = false
  noEnd : ∀ token ∈ first :: more, token.kind ≠ .eof

/-- A part of a file and the semicolon that ends it. -/
inductive Segment where
  | declared {tokens : List Token} {d : Spanned Declaration} (declared : Declared tokens d)
      (stop : Span)
  | junk {first : Token} {more : List Token} (junk : Junk first more) (stop : Span)

namespace Segment

def tokens : Segment → List Token
  | @declared tokens _ _ stop => tokens ++ [.sign .semicolon stop]
  | @junk first more _ stop => first :: (more ++ [.sign .semicolon stop])

def isJunk : Segment → Bool
  | declared .. => false
  | junk .. => true

def declaration? : Segment → Option (Spanned Declaration)
  | @declared _ d _ _ => some d
  | junk .. => none

/-- The first token of every maximal run of junk. -/
def runStarts : List Segment → List Token
  | [] => []
  | declared .. :: rest => runStarts rest
  | @junk first _ _ _ :: rest => first :: runStarts (rest.dropWhile isJunk)
termination_by segments => segments.length
decreasing_by
  · simp
  · have := (List.dropWhile_suffix isJunk (l := rest)).length_le
    simp
    omega

end Segment

/-! ### Skipping -/

namespace Parser

theorem recovery_opening (depth : Nat) (delimiter : Delimiter) (span : Span) (rest : List Token) :
    recovery depth (.sign (.opening delimiter) span :: rest) = 1 + recovery (depth + 1) rest := rfl

theorem recovery_closing (depth : Nat) (delimiter : Delimiter) (span : Span) (rest : List Token) :
    recovery (depth + 1) (.sign (.closing delimiter) span :: rest) = 1 + recovery depth rest := rfl

theorem recovery_plain {token : Token} {depth : Nat} (isPlain : token.kind.isDelimiter = false)
    (goesOn : token.kind = .punctuation .semicolon → depth ≠ 0) (rest : List Token) :
    recovery depth (token :: rest) = 1 + recovery depth rest := by
  rw [recovery.eq_def]
  dsimp only
  split
  next isOpening => simp [isOpening, TokenKind.isDelimiter] at isPlain
  next isClosing => simp [isClosing, TokenKind.isDelimiter] at isPlain
  next isSemicolon => simp [goesOn isSemicolon]
  next => rfl

theorem recovery_nested {tokens : List Token} (nested : Nested (tokens.map (·.kind))) :
    ∀ depth rest, recovery (depth + 1) (tokens ++ rest) =
      tokens.length + recovery (depth + 1) rest := by
  refine nested_tokens_induction ?_ ?_ ?_ nested
  · simp
  · intro token others isPlain ih depth rest
    rw [List.cons_append, recovery_plain isPlain (by simp), ih, List.length_cons]
    omega
  · intro delimiter opener closer inside others ihInside ih depth rest
    simp only [List.cons_append, List.append_assoc]
    rw [recovery_opening, ihInside, recovery_closing, ih]
    simp
    omega

theorem recovery_statement {tokens : List Token} (statement : Statement tokens)
    (rest : List Token) : recovery 0 (tokens ++ rest) = tokens.length + recovery 0 rest := by
  induction statement with
  | nil => simp
  | plain isPlain noSemicolon _ ih =>
    rw [List.cons_append, recovery_plain isPlain fun isSemicolon => absurd isSemicolon noSemicolon,
      ih, List.length_cons]
    omega
  | group delimiter opener closer within _ ih =>
    simp only [List.cons_append, List.append_assoc]
    rw [recovery_opening, recovery_nested within, recovery_closing, ih]
    simp
    omega

/-- Where the parser goes on, given the tokens behind a semicolon outside of all groups. -/
def resume (tokens : List Token) : List Token :=
  if recovery.declares tokens then tokens else tokens.drop (recovery 0 tokens)

theorem drop_recovery {tokens : List Token} (statement : Statement tokens) (stop : Span)
    (rest : List Token) :
    (tokens ++ .sign .semicolon stop :: rest).drop
      (recovery 0 (tokens ++ .sign .semicolon stop :: rest)) = resume rest := by
  have semicolon : recovery 0 (.sign .semicolon stop :: rest) =
      if recovery.declares rest then 1 else 1 + recovery 0 rest := by
    simp [recovery]
  rw [recovery_statement statement, ← List.drop_drop, List.drop_left, semicolon, resume]
  split_ifs
  · rfl
  · rw [Nat.add_comm, List.drop_succ_cons]

/-! ### Sections -/

theorem declares_junk {first : Token} {more : List Token} (junk : Junk first more)
    (rest : List Token) : recovery.declares (first :: rest) = false := by
  obtain ⟨kind, span⟩ := first
  cases kind with
  | keyword word => exact junk.starts word rfl
  | _ => rfl

def strayFinding (first : Token) : Finding :=
  ⟨.unexpected "declaration" first.describe, first.span⟩

theorem declaration_junk {first : Token} {more : List Token} (junk : Junk first more)
    (rest : List Token) (finish : Span) :
    declaration ⟨first :: rest, finish⟩ =
      .fail (strayFinding first) 0 := by
  unfold declaration
  split
  next word isWord =>
    have starts := junk.starts word isWord
    have fails : declarationOf word = unexpected "declaration" := by
      unfold declarationOf
      split
      · simp [Keyword.startsDeclaration] at starts
      · simp [Keyword.startsDeclaration] at starts
      · simp [Keyword.startsDeclaration] at starts
      · simp [Keyword.startsDeclaration] at starts
      · rfl
    rw [fails]
    rfl
  next => rfl

theorem noSemicolon_of_junk {first : Token} {more : List Token} (junk : Junk first more) :
    first.kind ≠ .punctuation .semicolon := by
  cases junk.statement with
  | plain _ noSemicolon _ => exact noSemicolon
  | group => simp

theorem noImport_of_junk {first : Token} {more : List Token} (junk : Junk first more) :
    first.kind ≠ .keyword .importKw := fun isImport =>
  absurd (junk.starts _ isImport) (by simp [Keyword.startsDeclaration])

/-- Junk is reported, and what follows it is taken up where recovery ends. -/
theorem declarationSection_junk {first : Token} {more : List Token} (junk : Junk first more)
    (stop finish : Span) (rest : List Token) :
    declarationSection finish (first :: (more ++ .sign .semicolon stop :: rest)) =
      let later := declarationSection finish (resume rest)
      { later with findings := strayFinding first :: later.findings } := by
  have goesOn := drop_recovery junk.statement stop rest
  -- the finding took no token, so recovery itself has to move on
  have positive : 0 < recovery 0 (first :: (more ++ .sign .semicolon stop :: rest)) := by
    rw [← List.cons_append, recovery_statement junk.statement, List.length_cons]
    omega
  rw [List.cons_append, ← drop_pred positive] at goesOn
  rw [declarationSection, if_neg (noSemicolon_of_junk junk)]
  simp only [if_neg (noImport_of_junk junk), declaration_junk junk, List.drop_zero, Nat.zero_add]
  rw [goesOn]

theorem resume_junk {first : Token} {more : List Token} (junk : Junk first more) (stop : Span)
    (rest : List Token) :
    resume (first :: (more ++ .sign .semicolon stop :: rest)) = resume rest := by
  have goesOn := drop_recovery junk.statement stop rest
  rw [List.cons_append] at goesOn
  rw [resume, declares_junk junk, if_neg (by simp), goesOn]

theorem starts_of_declared {tokens : List Token} {d : Spanned Declaration}
    (declared : Declared tokens d) :
    ∃ word span more, tokens = ⟨.keyword word, span⟩ :: more ∧ word.startsDeclaration = true ∧
      word ≠ .importKw := by
  cases d with
  | mk value span =>
    cases declared.declares with
    | func => exact ⟨_, _, _, rfl, rfl, by simp⟩
    | single kind =>
      exact ⟨_, _, _, rfl, by cases kind <;> rfl, by cases kind <;> simp [GroupKind.keyword]⟩
    | many kind =>
      exact ⟨_, _, _, rfl, by cases kind <;> rfl, by cases kind <;> simp [GroupKind.keyword]⟩

theorem resume_declared {tokens : List Token} {d : Spanned Declaration}
    (declared : Declared tokens d) (rest : List Token) :
    resume (tokens ++ rest) = tokens ++ rest := by
  obtain ⟨word, span, more, rfl, starts, -⟩ := starts_of_declared declared
  exact if_pos starts

theorem declarationSection_declared {tokens : List Token} {d : Spanned Declaration}
    (declared : Declared tokens d) (stop finish : Span) (rest : List Token) :
    declarationSection finish (tokens ++ .sign .semicolon stop :: rest) =
      let later := declarationSection finish rest
      { later with declarations := d :: later.declarations } := by
  have takes : Takes declaration _ d rest := .declaration declared.declares declared.placed stop
  obtain ⟨taken, split, isOk⟩ := takes
  obtain ⟨word, span, more, rfl, -, noImport⟩ := starts_of_declared declared
  have isTaken : (⟨.keyword word, span⟩ :: more) ++ [.sign .semicolon stop] = taken := by
    rw [← List.append_left_inj rest, ← split]
    simp
  have behind : (more ++ .sign .semicolon stop :: rest).drop (taken.length - 1) = rest := by
    simp [← isTaken]
  rw [List.cons_append] at isOk ⊢
  rw [declarationSection, if_neg (by simp)]
  simp only [TokenKind.keyword.injEq, if_neg noImport, isOk, behind]

/-! ### Files -/

open Segment

/-- After a fault the parser passes over all junk up to the next declaration. -/
theorem resume_segments (segments : List Segment) :
    resume (segments.flatMap tokens) = (segments.dropWhile isJunk).flatMap tokens := by
  induction segments with
  | nil => rfl
  | cons segment rest ih =>
    cases segment with
    | declared declared stop =>
      rw [List.dropWhile_cons_of_neg (by simp [isJunk])]
      simp only [List.flatMap_cons, tokens, List.append_assoc]
      exact resume_declared declared _
    | junk junk stop =>
      rw [List.dropWhile_cons_of_pos rfl, ← ih]
      simp only [List.flatMap_cons, tokens, List.cons_append, List.append_assoc, List.nil_append]
      exact resume_junk junk stop _

theorem declarations_dropWhile (segments : List Segment) :
    (segments.dropWhile isJunk).filterMap declaration? = segments.filterMap declaration? := by
  induction segments with
  | nil => rfl
  | cons segment rest ih =>
    cases segment with
    | declared declared stop => rfl
    | junk junk stop => exact ih

theorem declarationSection_segments (finish : Span) (segments : List Segment) :
    declarationSection finish (segments.flatMap tokens) =
      ⟨segments.filterMap declaration?, (runStarts segments).map strayFinding⟩ := by
  -- one case for a whole run of junk, since recovery goes on past the semicolons within it
  fun_induction runStarts segments with
  | case1 => simp [declarationSection]
  | case2 _ _ declared stop rest ih =>
    simp only [List.flatMap_cons, tokens, List.append_assoc, List.cons_append, List.nil_append]
    rw [declarationSection_declared declared, ih]
    rfl
  | case3 first more junk stop rest ih =>
    simp only [List.flatMap_cons, tokens, List.append_assoc, List.cons_append, List.nil_append]
    rw [declarationSection_junk junk, resume_segments, ih, declarations_dropWhile]
    rfl

theorem importSection_segments (finish : Span) (segments : List Segment) :
    importSection finish (segments.flatMap tokens) = ⟨[], [], segments.flatMap tokens⟩ := by
  cases segments with
  | nil => simp [importSection]
  | cons segment rest =>
    cases segment with
    | declared declared stop =>
      obtain ⟨word, span, more, rfl, -, noImport⟩ := starts_of_declared declared
      simp [tokens, importSection, noImport]
    | junk junk stop =>
      have noImport := noImport_of_junk junk
      simp [tokens, importSection, noSemicolon_of_junk junk, noImport]

theorem noEnd_segments (segments : List Segment) :
    ∀ token ∈ segments.flatMap tokens, token.kind ≠ .eof := by
  intro token mem
  obtain ⟨segment, -, isToken⟩ := List.mem_flatMap.mp mem
  cases segment with
  | declared declared stop =>
    rcases List.mem_append.mp isToken with isOwn | isStop
    · exact declared.noEnd token isOwn
    · simp [List.mem_singleton.mp isStop]
  | junk junk stop =>
    rw [tokens, ← List.cons_append] at isToken
    rcases List.mem_append.mp isToken with isOwn | isStop
    · exact junk.noEnd token isOwn
    · simp [List.mem_singleton.mp isStop]

theorem runStarts_eq_nil_iff (segments : List Segment) :
    runStarts segments = [] ↔ ∀ segment ∈ segments, segment.isJunk = false := by
  fun_induction runStarts segments with
  | case1 => simp
  | case2 _ _ declared stop rest ih => simpa [isJunk] using ih
  | case3 first more junk stop rest ih => simp [isJunk]

theorem takes_packageClause {name : Spanned String} (notBlank : name.value ≠ "_")
    (keyword stop : Span) (rest : List Token) :
    Takes packageClause
      (⟨.keyword .packageKw, keyword⟩ :: name.token :: .sign .semicolon stop :: rest)
      name rest := by
  have skipped : Takes skipSemicolons
      (⟨.keyword .packageKw, keyword⟩ :: name.token :: .sign .semicolon stop :: rest) () _ :=
    ⟨[], rfl, fun _ => rfl⟩
  refine skipped.bind (Takes.peek.bind (Takes.advance.bind (Takes.peek.bind ?_)))
  dsimp only [Spanned.token]
  rw [if_neg notBlank]
  exact Takes.advance.bind ((Takes.lineEnd stop).bind (.pure _))

def segmented (keyword : Span) (name : Spanned String) (stop : Span) (segments : List Segment)
    (finish : Span) : List Token :=
  ⟨.keyword .packageKw, keyword⟩ :: name.token :: .sign .semicolon stop ::
    (segments.flatMap tokens ++ [⟨.eof, finish⟩])

theorem parse_segmented {name : Spanned String} (notBlank : name.value ≠ "_")
    (keyword stop finish : Span) (segments : List Segment) (lines : LineIndex) :
    parse (segmented keyword name stop segments finish) lines =
      match (runStarts segments).map strayFinding with
      | [] => .ok ⟨name, [], segments.filterMap declaration?, lines⟩
      | found => .error found := by
  have noEnd : ∀ token ∈ ⟨.keyword .packageKw, keyword⟩ :: name.token :: .sign .semicolon stop ::
      segments.flatMap tokens, token.kind ≠ .eof := by
    simpa [Spanned.token] using noEnd_segments segments
  have isStream : Stream.ofTokens (segmented keyword name stop segments finish) = ⟨_, finish⟩ :=
    Stream.ofTokens_append noEnd rfl
  obtain ⟨taken, split, isPackage⟩ :=
    takes_packageClause notBlank keyword stop (segments.flatMap tokens)
  have behind := congrArg (List.drop taken.length) split
  rw [List.drop_left] at behind
  rw [parse, isStream, parseStream, isPackage]
  cases reported : (runStarts segments).map strayFinding with
  | nil => simp [behind, importSection_segments, declarationSection_segments, reported]
  | cons => simp [behind, importSection_segments, declarationSection_segments, reported]

/-- A file of declarations and junk: without junk it is accepted with all its declarations, and
otherwise every run of junk is reported once, at its first token. -/
theorem parse_segments {name : Spanned String} (notBlank : name.value ≠ "_")
    (keyword stop finish : Span) (segments : List Segment) (lines : LineIndex) :
    ((∀ segment ∈ segments, segment.isJunk = false) →
      parse (segmented keyword name stop segments finish) lines =
        .ok ⟨name, [], segments.filterMap declaration?, lines⟩) ∧
    ((∃ segment ∈ segments, segment.isJunk = true) →
      parse (segmented keyword name stop segments finish) lines =
        .error ((runStarts segments).map strayFinding)) := by
  have parsed := parse_segmented notBlank keyword stop finish segments lines
  refine ⟨fun clean => ?_, fun ⟨segment, mem, isJunk⟩ => ?_⟩
  · rw [parsed, (runStarts_eq_nil_iff segments).mpr clean]
    rfl
  · have faulty : runStarts segments ≠ [] := fun none => by
      have clean := (runStarts_eq_nil_iff segments).mp none segment mem
      simp [clean] at isJunk
    obtain ⟨first, later, isRuns⟩ := List.exists_cons_of_ne_nil faulty
    rw [parsed, isRuns]
    rfl

theorem parse_segments_two_runs :
    ∃ segments, Lexer.lex "package p; x; (;); func f(); 1;" =
        .ok (segmented ⟨0, 7⟩ ⟨"p", ⟨8, 9⟩⟩ ⟨9, 10⟩ segments ⟨31, 31⟩) ∧
      segments.map isJunk = [true, true, false, true] ∧
      ∀ lines, parse (segmented ⟨0, 7⟩ ⟨"p", ⟨8, 9⟩⟩ ⟨9, 10⟩ segments ⟨31, 31⟩) lines =
        .error [strayFinding ⟨.ident "x", ⟨11, 12⟩⟩, strayFinding ⟨.int 1, ⟨29, 30⟩⟩] := by
  let name : Segment :=
    @junk ⟨.ident "x", ⟨11, 12⟩⟩ [] ⟨.plain rfl (by simp) .nil, by simp, by simp⟩ ⟨12, 13⟩
  let group : Segment :=
    @junk (.sign (.opening .paren) ⟨14, 15⟩)
      [.sign .semicolon ⟨15, 16⟩, .sign (.closing .paren) ⟨16, 17⟩]
      ⟨@Statement.group .paren _ _ [_] [] (.plain rfl .nil) .nil, by simp, by simp⟩ ⟨17, 18⟩
  let func : Segment :=
    @declared [⟨.keyword .funcKw, ⟨19, 23⟩⟩, ⟨.ident "f", ⟨24, 25⟩⟩,
        .sign (.opening .paren) ⟨25, 26⟩, .sign (.closing .paren) ⟨26, 27⟩]
      ⟨.func ⟨"f", ⟨24, 25⟩⟩ none false, ⟨19, 27⟩⟩
      ⟨Declares.func _ ⟨"f", ⟨24, 25⟩⟩ .none
          (@Signature.parameters .paren (by simp) ⟨25, 26⟩ ⟨26, 27⟩ [] [] .nil .nil) .none,
        ⟨_, _, rfl, rfl, rfl⟩, by simp⟩ ⟨27, 28⟩
  let number : Segment :=
    @junk ⟨.int 1, ⟨29, 30⟩⟩ [] ⟨.plain rfl (by simp) .nil, by simp, by simp⟩ ⟨30, 31⟩
  refine ⟨[name, group, func, number], by decide +kernel, rfl, fun lines => ?_⟩
  have notBlank : (⟨"p", ⟨8, 9⟩⟩ : Spanned String).value ≠ "_" := by decide
  have reported := (parse_segments notBlank ⟨0, 7⟩ ⟨9, 10⟩ ⟨31, 31⟩ [name, group, func, number]
    lines).2 ⟨name, List.mem_cons_self, rfl⟩
  have starts : runStarts [name, group, func, number] =
      [⟨.ident "x", ⟨11, 12⟩⟩, ⟨.int 1, ⟨29, 30⟩⟩] := by
    simp [name, group, func, number, runStarts, isJunk, List.dropWhile_cons]
  rw [starts] at reported
  exact reported

end Parser

end GoFront
