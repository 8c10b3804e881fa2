import GoFront.Proofs.Lexer.Layout

/-!
Where semicolons are inserted: once between a token that can end a line and the next one if the
line breaks between them, and at the end of the text if it has not broken before. Each stands at
the first break of its line.
-/
namespace GoFront.Lexer

/-! ### Breaks of a line -/

/-- The text breaks the line: it is a line feed, or a block comment with a line feed in it. -/
inductive BreaksLine : List Char → Prop where
  | feed : BreaksLine ['\n']
  | comment {body : List Char} (first : ¬['*', '/'] <:+: body ++ ['*']) (spans : '\n' ∈ body) :
      BreaksLine ('/' :: '*' :: body ++ ['*', '/'])

/-- The gap before `after` breaks the line first right behind `front`. -/
inductive FirstBreak (front : List Char) : List Char → List Char → Prop where
  | intro {mark rest after : List Char} (quiet : '\n' ∉ front)
      (isGap : Gap front (mark ++ rest ++ after)) (breaks : BreaksLine mark) :
      FirstBreak front (front ++ (mark ++ rest)) after

theorem BreaksLine.feed_mem {mark : List Char} (breaks : BreaksLine mark) : '\n' ∈ mark := by
  cases breaks with
  | feed => exact List.mem_cons_self
  | comment _ spans => simp [spans]

theorem scanSign_isToken {c : Char} {rest : List Char} {lexeme : Lexeme}
    (accepted : (scanSign c rest).result = .ok lexeme) : ∃ kind, lexeme = .token kind := by
  rw [scanSign_eq] at accepted
  split at accepted
  next text kind _ => exact ⟨kind, (Except.ok.inj accepted).symm⟩
  next => simp [refused] at accepted

theorem token_isToken {piece : Piece TokenKind} {lexeme : Lexeme}
    (accepted : piece.token.result = .ok lexeme) : ∃ kind, lexeme = .token kind := by
  obtain ⟨kind, result⟩ := token_accepted accepted
  simp only [Piece.token, result, Except.map, Except.ok.injEq] at accepted
  exact ⟨kind, accepted.symm⟩

/-- What an accepted piece does to the line that it stands in. -/
inductive LineEffect (text : List Char) : Lexeme → Prop where
  | blank (quiet : '\n' ∉ text) : LineEffect text .blank
  | lineBreak (breaks : BreaksLine text) : LineEffect text .lineBreak
  | token (kind : TokenKind) : LineEffect text (.token kind)

theorem LineEffect.of_isToken {text : List Char} {lexeme : Lexeme}
    (isToken : ∃ kind, lexeme = .token kind) : LineEffect text lexeme := by
  obtain ⟨kind, rfl⟩ := isToken
  exact .token kind

theorem scanComment_effect {rest : List Char} {lexeme : Lexeme}
    (accepted : (scanComment rest).result = .ok lexeme) :
    LineEffect (scanComment rest).text lexeme := by
  unfold scanComment at accepted ⊢
  split at accepted
  next body found =>
    obtain ⟨inside, rfl, first, -⟩ := commentBody?_front found
    obtain rfl := Except.ok.inj accepted
    by_cases feed : '\n' ∈ inside
    · simpa [feed] using LineEffect.lineBreak (.comment first feed)
    · have quiet : '\n' ∉ '/' :: '*' :: (inside ++ ['*', '/']) := by simp [feed]
      simpa [feed] using LineEffect.blank quiet
  next => simp [refused] at accepted

theorem scanSlash_effect {rest : List Char} {lexeme : Lexeme}
    (accepted : (scanSlash rest).result = .ok lexeme) :
    LineEffect (scanSlash rest).text lexeme := by
  unfold scanSlash at accepted ⊢
  split at accepted
  next comment =>
    obtain rfl := Except.ok.inj accepted
    exact .blank fun feed => by simpa using List.mem_takeWhile_imp feed
  next body => exact scanComment_effect accepted
  next => exact .of_isToken (scanSign_isToken accepted)

theorem scanDot_isToken {rest : List Char} {lexeme : Lexeme}
    (accepted : (scanDot rest).result = .ok lexeme) : ∃ kind, lexeme = .token kind := by
  unfold scanDot at accepted
  split at accepted
  next digit more =>
    split at accepted
    · exact token_isToken accepted
    · exact scanSign_isToken accepted
  next => exact scanSign_isToken accepted

theorem scan_effect {c : Char} {rest : List Char} {lexeme : Lexeme}
    (accepted : (scan c rest).result = .ok lexeme) : LineEffect (scan c rest).text lexeme := by
  have chosen := scan_chooses c
  generalize scan c = scanner at chosen accepted ⊢
  cases chosen with
  | space isSpace =>
    obtain rfl := Except.ok.inj accepted
    refine .blank fun feed => ?_
    obtain rfl := List.mem_singleton.mp feed
    simp at isSpace
  | feed isFeed =>
    obtain rfl := Except.ok.inj accepted
    exact isFeed ▸ .lineBreak .feed
  | slash => exact scanSlash_effect accepted
  | dot => exact .of_isToken (scanDot_isToken accepted)
  | string => exact .of_isToken (token_isToken accepted)
  | rawString => exact .of_isToken (token_isToken accepted)
  | rune => exact .of_isToken (token_isToken accepted)
  | number => exact .of_isToken (token_isToken accepted)
  | word =>
    obtain rfl := Except.ok.inj accepted
    exact .token _
  | sign => exact .of_isToken (scanSign_isToken accepted)

/-! ### Between two tokens -/

/-- The semicolons that are inserted before the token `next`, where `gap` stands before it and
`before` in front of that; `canEnd` says that the token before the gap can end a line. -/
structure Inserted (canEnd : Bool) (before gap after : List Char) (inserted : List Token)
    (next : Token) : Prop where
  isGap : Gap gap after
  starts : next.span.start = Text.byteLength (before ++ gap)
  needed : inserted ≠ [] ↔ canEnd ∧ (next.kind = .eof ∨ '\n' ∈ gap)
  once : inserted.length ≤ 1
  placed : ∀ token ∈ inserted,
    (∃ front, FirstBreak front gap after ∧
      token = .lineEnd (Text.byteLength (before ++ front))) ∨
    '\n' ∉ gap ∧ token = .lineEnd (Text.byteLength (before ++ gap ++ after))

namespace Inserted

variable {canEnd : Bool} {before text gap after : List Char} {inserted : List Token} {next : Token}

theorem implicit (stretch : Inserted canEnd before gap after inserted next) :
    ∀ token ∈ inserted, token.implicit := by
  intro token mem
  rcases stretch.placed token mem with ⟨front, -, rfl⟩ | ⟨-, rfl⟩ <;>
    simp [Token.implicit, Token.lineEnd]

theorem eq_nil (stretch : Inserted false before gap after inserted next) : inserted = [] := by
  by_contra some
  simpa using stretch.needed.mp some

theorem after_blank (stretch : Inserted canEnd (before ++ text) gap after inserted next)
    (joins : Joins text (gap ++ after)) (quiet : '\n' ∉ text) :
    Inserted canEnd before (text ++ gap) after inserted next := by
  obtain ⟨isGap, starts, needed, once, placed⟩ := stretch
  refine ⟨joins gap after rfl isGap, by rw [starts, List.append_assoc], ?_, once, ?_⟩
  · rw [needed, List.mem_append, or_iff_right quiet]
  · intro token mem
    rcases placed token mem with ⟨front, isFirst, rfl⟩ | ⟨quietGap, rfl⟩
    · refine .inl ⟨text ++ front, ?_, by rw [List.append_assoc]⟩
      cases isFirst with
      | @intro mark rest _ quietFront isFront breaks =>
        have joined := joins front (mark ++ rest ++ after) (by simp) isFront
        rw [← List.append_assoc]
        exact .intro (by simp [quiet, quietFront]) joined breaks
    · exact .inr ⟨by simp [quiet, quietGap], by simp⟩

theorem after_break (stretch : Inserted false (before ++ text) gap after inserted next)
    (joins : Joins text (gap ++ after)) (breaks : BreaksLine text) :
    Inserted canEnd before (text ++ gap) after
      (lineEnd canEnd (Text.byteLength before) ++ inserted) next := by
  have feed : '\n' ∈ text ++ gap := List.mem_append_left _ breaks.feed_mem
  obtain rfl := stretch.eq_nil
  refine ⟨joins gap after rfl stretch.isGap, by rw [stretch.starts, List.append_assoc], ?_, ?_, ?_⟩
  · cases canEnd <;> simp [lineEnd, feed]
  · cases canEnd <;> simp [lineEnd]
  · intro token mem
    refine .inl ⟨[], .intro (by simp) (.nil _) breaks, ?_⟩
    cases canEnd <;> simp_all [lineEnd]

end Inserted

/-! ### The token stream -/

/-- The tokens of the text behind `before`, inserted semicolons and the end of the file included;
`canEnd` says that the token before the text can end a line. -/
inductive Lined : Bool → List Char → List Token → List Char → Prop where
  | done {canEnd : Bool} {before gap : List Char} {inserted : List Token} {next : Token}
      (stretch : Inserted canEnd before gap [] inserted next) (isEnd : next.kind = .eof) :
      Lined canEnd before (inserted ++ [next]) gap
  | token {canEnd : Bool} {before gap word after : List Char} {inserted rest : List Token}
      {next : Token} (stretch : Inserted canEnd before gap (word ++ after) inserted next)
      (nonempty : next.span.start < next.span.stop)
      (stops : next.span.stop = Text.byteLength (before ++ gap ++ word))
      (notEnd : next.kind ≠ .eof)
      (later : Lined next.kind.endsLine (before ++ gap ++ word) rest after) :
      Lined canEnd before (inserted ++ next :: rest) (gap ++ (word ++ after))

/-- Text in front of the first gap belongs to it if that keeps what is inserted there. -/
theorem Lined.lengthen {canEnd canEndLater : Bool} {before text after : List Char}
    {found : List Token} (extra : List Token)
    (lined : Lined canEndLater (before ++ text) found after)
    (longer : ∀ gap later inserted next, after = gap ++ later →
      Inserted canEndLater (before ++ text) gap later inserted next →
      Inserted canEnd before (text ++ gap) later (extra ++ inserted) next) :
    Lined canEnd before (extra ++ found) (text ++ after) := by
  generalize isBefore : before ++ text = start at lined longer
  cases lined with
  | done stretch isEnd =>
    rw [← List.append_assoc]
    exact .done (longer _ _ _ _ (List.append_nil _).symm stretch) isEnd
  | token stretch nonempty stops notEnd later =>
    subst isBefore
    rw [← List.append_assoc, ← List.append_assoc]
    rw [List.append_assoc before] at stops later
    exact .token (longer _ _ _ _ rfl stretch) nonempty stops notEnd later

theorem lined_tokens {before text : List Char} (canEnd : Bool)
    (accepted : ∀ piece ∈ pieces text, piece.Accepted) :
    Lined canEnd before (tokens (Text.byteLength before) canEnd (pieces text)) text := by
  induction text using pieces_induction generalizing before canEnd with
  | nil =>
    have stretch : Inserted canEnd before [] [] (lineEnd canEnd (Text.byteLength before))
        ⟨.eof, ⟨Text.byteLength before, Text.byteLength before⟩⟩ := by
      refine ⟨.nil [], by simp, ?_, ?_, fun token mem => .inr ?_⟩
      · cases canEnd <;> simp [lineEnd]
      · cases canEnd <;> simp [lineEnd]
      · cases canEnd <;> simp_all [lineEnd]
    rw [pieces, tokens]
    exact .done stretch rfl
  | cons c rest after split ih =>
    rw [pieces_cons split, List.forall_mem_cons] at accepted
    obtain ⟨⟨lexeme, result⟩, acceptedLater⟩ := accepted
    have next : Text.byteLength before + Text.byteLength (scan c rest).text =
        Text.byteLength (before ++ (scan c rest).text) := (Text.byteLength_append _ _).symm
    have reads := scan_reading c rest lexeme after result split
    have effect := scan_effect result
    rw [pieces_cons split, split]
    cases effect with
    | blank quiet =>
      cases reads with
      | gap _ joins =>
        simp only [tokens, result, next]
        refine Lined.lengthen [] (ih canEnd acceptedLater) ?_
        intro gap later inserted following isAfter stretch
        exact stretch.after_blank (isAfter ▸ joins) quiet
    | lineBreak breaks =>
      cases reads with
      | gap _ joins =>
        simp only [tokens, result, next]
        refine Lined.lengthen _ (ih false acceptedLater) ?_
        intro gap later inserted following isAfter stretch
        exact stretch.after_break (isAfter ▸ joins) breaks
    | token kind =>
      have nonempty := byteLength_pos (scan_cuts c rest).nonempty
      have stretch : Inserted canEnd before [] ((scan c rest).text ++ after) []
          ⟨kind, ⟨Text.byteLength before, Text.byteLength (before ++ (scan c rest).text)⟩⟩ :=
        ⟨.nil _, by simp, by simp [reads.ne_eof], by simp, by simp⟩
      have covers : Text.byteLength before < Text.byteLength (before ++ (scan c rest).text) := by
        rw [Text.byteLength_append]
        omega
      have later : Lined kind.endsLine (before ++ (scan c rest).text)
          (tokens (Text.byteLength (before ++ (scan c rest).text)) kind.endsLine (pieces after))
          after := ih kind.endsLine acceptedLater
      simp only [tokens, result, next]
      rw [← List.append_nil before] at later
      simpa using Lined.token stretch covers (by simp) reads.ne_eof later

/-! ### Reading the stream -/

theorem takeWhile_implicit {inserted : List Token} {next : Token}
    (implicit : ∀ token ∈ inserted, token.implicit) (written : next.implicit = false)
    (rest : List Token) : (inserted ++ next :: rest).takeWhile Token.implicit = inserted := by
  rw [List.takeWhile_append_of_pos implicit, List.takeWhile_cons_of_neg (by simp [written]),
    List.append_nil]

/-- A list is split at its first token that is not implicit in one way only. -/
theorem split_first {inserted others rest later : List Token} {next other : Token}
    (same : inserted ++ next :: rest = others ++ other :: later)
    (implicit : ∀ token ∈ inserted, token.implicit) (written : next.implicit = false)
    (implicitOther : ∀ token ∈ others, token.implicit) (writtenOther : other.implicit = false) :
    inserted = others ∧ next = other ∧ rest = later := by
  have sameFront : inserted = others := by
    rw [← takeWhile_implicit implicit written rest, same,
      takeWhile_implicit implicitOther writtenOther later]
  subst sameFront
  exact ⟨rfl, List.cons.inj (List.append_cancel_left same)⟩

/-- A token that is not implicit is the first such one or stands behind it. -/
theorem split_later {inserted front rest later : List Token} {next token : Token}
    (same : inserted ++ next :: rest = front ++ token :: later)
    (implicit : ∀ token ∈ inserted, token.implicit) (written : token.implicit = false) :
    (next = token ∧ rest = later) ∨
      ∃ more, front = inserted ++ next :: more ∧ rest = more ++ token :: later := by
  rcases List.append_eq_append_iff.mp same with ⟨more, rfl, isRest⟩ | ⟨more, rfl, isRest⟩
  · rcases List.cons_eq_append_iff.mp isRest with ⟨rfl, sameRest⟩ | ⟨more, rfl, rfl⟩
    · obtain ⟨rfl, rfl⟩ := List.cons.inj sameRest
      exact .inl ⟨rfl, rfl⟩
    · exact .inr ⟨more, rfl, rfl⟩
  · rcases List.cons_eq_append_iff.mp isRest with ⟨rfl, sameRest⟩ | ⟨more, rfl, -⟩
    · obtain ⟨rfl, rfl⟩ := List.cons.inj sameRest
      exact .inl ⟨rfl, rfl⟩
    · have := implicit token (by simp)
      simp [written] at this

theorem not_implicit_of_eof {token : Token} (isEnd : token.kind = .eof) :
    token.implicit = false := by
  simp [Token.implicit, isEnd]

theorem not_implicit_of_nonempty {token : Token} (nonempty : token.span.start < token.span.stop) :
    token.implicit = false := by
  simp [Token.implicit, nonempty.ne]

namespace Lined

variable {canEnd : Bool} {before text : List Char} {found inserted rest : List Token} {next : Token}

theorem first (lined : Lined canEnd before found text) (split : found = inserted ++ next :: rest)
    (implicit : ∀ token ∈ inserted, token.implicit) (notImplicit : next.implicit = false) :
    ∃ gap after, text = gap ++ after ∧ Inserted canEnd before gap after inserted next := by
  cases lined with
  | done stretch isEnd =>
    obtain ⟨rfl, rfl, -⟩ := split_first split stretch.implicit (not_implicit_of_eof isEnd) implicit
      notImplicit
    exact ⟨_, [], (List.append_nil _).symm, stretch⟩
  | token stretch nonempty _ _ _ =>
    obtain ⟨rfl, rfl, -⟩ := split_first split stretch.implicit (not_implicit_of_nonempty nonempty)
      implicit notImplicit
    exact ⟨_, _, rfl, stretch⟩

theorem between (lined : Lined canEnd before found text) {front : List Token} {token : Token}
    (split : found = front ++ token :: (inserted ++ next :: rest)) (written : token.written)
    (implicit : ∀ token ∈ inserted, token.implicit) (notImplicit : next.implicit = false) :
    ∃ earlier gap after, before ++ text = earlier ++ gap ++ after ∧
      token.span.stop = Text.byteLength earlier ∧
      Inserted token.kind.endsLine earlier gap after inserted next := by
  obtain ⟨tokenNotImplicit, tokenNotEnd⟩ : token.implicit = false ∧ token.kind ≠ .eof := by
    simpa [Token.written] using written
  induction lined generalizing front with
  | done stretch isEnd =>
    rcases split_later split stretch.implicit tokenNotImplicit with ⟨rfl, -⟩ | ⟨more, -, isEmpty⟩
    · exact absurd isEnd tokenNotEnd
    · simp at isEmpty
  | @token canEnd before gap word after _ _ head stretch nonempty stops notEnd later ih =>
    have place := split_later split stretch.implicit tokenNotImplicit
    rcases place with ⟨rfl, isRest⟩ | ⟨more, -, isRest⟩
    · obtain ⟨nextGap, nextAfter, isAfter, inserted⟩ := later.first isRest implicit notImplicit
      exact ⟨before ++ gap ++ word, nextGap, nextAfter, by simp [isAfter], stops, inserted⟩
    · simpa using ih isRest

/-- An implicit token stands before the first token that is not, or between a written token and
the next one that is not implicit. -/
theorem implicit_place (lined : Lined canEnd before found text) :
    ∀ semicolon ∈ found, semicolon.implicit →
      ∃ front inserted next rest, found = front ++ (inserted ++ next :: rest) ∧
        semicolon ∈ inserted ∧ (∀ token ∈ inserted, token.implicit) ∧ next.implicit = false ∧
        (front = [] ∨ ∃ earlier token, front = earlier ++ [token] ∧ token.written) := by
  induction lined with
  | @done _ _ _ inserted next stretch isEnd =>
    intro semicolon mem isImplicit
    have notEnd := not_implicit_of_eof isEnd
    refine ⟨[], inserted, next, [], rfl, ?_, stretch.implicit, notEnd, .inl rfl⟩
    rcases List.mem_append.mp mem with here | last
    · exact here
    · obtain rfl := List.mem_singleton.mp last
      simp [notEnd] at isImplicit
  | @token _ _ _ _ _ inserted rest head stretch nonempty _ notEnd _ ih =>
    intro semicolon mem isImplicit
    have notImplicit := not_implicit_of_nonempty nonempty
    rcases List.mem_append.mp mem with here | behind
    · exact ⟨[], inserted, head, rest, rfl, here, stretch.implicit, notImplicit, .inl rfl⟩
    rcases List.mem_cons.mp behind with rfl | later
    · simp [notImplicit] at isImplicit
    obtain ⟨front, between, next, last, rfl, isBetween, implicit, nextNotImplicit, place⟩ :=
      ih semicolon later isImplicit
    refine ⟨inserted ++ head :: front, between, next, last, by simp, isBetween, implicit,
      nextNotImplicit, .inr ?_⟩
    rcases place with rfl | ⟨earlier, token, rfl, written⟩
    · exact ⟨inserted, head, rfl, by simp [Token.written, notImplicit, notEnd]⟩
    · exact ⟨inserted ++ head :: earlier, token, by simp, written⟩

theorem covers (lined : Lined canEnd before found text) :
    ∀ token ∈ found, token.implicit = false →
      token.kind = .eof ∨ token.span.start < token.span.stop := by
  induction lined with
  | done stretch isEnd =>
    intro token mem notImplicit
    rcases List.mem_append.mp mem with inserted | last
    · simp [stretch.implicit token inserted] at notImplicit
    · exact .inl (List.mem_singleton.mp last ▸ isEnd)
  | token stretch nonempty _ _ _ ih =>
    intro token mem notImplicit
    rcases List.mem_append.mp mem with inserted | behind
    · simp [stretch.implicit token inserted] at notImplicit
    rcases List.mem_cons.mp behind with rfl | later
    · exact .inr nonempty
    · exact ih token later notImplicit

end Lined

/-- Semicolons are inserted into the token stream where lines end, and nowhere else. -/
structure Terminated (source : String) (found : List Token) : Prop where
  /-- None stands before the first other token. -/
  first : ∀ inserted next rest, found = inserted ++ next :: rest →
    (∀ token ∈ inserted, token.implicit) → next.implicit = false → inserted = []
  /-- What stands between a written token and the next written one, or the end of the file. -/
  between : ∀ front token inserted next rest, found = front ++ token :: (inserted ++ next :: rest) →
    token.written → (∀ token ∈ inserted, token.implicit) → next.implicit = false →
    ∃ before gap after, source.toList = before ++ gap ++ after ∧
      token.span.stop = Text.byteLength before ∧
      Inserted token.kind.endsLine before gap after inserted next
  /-- An implicit token is one of those between two others. -/
  implicit : ∀ semicolon ∈ found, semicolon.implicit →
    ∃ front token inserted next rest, found = front ++ token :: (inserted ++ next :: rest) ∧
      token.written ∧ (∀ token ∈ inserted, token.implicit) ∧ next.implicit = false ∧
      semicolon ∈ inserted
  /-- All others cover some text of the source but the end of the file. -/
  written : ∀ token ∈ found, token.implicit = false →
    token.kind = .eof ∨ token.span.start < token.span.stop

/-- Semicolons are inserted exactly where the lines of a text without faults end. -/
theorem lex_terminated {source : String} {found : List Token} (lexed : lex source = .ok found) :
    Terminated source found := by
  have lined : Lined false [] found source.toList := by
    obtain ⟨accepted, rfl⟩ := lexChars_eq_ok_iff.mp lexed
    exact lined_tokens false accepted
  have first : ∀ inserted next rest, found = inserted ++ next :: rest →
      (∀ token ∈ inserted, token.implicit) → next.implicit = false → inserted = [] := by
    intro inserted next rest split implicit notImplicit
    obtain ⟨gap, after, -, stretch⟩ := lined.first split implicit notImplicit
    exact stretch.eq_nil
  refine ⟨first, ?_, ?_, lined.covers⟩
  · intro front token inserted next rest split written implicit notImplicit
    simpa using lined.between split written implicit notImplicit
  · intro semicolon mem isImplicit
    obtain ⟨front, inserted, next, rest, split, isInserted, implicit, notImplicit, place⟩ :=
      lined.implicit_place semicolon mem isImplicit
    rcases place with rfl | ⟨earlier, token, rfl, written⟩
    · obtain rfl := first inserted next rest split implicit notImplicit
      simp at isInserted
    · exact ⟨earlier, token, inserted, next, rest, by simpa using split, written, implicit,
        notImplicit, isInserted⟩

theorem lex_terminated_comment :
    ∃ found, lex "x /* a\n */ // b\n\ny" = .ok found ∧
      Terminated "x /* a\n */ // b\n\ny" found :=
  ⟨[⟨.ident "x", ⟨0, 1⟩⟩, .lineEnd 2, ⟨.ident "y", ⟨17, 18⟩⟩, .lineEnd 18, ⟨.eof, ⟨18, 18⟩⟩],
    by decide +kernel, lex_terminated (by decide +kernel)⟩

end GoFront.Lexer
