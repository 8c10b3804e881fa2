import GoFront.Proofs.Parser.Walk.Reach
import GoFront.Proofs.Parser.Grammar

/-!
Skipping one delimited group. `Opens` says which groups are open behind some tokens without the
stack that the skipping keeps. The two agree after every token, so it is settled by the first token
that closes the outermost group, or closes another than the nearest one, or ends the file.
-/
open GoFront.Parser (closeGroups)

namespace GoFront

/-- The groups that are open behind the tokens, the nearest first. The first token opens the
outermost one, and everything between two openers is nested. -/
inductive Opens : List Token → List (Spanned Delimiter) → Prop where
  | outermost (group : Spanned Delimiter) {inside : List Token}
      (nested : Nested (inside.map (·.kind))) :
      Opens (.sign (.opening group.value) group.span :: inside) [group]
  | deeper {front inside : List Token} {stack : List (Spanned Delimiter)}
      (outside : Opens front stack) (group : Spanned Delimiter)
      (nested : Nested (inside.map (·.kind))) :
      Opens (front ++ .sign (.opening group.value) group.span :: inside) (group :: stack)

/-- What skipping the group at the start of the tokens comes to. -/
inductive Settles (tokens : List Token) : Reply Span → Prop where
  | closed {delimiter : Delimiter} {opener closer : Span} {inside : List Token}
      (starts : .sign (.opening delimiter) opener ::
        (inside ++ [.sign (.closing delimiter) closer]) <+: tokens)
      (nested : Nested (inside.map (·.kind))) : Settles tokens (.ok closer (inside.length + 2))
  | mismatched {front : List Token} {inner : Spanned Delimiter} {outer : List (Spanned Delimiter)}
      {found : Delimiter} {span : Span}
      (starts : front ++ [.sign (.closing found) span] <+: tokens)
      (opens : Opens front (inner :: outer)) (differs : found ≠ inner.value) :
      Settles tokens (.fail ⟨.mismatched inner.value.closer found.closer, span⟩ front.length)
  | unclosed {inner : Spanned Delimiter} {outer : List (Spanned Delimiter)}
      (opens : Opens tokens (inner :: outer)) :
      Settles tokens (.fail ⟨.unclosed inner.value.opener, inner.span⟩ tokens.length)

theorem opener_cons_inj {delimiter delimiter' : Delimiter} {opener opener' : Span}
    {rest rest' : List Token} :
    Token.sign (.opening delimiter) opener :: rest = .sign (.opening delimiter') opener' :: rest' ↔
      (delimiter = delimiter' ∧ opener = opener') ∧ rest = rest' := by
  simp

namespace Opens

variable {front more : List Token} {stack outer : List (Spanned Delimiter)}
  {inner : Spanned Delimiter}

theorem append (opens : Opens front stack) (nested : Nested (more.map (·.kind))) :
    Opens (front ++ more) stack := by
  cases opens with
  | outermost group within =>
    have both := within.append nested
    rw [← List.map_append] at both
    exact .outermost group both
  | deeper outside group within =>
    have both := within.append nested
    rw [← List.map_append] at both
    simpa using Opens.deeper outside group both

theorem opening (opens : Opens front stack) (group : Spanned Delimiter) :
    Opens (front ++ [.sign (.opening group.value) group.span]) (group :: stack) :=
  opens.deeper group .nil

theorem closing {next : Spanned Delimiter} {others : List (Spanned Delimiter)}
    (opens : Opens front (inner :: next :: others)) (span : Span) :
    Opens (front ++ [.sign (.closing inner.value) span]) (next :: others) := by
  cases opens with
  | @deeper front inside _ outside _ within =>
    have whole : Nested ((.sign (.opening inner.value) inner.span ::
        (inside ++ [.sign (.closing inner.value) span])).map Token.kind) := by
      simpa using Nested.wrap inner.value within
    simpa using outside.append whole

/-- The groups that are open are the stack of the skipping. -/
theorem closeGroups_append (opens : Opens front stack) : ∃ group inside inner outer,
    front = .sign (.opening group.value) group.span :: inside ∧ stack = inner :: outer ∧
      ∀ rest, closeGroups group [] (inside ++ rest) =
        (closeGroups inner outer rest).after inside.length := by
  induction opens with
  | @outermost group inside nested =>
    exact ⟨group, inside, group, [], rfl, rfl, Parser.closeGroups_nested nested group []⟩
  | @deeper front later stack outside next nested ih =>
    obtain ⟨group, inside, inner, outer, rfl, rfl, skips⟩ := ih
    refine ⟨group, inside ++ .sign (.opening next.value) next.span :: later, next, inner :: outer,
      rfl, rfl, fun rest => ?_⟩
    have opens : closeGroups inner outer
        (.sign (.opening next.value) next.span :: (later ++ rest)) =
          (closeGroups next (inner :: outer) (later ++ rest)).after 1 := rfl
    rw [List.append_assoc, List.cons_append, skips, opens, Parser.closeGroups_nested nested,
      Reply.after_after, Reply.after_after, List.length_append, List.length_cons]
    congr 1
    omega

end Opens

namespace Settles

theorem step {front rest : List Token} {token : Token} {reply : Reply Span}
    (settles : Settles ((front ++ [token]) ++ rest) (reply.after (front ++ [token]).length)) :
    Settles (front ++ token :: rest) ((reply.after 1).after front.length) := by
  simpa [Reply.after_after] using settles

theorem of_opens {front : List Token} {inner : Spanned Delimiter} {outer : List (Spanned Delimiter)}
    (opens : Opens front (inner :: outer)) (later : List Token) :
    Settles (front ++ later) ((closeGroups inner outer later).after front.length) := by
  fun_induction closeGroups inner outer later generalizing front with
  | case1 =>
    rw [List.append_nil]
    exact .unclosed opens
  | case2 inner outer token rest delimiter isOpening ih =>
    obtain ⟨kind, span⟩ := token
    obtain rfl : kind = .punctuation (.opening delimiter) := isOpening
    exact .step (ih (opens.opening ⟨delimiter, span⟩))
  | case3 inner token rest isClosing =>
    obtain ⟨kind, span⟩ := token
    obtain rfl : kind = .punctuation (.closing inner.value) := isClosing
    -- The last open group closes. By the stack it is the outermost one.
    cases opens with
    | @outermost _ inside nested =>
      have starts : Token.sign (.opening inner.value) inner.span ::
          (inside ++ [.sign (.closing inner.value) span]) <+:
            .sign (.opening inner.value) inner.span ::
              inside ++ .sign (.closing inner.value) span :: rest := ⟨rest, by simp⟩
      exact .closed starts nested
    | deeper outside =>
      obtain ⟨_, _, _, _, _, isStack, _⟩ := outside.closeGroups_append
      cases isStack
  | case4 inner token rest next others isClosing ih =>
    obtain ⟨kind, span⟩ := token
    obtain rfl : kind = .punctuation (.closing inner.value) := isClosing
    exact .step (ih (opens.closing span))
  | case5 inner outer token rest delimiter isClosing differs =>
    obtain ⟨kind, span⟩ := token
    obtain rfl : kind = .punctuation (.closing delimiter) := isClosing
    exact .mismatched ⟨rest, by simp⟩ opens differs
  | case6 inner outer token rest noOpening noClosing ih =>
    have isPlain := TokenKind.isDelimiter_eq_false noOpening noClosing
    exact .step (ih (opens.append (.plain isPlain .nil)))

variable {delimiter : Delimiter} {opener : Span} {later : List Token} {reply : Reply Span}

theorem eq_closeGroups (settles : Settles (.sign (.opening delimiter) opener :: later) reply) :
    reply = (closeGroups ⟨delimiter, opener⟩ [] later).after 1 := by
  cases settles with
  | closed starts nested =>
    obtain ⟨rest, split⟩ := starts
    rw [List.cons_append, List.append_assoc, List.singleton_append] at split
    obtain ⟨⟨rfl, rfl⟩, rfl⟩ := opener_cons_inj.mp split
    rw [Parser.closeGroups_group nested, Reply.after, Nat.add_comm 1]
  | mismatched starts opens differs =>
    obtain ⟨rest, split⟩ := starts
    obtain ⟨group, inside, _, _, rfl, isStack, skips⟩ := opens.closeGroups_append
    obtain ⟨rfl, rfl⟩ := List.cons.inj isStack
    rw [List.append_assoc, List.singleton_append, List.cons_append] at split
    obtain ⟨⟨rfl, rfl⟩, rfl⟩ := opener_cons_inj.mp split
    rw [skips]
    simp [closeGroups, differs, Reply.after, Nat.add_comm]
  | unclosed opens =>
    obtain ⟨group, inside, _, _, isFront, isStack, skips⟩ := opens.closeGroups_append
    obtain ⟨rfl, rfl⟩ := List.cons.inj isStack
    obtain ⟨⟨rfl, rfl⟩, rfl⟩ := opener_cons_inj.mp isFront
    have whole := skips []
    rw [List.append_nil] at whole
    rw [whole]
    simp [closeGroups, Reply.after, Nat.add_comm]

theorem iff_closeGroups : Settles (.sign (.opening delimiter) opener :: later) reply ↔
    reply = (closeGroups ⟨delimiter, opener⟩ [] later).after 1 := by
  refine ⟨eq_closeGroups, ?_⟩
  rintro rfl
  have opens : Opens [.sign (.opening delimiter) opener] [⟨delimiter, opener⟩] :=
    .outermost ⟨delimiter, opener⟩ (by simpa using Nested.nil)
  exact .of_opens opens later

end Settles

/-! ### Groups in a token list -/

/-- A front without an end of the file, and the token behind it, stand before the first end, but
that token may be the end itself. -/
theorem cut_first_end {body more front : List Token} {finish : Span} {stop : Token}
    (starts : front ++ [stop] <+: body ++ ⟨.eof, finish⟩ :: more)
    (noEnd : ∀ token ∈ front, token.kind ≠ .eof) :
    (body = front ∧ stop.kind = .eof) ∨ front ++ [stop] <+: body := by
  obtain ⟨rest, same⟩ := starts
  rw [List.append_assoc, List.singleton_append] at same
  obtain ⟨between, isBody, isStop⟩ | ⟨between, isFront, isEnd⟩ := List.append_eq_append_iff.mp same
  · cases between with
    | nil =>
      obtain ⟨rfl, -⟩ := List.cons.inj isStop
      exact .inl ⟨by simpa using isBody, rfl⟩
    | cons token later =>
      obtain ⟨rfl, -⟩ := List.cons.inj isStop
      exact .inr ⟨later, by simp [isBody]⟩
  · cases between with
    | nil =>
      obtain ⟨rfl, -⟩ := List.cons.inj isEnd
      exact .inl ⟨by simpa using isFront.symm, rfl⟩
    | cons token later =>
      obtain ⟨rfl, -⟩ := List.cons.inj isEnd
      exact absurd rfl (noEnd ⟨.eof, finish⟩ (by simp [isFront]))

/-- A list that ends, cut at the first end of the file from a place on. -/
theorem exists_tape {before : List Token} {finish : Span} {place : Nat} {token : Token}
    (here : (before ++ [⟨.eof, finish⟩])[place]? = some token) (notEnd : token.kind ≠ .eof) :
    ∃ tape : Tape, tape.start = place ∧ tape.tokens = before ++ [⟨.eof, finish⟩] ∧
      ∃ later, tape.body.drop place = token :: later := by
  have inside : place < before.length := by
    by_contra outside
    rw [List.getElem?_append_right (by omega), List.getElem?_singleton] at here
    split at here
    · obtain rfl := Option.some.inj here
      exact notEnd rfl
    · cases here
  -- There may be ends in front of the place, so only what stands behind it is cut.
  obtain ⟨body, stop, more, split, noEnd⟩ := exists_first_end (before.drop place) finish
  have dropped : (before.take place ++ body).drop place = body :=
    List.drop_left' (by simp; omega)
  refine ⟨⟨before.take place ++ body, place, stop, more, by rwa [dropped]⟩, rfl, ?_, ?_⟩
  · rw [Tape.tokens, List.append_assoc, ← split, ← List.append_assoc, List.take_append_drop]
  · have isHead : (body ++ ⟨.eof, stop⟩ :: more).head? = some token := by
      rw [← split, ← here, ← List.head?_drop, List.drop_append_of_le_length inside.le]
    dsimp only
    rw [dropped]
    cases body with
    | nil => exact absurd (Option.some.inj isHead ▸ rfl) notEnd
    | cons first later => exact ⟨later, by rw [← Option.some.inj isHead]⟩

/-- The tokens start with a group whose delimiters are nested, before the end of the file. -/
structure StartsWithGroup (tokens : List Token) (delimiter : Delimiter) (opener : Span)
    (inside : List Token) (closer : Span) : Prop where
  starts : .sign (.opening delimiter) opener ::
    (inside ++ [.sign (.closing delimiter) closer]) <+: tokens
  nested : Nested (inside.map (·.kind))
  noEnd : ∀ token ∈ inside, token.kind ≠ .eof

/-- The tokens start with a front that leaves groups open, the nearest of them `inner`, up to a
token that stands before the end of the file or is the end. -/
structure StartsOpen (tokens front : List Token) (inner : Spanned Delimiter) (stop : Token) :
    Prop where
  starts : front ++ [stop] <+: tokens
  opens : ∃ outer, Opens front (inner :: outer)
  noEnd : ∀ token ∈ front, token.kind ≠ .eof

/-- The token where the group breaks off, and what is reported then. -/
inductive BreaksOff (inner : Spanned Delimiter) : Token → Finding → Prop where
  | mismatched {found : Delimiter} (differs : found ≠ inner.value) (span : Span) :
      BreaksOff inner (.sign (.closing found) span)
        ⟨.mismatched inner.value.closer found.closer, span⟩
  | unclosed (finish : Span) :
      BreaksOff inner ⟨.eof, finish⟩ ⟨.unclosed inner.value.opener, inner.span⟩

namespace Settles

variable {body more : List Token} {finish : Span}

theorem ok_iff {delimiter : Delimiter} {opener closer : Span} {later : List Token} {used : Nat}
    (start : body = .sign (.opening delimiter) opener :: later)
    (noEnd : ∀ token ∈ body, token.kind ≠ .eof) :
    Settles body (.ok closer used) ↔ ∃ inside,
      StartsWithGroup (body ++ ⟨.eof, finish⟩ :: more) delimiter opener inside closer ∧
        used = inside.length + 2 := by
  constructor
  · intro settles
    cases settles with
    | @closed _ _ _ inside starts nested =>
      have within : ∀ token ∈ inside, token.kind ≠ .eof := fun token mem =>
        noEnd token (starts.subset (by simp [mem]))
      have whole := starts.trans (List.prefix_append body (⟨.eof, finish⟩ :: more))
      obtain ⟨rest, split⟩ := starts
      obtain ⟨⟨rfl, rfl⟩, -⟩ := opener_cons_inj.mp (split.trans start)
      exact ⟨inside, ⟨whole, nested, within⟩, rfl⟩
  · rintro ⟨inside, ⟨starts, nested, within⟩, rfl⟩
    rw [← List.cons_append] at starts
    have before : ∀ token ∈ Token.sign (.opening delimiter) opener :: inside, token.kind ≠ .eof :=
      List.forall_mem_cons.mpr ⟨by simp, within⟩
    obtain ⟨-, isEnd⟩ | starts := cut_first_end starts before
    · cases isEnd
    · exact .closed starts nested

theorem fail_iff {finding : Finding} {used : Nat} (noEnd : ∀ token ∈ body, token.kind ≠ .eof) :
    Settles body (.fail finding used) ↔ ∃ front inner stop,
      StartsOpen (body ++ ⟨.eof, finish⟩ :: more) front inner stop ∧
        BreaksOff inner stop finding ∧ used = front.length := by
  constructor
  · intro settles
    cases settles with
    | @mismatched front inner outer found span starts opens differs =>
      have within : ∀ token ∈ front, token.kind ≠ .eof := fun token mem =>
        noEnd token (starts.subset (List.mem_append_left _ mem))
      exact ⟨front, inner, _, ⟨starts.trans (List.prefix_append ..), ⟨outer, opens⟩, within⟩,
        .mismatched differs span, rfl⟩
    | @unclosed inner outer opens =>
      exact ⟨body, inner, _, ⟨⟨more, by simp⟩, ⟨outer, opens⟩, noEnd⟩, .unclosed finish, rfl⟩
  · rintro ⟨front, inner, stop, ⟨starts, ⟨outer, opens⟩, within⟩, breaks, rfl⟩
    have cut := cut_first_end starts within
    cases breaks with
    | mismatched differs span =>
      obtain ⟨-, isEnd⟩ | starts := cut
      · cases isEnd
      · exact .mismatched starts opens differs
    | unclosed stop =>
      obtain ⟨rfl, -⟩ | starts := cut
      · exact .unclosed opens
      · exact absurd rfl (noEnd ⟨.eof, stop⟩ (starts.subset (by simp)))

end Settles

namespace Walk

/-- Skipping a group from the cursor gives this answer, and goes on or stops at the place `next`. -/
def Skips (tokens : List Token) (cursor : Cursor) (answer : Except Finding Span) (next : Nat) :
    Prop :=
  ∃ reach, group tokens cursor = some (answer, ⟨next, reach⟩)

end Walk

namespace Tape

variable {tape : Tape} {place : Nat} {delimiter : Delimiter} {opener : Span} {later : List Token}

theorem group_stream (start : tape.body.drop place = .sign (.opening delimiter) opener :: later) :
    Parser.group (tape.stream place) =
      ((closeGroups ⟨delimiter, opener⟩ [] later).after 1).map opener.merge := by
  rw [stream_cons start, Reply.map_after]
  rfl

section

variable (covers : tape.Covers place)
  (start : tape.body.drop place = .sign (.opening delimiter) opener :: later) (reach : Nat)

include covers start

theorem skips_iff (answer : Except Finding Span) (next : Nat) :
    Walk.Skips tape.tokens ⟨place, reach⟩ answer next ↔
      answer = (Parser.group (tape.stream place)).answer ∧
        next = place + (Parser.group (tape.stream place)).used := by
  obtain ⟨reach', -, -, walked⟩ := gives_group start covers reach
  rw [← Reply.map_after, ← group_stream start] at walked
  simp only [Walk.Skips, walked, Option.some.injEq, Prod.mk.injEq, Cursor.mk.injEq]
  constructor
  · rintro ⟨_, rfl, rfl, -⟩
    exact ⟨rfl, rfl⟩
  · rintro ⟨rfl, rfl⟩
    exact ⟨reach', rfl, rfl, rfl⟩

theorem skips_ok_iff (span : Span) (next : Nat) :
    Walk.Skips tape.tokens ⟨place, reach⟩ (.ok span) next ↔ ∃ closer used,
      Settles (tape.body.drop place) (.ok closer used) ∧ next = place + used ∧
        span = opener.merge closer := by
  rw [skips_iff covers start, group_stream start, start]
  simp only [Settles.iff_closeGroups]
  cases closeGroups ⟨delimiter, opener⟩ [] later with
  | ok closer used =>
    constructor
    · rintro ⟨isSpan, rfl⟩
      exact ⟨closer, 1 + used, rfl, rfl, Except.ok.inj isSpan⟩
    · rintro ⟨_, _, same, rfl, rfl⟩
      obtain ⟨rfl, rfl⟩ := Reply.ok.inj same
      exact ⟨rfl, rfl⟩
  | fail => simp [Reply.after, Reply.map, Reply.answer]

theorem skips_error_iff (finding : Finding) (next : Nat) :
    Walk.Skips tape.tokens ⟨place, reach⟩ (.error finding) next ↔ ∃ used,
      Settles (tape.body.drop place) (.fail finding used) ∧ next = place + used := by
  rw [skips_iff covers start, group_stream start, start]
  simp only [Settles.iff_closeGroups]
  cases closeGroups ⟨delimiter, opener⟩ [] later with
  | ok => simp [Reply.after, Reply.map, Reply.answer]
  | fail found used =>
    simp [Reply.after, Reply.map, Reply.answer, Reply.used]

end

end Tape

namespace Walk

/-- Skipping a group succeeds just where one stands, and ends behind its closer. Else it fails at
the first closer that is not that of the nearest open group, or at the end of the file. The parser
does the same with the tokens up to there. -/
theorem group_exact {before : List Token} {finish : Span} {place : Nat} {delimiter : Delimiter}
    {opener : Span} (reach : Nat)
    (here : (before ++ [⟨.eof, finish⟩])[place]? = some (.sign (.opening delimiter) opener)) :
    let tokens : List Token := before ++ [⟨.eof, finish⟩]
    let reply := Parser.group (.ofTokens (tokens.drop place))
    (∀ span next, Skips tokens ⟨place, reach⟩ (.ok span) next ↔ ∃ inside closer,
      StartsWithGroup (tokens.drop place) delimiter opener inside closer ∧
        next = place + (inside.length + 2) ∧ span = opener.merge closer ∧
        (opener.start ≤ closer.start → opener.stop ≤ closer.stop →
          span = ⟨opener.start, closer.stop⟩)) ∧
    (∀ finding next, Skips tokens ⟨place, reach⟩ (.error finding) next ↔ ∃ front inner stop,
      StartsOpen (tokens.drop place) front inner stop ∧ BreaksOff inner stop finding ∧
        next = place + front.length) ∧
    Skips tokens ⟨place, reach⟩ reply.answer (place + reply.used) := by
  intro tokens
  obtain ⟨tape, rfl, isTokens, later, start⟩ := exists_tape here (by simp)
  have covers : tape.Covers tape.start := by
    have inside : 0 < (tape.body.drop tape.start).length := by simp [start]
    rw [List.length_drop] at inside
    exact ⟨le_rfl, by omega⟩
  have dropped : tokens.drop tape.start =
      tape.body.drop tape.start ++ ⟨.eof, tape.finish⟩ :: tape.rest := by
    rw [← List.drop_append_of_le_length covers.2, ← Tape.tokens, isTokens]
  have noEnd : ∀ token ∈ tape.body.drop tape.start, token.kind ≠ .eof := tape.noEnd
  have okIff := tape.skips_ok_iff covers start reach
  have errorIff := tape.skips_error_iff covers start reach
  have answers := (tape.skips_iff covers start reach _ _).mpr ⟨rfl, rfl⟩
  rw [isTokens] at okIff errorIff answers
  rw [dropped, Stream.ofTokens_first_end noEnd]
  refine ⟨fun span next => (okIff ..).trans ⟨?_, ?_⟩,
    fun finding next => (errorIff ..).trans ⟨?_, ?_⟩, answers⟩
  · rintro ⟨closer, used, settles, rfl, rfl⟩
    obtain ⟨inside, group, rfl⟩ := (Settles.ok_iff start noEnd).mp settles
    exact ⟨inside, closer, group, rfl, rfl, fun starts stops => by
      rw [Span.merge, min_eq_left starts, max_eq_right stops]⟩
  · rintro ⟨inside, closer, group, rfl, rfl, -⟩
    exact ⟨closer, _, (Settles.ok_iff start noEnd).mpr ⟨inside, group, rfl⟩, rfl, rfl⟩
  · rintro ⟨used, settles, rfl⟩
    obtain ⟨front, inner, stop, isOpen, breaks, rfl⟩ := (Settles.fail_iff noEnd).mp settles
    exact ⟨front, inner, stop, isOpen, breaks, rfl⟩
  · rintro ⟨front, inner, stop, isOpen, breaks, rfl⟩
    exact ⟨_, (Settles.fail_iff noEnd).mpr ⟨front, inner, stop, isOpen, breaks, rfl⟩, rfl⟩

/-- Skipping from the outer opener passes over the inner group and ends behind the outer closer. -/
theorem group_exact_nested :
    let before : List Token := [⟨.ident "f", ⟨0, 1⟩⟩, .sign (.opening .paren) ⟨1, 2⟩,
      .sign (.opening .bracket) ⟨2, 3⟩, .sign (.closing .bracket) ⟨3, 4⟩,
      .sign (.closing .paren) ⟨4, 5⟩]
    let tokens : List Token := before ++ [⟨.eof, ⟨5, 5⟩⟩]
    tokens[1]? = some (.sign (.opening .paren) ⟨1, 2⟩) ∧ Skips tokens ⟨1, 0⟩ (.ok ⟨1, 5⟩) 5 := by
  intro before tokens
  have here : tokens[1]? = some (.sign (.opening .paren) ⟨1, 2⟩) := rfl
  have group : StartsWithGroup (tokens.drop 1) .paren ⟨1, 2⟩
      [.sign (.opening .bracket) ⟨2, 3⟩, .sign (.closing .bracket) ⟨3, 4⟩] ⟨4, 5⟩ :=
    ⟨⟨[⟨.eof, ⟨5, 5⟩⟩], rfl⟩, .group .bracket .nil .nil, by simp⟩
  exact ⟨here, ((group_exact 0 here).1 ⟨1, 5⟩ 5).mpr ⟨_, _, group, rfl, rfl, fun _ _ => rfl⟩⟩

end Walk

end GoFront
