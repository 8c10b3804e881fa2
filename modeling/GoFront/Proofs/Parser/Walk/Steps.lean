import GoFront.Parser.Walk
import GoFront.Proofs.Parser.Tracing

/-!
A walk over all tokens against a parser of the tokens up to the end. `Tape.Gives` says that the walk
answers at a place what the parser replies to the stream from there, moves the cursor by the tokens
the parser takes, and looks at nothing behind the first end of the file. What a bind gives follows
from its parts, so that every rule of the grammar is compared by its own text.
-/
namespace GoFront

namespace Reply

variable {α : Type}

def used : Reply α → Nat
  | ok _ used | fail _ used => used

def answer : Reply α → Except Finding α
  | ok value _ => .ok value
  | fail finding _ => .error finding

@[simp] theorem used_after (reply : Reply α) (n : Nat) : (reply.after n).used = n + reply.used := by
  cases reply <;> rfl

@[simp] theorem answer_after (reply : Reply α) (n : Nat) :
    (reply.after n).answer = reply.answer := by
  cases reply <;> rfl

theorem map_after {β : Type} (f : α → β) (reply : Reply α) (n : Nat) :
    (reply.after n).map f = (reply.map f).after n := by
  cases reply <;> rfl

end Reply

/-- A list of tokens, cut at the first end of the file that stands at `start` or behind it. -/
structure Tape where
  body : List Token
  start : Nat
  finish : Span
  rest : List Token
  noEnd : ∀ token ∈ body.drop start, token.kind ≠ .eof

namespace Tape

variable {α β : Type} {tape : Tape} {place : Nat} {token : Token} {later : List Token}

def tokens (tape : Tape) : List Token := tape.body ++ ⟨.eof, tape.finish⟩ :: tape.rest

/-- The tokens from a place up to the end of the file. -/
def stream (tape : Tape) (place : Nat) : Stream := ⟨tape.body.drop place, tape.finish⟩

/-- The place lies between the start and the end of the file. -/
def Covers (tape : Tape) (place : Nat) : Prop := tape.start ≤ place ∧ place ≤ tape.body.length

/-- The walk gives the reply at the place and looks at nothing behind the end of the file. -/
def Gives (tape : Tape) (walk : Walk α) (place : Nat) (reply : Reply α) : Prop :=
  tape.Covers place → ∀ reach, ∃ reach' ≤ max reach (tape.body.length + 1),
    tape.Covers (place + reply.used) ∧
      walk tape.tokens ⟨place, reach⟩ = some (reply.answer, ⟨place + reply.used, reach'⟩)

/-- The walk does at every place what the parser does to the stream from there. -/
def Follows (tape : Tape) (walk : Walk α) (p : Parser α) : Prop :=
  ∀ place, tape.Gives walk place (p (tape.stream place))

theorem stream_drop (place n : Nat) : (tape.stream place).drop n = tape.stream (place + n) := by
  simp [stream, Stream.drop, List.drop_drop]

theorem drop_succ (here : tape.body.drop place = token :: later) :
    tape.body.drop (place + 1) = later := by
  rw [← List.drop_drop, here, List.drop_succ_cons, List.drop_zero]

theorem notEnd (covers : tape.Covers place) (here : tape.body.drop place = token :: later) :
    token.kind ≠ .eof := by
  refine tape.noEnd token ?_
  have mem : token ∈ tape.body.drop place := here ▸ List.mem_cons_self
  rw [← Nat.add_sub_cancel' covers.1, ← List.drop_drop] at mem
  exact List.mem_of_mem_drop mem

theorem drop_behind (here : tape.body.drop place = token :: later) (n : Nat) :
    tape.body.drop (place + (1 + n)) = later.drop n := by
  rw [← Nat.add_assoc, ← List.drop_drop, drop_succ here]

theorem Covers.next (covers : tape.Covers place) (here : tape.body.drop place = token :: later) :
    tape.Covers (place + 1) := by
  have inside : 0 < (tape.body.drop place).length := by simp [here]
  rw [List.length_drop] at inside
  exact ⟨covers.1.trans (Nat.le_succ _), by omega⟩

/-! ### Walks in sequence -/

theorem bind_apply (walk : Walk α) (next : α → Walk β) (tokens : List Token) (cursor : Cursor) :
    (walk >>= next) tokens cursor =
      match walk tokens cursor with
      | some (.ok value, after) => next value tokens after
      | some (.error finding, after) => some (.error finding, after)
      | none => none := by
  change Option.bind (walk tokens cursor) _ = _
  cases walk tokens cursor with
  | none => rfl
  | some answer =>
    obtain ⟨result, after⟩ := answer
    cases result <;> rfl

namespace Gives

variable {walk : Walk α} {next : α → Walk β} {value : α} {finding : Finding} {n : Nat}

theorem of_covers {reply : Reply α} (gives : tape.Covers place → tape.Gives walk place reply) :
    tape.Gives walk place reply := fun covers => gives covers covers

theorem pure : tape.Gives (pure value) place (.ok value 0) :=
  fun covers reach => ⟨reach, le_max_left .., covers, rfl⟩

theorem failAt {fault : Fault} {span : Span} :
    tape.Gives (Walk.failAt fault span : Walk α) place (.fail ⟨fault, span⟩ 0) :=
  fun covers reach => ⟨reach, le_max_left .., covers, rfl⟩

theorem andThen {reply : Reply β} (first : tape.Gives walk place (.ok value n))
    (second : tape.Gives (next value) (place + n) reply) :
    tape.Gives (walk >>= next) place (reply.after n) := by
  intro covers reach
  obtain ⟨middle, middleWithin, coversMiddle, walked⟩ := first covers reach
  obtain ⟨last, lastWithin, coversLast, walkedLater⟩ := second coversMiddle middle
  refine ⟨last, lastWithin.trans (max_le middleWithin (le_max_right ..)), ?_, ?_⟩
  · rwa [Reply.used_after, ← Nat.add_assoc]
  · rw [bind_apply, walked, Reply.used_after, Reply.answer_after, ← Nat.add_assoc]
    exact walkedLater

theorem stop (first : tape.Gives walk place (.fail finding n)) :
    tape.Gives (walk >>= next) place (.fail finding n) := by
  intro covers reach
  obtain ⟨last, lastWithin, coversLast, walked⟩ := first covers reach
  exact ⟨last, lastWithin, coversLast, by rw [bind_apply, walked]; rfl⟩

/-- A walk that takes nothing leaves the rest to the next one. -/
theorem behind {reply : Reply β} (first : tape.Gives walk place (.ok value 0))
    (second : tape.Gives (next value) place reply) : tape.Gives (walk >>= next) place reply := by
  rw [← Reply.after_zero reply]
  exact first.andThen second

theorem bind_at {p : Parser α} {q : α → Parser β} {s : Stream}
    (first : tape.Gives walk place (p s))
    (second : ∀ value n, p s = .ok value n →
      tape.Gives (next value) (place + n) (q value (s.drop n))) :
    tape.Gives (walk >>= next) place ((p >>= q) s) := by
  cases reply : p s with
  | ok value n =>
    have whole : (p >>= q) s = (q value (s.drop n)).after n := by simp [Bind.bind, reply]
    rw [whole]
    exact (reply ▸ first).andThen (second value n reply)
  | fail finding n =>
    have whole : (p >>= q) s = .fail finding n := by simp [Bind.bind, reply]
    rw [whole]
    exact (reply ▸ first).stop

theorem map {reply : Reply α} {f : α → β} (gives : tape.Gives walk place reply) :
    tape.Gives (f <$> walk) place (reply.map f) := by
  intro covers reach
  obtain ⟨last, lastWithin, coversLast, walked⟩ := gives covers reach
  refine ⟨last, lastWithin, by cases reply <;> exact coversLast, ?_⟩
  have mapped : f <$> walk = walk >>= fun value => Pure.pure (f value) := rfl
  rw [mapped, bind_apply, walked]
  cases reply <;> rfl

end Gives

namespace Follows

variable {walk : Walk α} {next : α → Walk β} {p : Parser α} {q : α → Parser β}

theorem bind (first : tape.Follows walk p) (second : ∀ value, tape.Follows (next value) (q value)) :
    tape.Follows (walk >>= next) (p >>= q) := by
  intro place
  refine (first place).bind_at fun value n _ => ?_
  rw [stream_drop]
  exact second value _

theorem pure (value : α) : tape.Follows (pure value) (pure value) := fun _ => Gives.pure

theorem map (follows : tape.Follows walk p) (f : α → β) : tape.Follows (f <$> walk) (f <$> p) := by
  intro place
  have gives := (follows place).map (f := f)
  have same : (p (tape.stream place)).map f = (f <$> p) (tape.stream place) := by
    change _ = (p >>= fun value => Pure.pure (f value)) (tape.stream place)
    cases reply : p (tape.stream place) <;> simp [Bind.bind, reply] <;> rfl
  exact same ▸ gives

theorem failAt (fault : Fault) (span : Span) :
    tape.Follows (Walk.failAt fault span : Walk α) (Parser.failAt fault span) :=
  fun _ => Gives.failAt

theorem ite {c : Prop} [Decidable c] {other : Walk α} {otherParser : Parser α}
    (first : tape.Follows walk p) (second : tape.Follows other otherParser) :
    tape.Follows (if c then walk else other) (if c then p else otherParser) := by
  split
  · exact first
  · exact second

end Follows

/-! ### Loops -/

theorem nearer {behind : Nat} (covers : tape.Covers behind) (isBehind : place < behind) :
    tape.tokens.length - behind < tape.tokens.length - place := by
  have := covers.2
  simp only [tokens, List.length_append, List.length_cons]
  omega

/-- A turn that goes on behind the place where it started does what the loop does from there. -/
theorem Gives.loop {σ : Type} {turn : (σ → Walk α) → σ → Walk α} {state : σ} {reply : Reply α}
    (step : ∀ again : σ → Walk α,
      (∀ next {behind : Nat} {later : Reply α}, place < behind →
        tape.Gives (Walk.loop turn next) behind later → tape.Gives (again next) behind later) →
      tape.Gives (turn again state) place reply) :
    tape.Gives (Walk.loop turn state) place reply := by
  intro covers reach
  rw [Walk.loop]
  refine step _ (fun next behind later isBehind gives coversLater reachLater => ?_) covers reach
  -- The loop does not give up, since the place behind is nearer to the end.
  rw [dif_pos (nearer coversLater isBehind)]
  exact gives coversLater reachLater

/-- Loops go by induction on the place: what holds behind the current token holds at it. -/
theorem place_induction (tape : Tape) {motive : Nat → Prop}
    (nil : ∀ {place}, tape.body.drop place = [] → motive place)
    (cons : ∀ {place token later}, tape.body.drop place = token :: later →
      (∀ n, motive (place + (1 + n))) → motive place) (place : Nat) : motive place := by
  induction left : tape.body.length - place using Nat.strong_induction_on generalizing place with
  | h size ih =>
    cases here : tape.body.drop place with
    | nil => exact nil here
    | cons token later =>
      have inside : 0 < (tape.body.drop place).length := by simp [here]
      rw [List.length_drop] at inside
      exact cons here fun n => ih _ (by omega) _ rfl

/-! ### Single tokens -/

theorem getElem?_tokens (here : tape.body.drop place = token :: later) :
    tape.tokens[place]? = some token := by
  have inside : tape.body[place]? = some token := by
    rw [← List.head?_drop, here, List.head?_cons]
  rw [tokens, List.getElem?_append_left (List.getElem?_eq_some_iff.mp inside).1, inside]

theorem current_stream (covers : tape.Covers place) :
    tape.tokens[place]? = some (tape.stream place).current := by
  cases here : tape.body.drop place with
  | nil =>
    have atEnd : place = tape.body.length :=
      Nat.le_antisymm covers.2 (List.drop_eq_nil_iff.mp here)
    simp [tokens, stream, Stream.current, atEnd]
  | cons token later => simp [getElem?_tokens here, stream, Stream.current, here]

theorem looks (covers : tape.Covers place) (other : Nat) :
    ∀ reach, ∃ reach' ≤ max reach (tape.body.length + 1),
      Walk.look place tape.tokens ⟨other, reach⟩ =
        some (.ok (tape.stream place).current, ⟨other, reach'⟩) := by
  intro reach
  have := covers.2
  exact ⟨max reach (place + 1), by omega, by simp [Walk.look, current_stream covers]⟩

theorem gives_peek : tape.Gives Walk.peek place (.ok (tape.stream place).current 0) := by
  intro covers reach
  have inside : min place (tape.tokens.length - 1) = place := by
    have := covers.2
    simp [tokens]
    omega
  obtain ⟨last, lastWithin, looked⟩ := looks covers place reach
  refine ⟨last, lastWithin, covers, ?_⟩
  change Walk.look (min place (tape.tokens.length - 1)) tape.tokens ⟨place, reach⟩ = _
  rw [inside, looked]
  rfl

/-- The token in front of the current one is the last of those taken. -/
theorem gives_previousSpan {n : Nat} (covers : tape.Covers place) (positive : 0 < n) :
    tape.Gives Walk.previousSpan (place + n)
      (.ok (tape.stream (place + (n - 1))).current.span 0) := by
  intro behind reach
  obtain ⟨k, rfl⟩ := Nat.exists_eq_succ_of_ne_zero positive.ne'
  have before : tape.Covers (place + k) :=
    ⟨covers.1.trans (Nat.le_add_right ..), (Nat.le_succ _).trans behind.2⟩
  obtain ⟨last, lastWithin, looked⟩ := looks before (place + k + 1) reach
  refine ⟨last, lastWithin, behind, ?_⟩
  change (Walk.look (place + k) >>= fun token => Pure.pure token.span) tape.tokens
    ⟨place + k + 1, reach⟩ = _
  rw [bind_apply, looked]
  rfl

theorem follows_peek : tape.Follows Walk.peek Parser.peek := fun _ => gives_peek

theorem stream_nil (here : tape.body.drop place = []) :
    tape.stream place = ⟨[], tape.finish⟩ := by
  rw [stream, here]

theorem stream_cons (here : tape.body.drop place = token :: later) :
    tape.stream place = ⟨token :: later, tape.finish⟩ := by
  rw [stream, here]

theorem advance_cons (here : tape.body.drop place = token :: later) :
    tape.Gives Walk.advance place (.ok token 1) := by
  intro covers reach
  obtain ⟨last, lastWithin, -, looked⟩ := gives_peek covers reach
  rw [stream_cons here] at looked
  refine ⟨last, lastWithin, covers.next here, ?_⟩
  rw [Walk.advance, bind_apply, looked]
  simp only [Reply.answer, Reply.used, Nat.add_zero, Stream.current, List.head?_cons,
    Option.getD_some]
  rw [if_pos (notEnd covers here)]
  rfl

theorem advance_nil (here : tape.body.drop place = []) :
    tape.Gives Walk.advance place (.ok ⟨.eof, tape.finish⟩ 0) := by
  intro covers reach
  obtain ⟨last, lastWithin, -, looked⟩ := gives_peek covers reach
  rw [stream_nil here] at looked
  refine ⟨last, lastWithin, covers, ?_⟩
  rw [Walk.advance, bind_apply, looked]
  rfl

theorem follows_advance : tape.Follows Walk.advance Parser.advance := by
  intro place
  cases here : tape.body.drop place with
  | nil =>
    rw [stream_nil here]
    exact advance_nil here
  | cons token later =>
    rw [stream_cons here]
    exact advance_cons here

namespace Gives

variable {walk : Walk α} {next : Token → Walk α} {reply : Reply α}

theorem peek_cons (here : tape.body.drop place = token :: later)
    (gives : tape.Gives (next token) place reply) :
    tape.Gives (Walk.peek >>= next) place reply := by
  have first : tape.Gives Walk.peek place _ := gives_peek
  rw [stream_cons here] at first
  exact first.behind gives

theorem peek_nil (here : tape.body.drop place = [])
    (gives : tape.Gives (next ⟨.eof, tape.finish⟩) place reply) :
    tape.Gives (Walk.peek >>= next) place reply := by
  have first : tape.Gives Walk.peek place _ := gives_peek
  rw [stream_nil here] at first
  exact first.behind gives

theorem take (here : tape.body.drop place = token :: later)
    (gives : tape.Gives (next token) (place + 1) reply) :
    tape.Gives (Walk.advance >>= next) place (reply.after 1) :=
  (advance_cons here).andThen gives

theorem take_ok {value : α} {n : Nat} (here : tape.body.drop place = token :: later)
    (gives : tape.Gives (next token) (place + 1) (.ok value n)) :
    tape.Gives (Walk.advance >>= next) place (.ok value (1 + n)) := by
  change tape.Gives _ place ((Reply.ok value n).after 1)
  exact .take here gives

theorem taken (here : tape.body.drop place = token :: later) (value : α) :
    tape.Gives (do let _ ← Walk.advance; return value) place (.ok value 1) := by
  change tape.Gives (Walk.advance >>= fun _ => Pure.pure value) place (.ok value (1 + 0))
  exact .take_ok here .pure

end Gives

theorem follows_unexpected (expected : String) :
    tape.Follows (Walk.unexpected expected : Walk α) (Parser.unexpected expected) :=
  fun _ => gives_peek.behind .failAt

theorem follows_atSign (sign : Punctuation) :
    tape.Follows (Walk.atSign sign) (Parser.atSign sign) :=
  fun _ => gives_peek.behind .pure

theorem startsWith_cons {sign : Punctuation} (starts : (tape.stream place).startsWith sign = true) :
    ∃ token later, tape.body.drop place = token :: later ∧ token.kind = .punctuation sign := by
  cases here : tape.body.drop place with
  | nil => simp [stream_nil here, Stream.startsWith, Stream.current] at starts
  | cons token later =>
    rw [stream_cons here] at starts
    exact ⟨token, later, rfl, of_decide_eq_true starts⟩

theorem gives_takeSign {sign : Punctuation} (starts : (tape.stream place).startsWith sign = true) :
    tape.Gives (Walk.takeSign sign) place (.ok true 1) := by
  obtain ⟨token, later, here, -⟩ := startsWith_cons starts
  refine (follows_atSign sign place).behind ?_
  rw [if_pos starts]
  exact .taken here true

namespace Gives

variable {sign : Punctuation} {next : Bool → Walk α} {reply : Reply α}

theorem sign_taken (starts : (tape.stream place).startsWith sign = true)
    (gives : tape.Gives (next true) (place + 1) reply) :
    tape.Gives (Walk.takeSign sign >>= next) place (reply.after 1) :=
  (gives_takeSign starts).andThen gives

theorem sign_missing (starts : (tape.stream place).startsWith sign = false)
    (gives : tape.Gives (next false) place reply) :
    tape.Gives (Walk.takeSign sign >>= next) place reply := by
  have missing : tape.Gives (Walk.takeSign sign) place (.ok false 0) := by
    refine (follows_atSign sign place).behind ?_
    rw [if_neg (Bool.eq_false_iff.mp starts)]
    exact .pure
  exact missing.behind gives

end Gives

theorem follows_identifier (what : String) :
    tape.Follows (Walk.identifier what) (Parser.identifier what) := by
  intro place
  have refused : tape.Gives (Walk.unexpected what : Walk (Spanned String)) place _ :=
    follows_unexpected what place
  refine gives_peek.behind ?_
  unfold Parser.identifier
  cases here : tape.body.drop place with
  | nil =>
    rw [stream_nil here] at refused ⊢
    exact refused
  | cons token later =>
    rw [stream_cons here] at refused ⊢
    dsimp only [Stream.current, List.head?_cons, Option.getD_some]
    cases token.kind with
    | ident name => exact .taken here _
    | _ => exact refused

theorem follows_lineEnd : tape.Follows Walk.lineEnd Parser.lineEnd := by
  intro place
  unfold Walk.lineEnd Parser.lineEnd
  cases semicolon : (tape.stream place).startsWith .semicolon with
  | true =>
    change tape.Gives _ place ((Reply.ok () 0).after 1)
    exact .sign_taken semicolon .pure
  | false =>
    refine .sign_missing semicolon ((follows_atSign (.closing .paren) place).behind ?_)
    cases closes : (tape.stream place).startsWith (.closing .paren) with
    | true => exact .pure
    | false =>
      cases here : tape.body.drop place with
      | nil =>
        refine .peek_nil here ?_
        rw [stream_nil here]
        exact .pure
      | cons token later =>
        refine .of_covers fun covers => .peek_cons here ?_
        have refused : tape.Gives (Walk.unexpected "';' or newline" : Walk Unit) place _ :=
          follows_unexpected _ place
        rw [if_neg (notEnd covers here)]
        simpa [stream_cons here] using refused

theorem startsWith_nil (here : tape.body.drop place = []) (sign : Punctuation) :
    (tape.stream place).startsWith sign = false := by
  rw [stream_nil here]
  rfl

theorem startsWith_eq (here : tape.body.drop place = token :: later) (sign : Punctuation) :
    (tape.stream place).startsWith sign = decide (token.kind = .punctuation sign) := by
  rw [stream_cons here]
  rfl

/-- The number of semicolons at a place. -/
def semicolons (tape : Tape) (place : Nat) : Nat := Parser.semicolons (tape.body.drop place)

theorem semicolons_nil (here : tape.body.drop place = []) : tape.semicolons place = 0 := by
  rw [semicolons, here]
  rfl

theorem semicolons_cons (here : tape.body.drop place = token :: later)
    (semicolon : token.kind = .punctuation .semicolon) :
    tape.semicolons place = 1 + tape.semicolons (place + 1) := by
  rw [semicolons, semicolons, drop_succ here, here, Parser.semicolons, List.takeWhile_cons,
    if_pos (by simp [semicolon]), List.length_cons, Nat.add_comm]
  rfl

theorem semicolons_other (noSemicolon : (tape.stream place).startsWith .semicolon = false) :
    tape.semicolons place = 0 := by
  cases here : tape.body.drop place with
  | nil => exact semicolons_nil here
  | cons token later =>
    rw [startsWith_eq here] at noSemicolon
    rw [semicolons, here, Parser.semicolons, List.takeWhile_cons,
      if_neg (by simpa using noSemicolon)]
    rfl

theorem behind_semicolons (place : Nat) :
    (tape.stream (place + tape.semicolons place)).startsWith .semicolon = false := by
  induction place using tape.place_induction with
  | nil here => rw [semicolons_nil here, Nat.add_zero, startsWith_nil here]
  | @cons place token later here ih =>
    by_cases semicolon : token.kind = .punctuation .semicolon
    · rw [semicolons_cons here semicolon, ← Nat.add_assoc]
      exact ih 0
    · have starts : (tape.stream place).startsWith .semicolon = false := by
        simp [startsWith_eq here, semicolon]
      rwa [semicolons_other starts]

theorem follows_skipSemicolons : tape.Follows Walk.skipSemicolons Parser.skipSemicolons := by
  intro place
  change tape.Gives _ place (.ok () (tape.semicolons place))
  induction place using tape.place_induction with
  | nil here =>
    rw [semicolons_nil here]
    exact .loop fun _ _ => .sign_missing (startsWith_nil here _) .pure
  | @cons place token later here ih =>
    by_cases semicolon : token.kind = .punctuation .semicolon
    · rw [semicolons_cons here semicolon]
      change tape.Gives _ place ((Reply.ok () _).after 1)
      exact .loop fun again goes => .sign_taken (by simp [startsWith_eq here, semicolon])
        (goes () (Nat.lt_succ_self place) (ih 0))
    · have starts : (tape.stream place).startsWith .semicolon = false := by
        simp [startsWith_eq here, semicolon]
      rw [semicolons_other starts]
      exact .loop fun _ _ => .sign_missing starts .pure

/-- A walk over separators goes on behind them. -/
theorem Gives.skip {next : Unit → Walk α} {reply : Reply α}
    (gives : tape.Gives (next ()) (place + tape.semicolons place) reply) :
    tape.Gives (Walk.skipSemicolons >>= next) place (reply.after (tape.semicolons place)) :=
  Gives.andThen (follows_skipSemicolons place) gives

/-! ### Skipping -/

theorem gives_closeGroups (start : Span) (inner : Spanned Delimiter)
    (outer : List (Spanned Delimiter)) :
    tape.Gives (Walk.closeGroups start (inner :: outer)) place
      ((Parser.closeGroups inner outer (tape.body.drop place)).map start.merge) := by
  generalize here : tape.body.drop place = tokens
  induction tokens generalizing place inner outer with
  | nil => exact .loop fun _ _ => .peek_nil here .failAt
  | cons token later ih =>
    refine .of_covers fun covers => .loop fun again goes => ?_
    have further (inner : Spanned Delimiter) (outer : List (Spanned Delimiter)) :
        tape.Gives (again (inner :: outer)) (place + 1) _ :=
      goes (inner :: outer) (Nat.lt_succ_self place) (ih inner outer (drop_succ here))
    rw [Parser.closeGroups.eq_def]
    dsimp only
    refine .peek_cons here ?_
    have notEnd := notEnd covers here
    -- A token that is no delimiter is taken, and a group is still open behind it.
    have plain : tape.Gives (do
        let _ ← Walk.advance
        if inner :: outer = [] then return start.merge token.span
        else again (inner :: outer)) place
        (((Parser.closeGroups inner outer later).after 1).map start.merge) := by
      rw [Reply.map_after]
      exact .take here (further inner outer)
    cases isKind : token.kind with
    | eof => exact absurd isKind notEnd
    | punctuation sign =>
      cases sign with
      | opening delimiter =>
        dsimp only
        rw [Reply.map_after]
        exact .take here (further ⟨delimiter, token.span⟩ (inner :: outer))
      | closing delimiter =>
        dsimp only
        split
        next =>
          cases outer with
          | nil => exact .taken here _
          | cons next others =>
            rw [Reply.map_after]
            exact .take here (further next others)
        next => exact .failAt
      | _ => exact plain
    | _ => exact plain

theorem gives_group {delimiter : Delimiter} {span : Span}
    (here : tape.body.drop place = ⟨.punctuation (.opening delimiter), span⟩ :: later) :
    tape.Gives Walk.group place
      (((Parser.closeGroups ⟨delimiter, span⟩ [] later).map span.merge).after 1) := by
  have inside : tape.Gives (Walk.closeGroups span [⟨delimiter, span⟩]) (place + 1) _ :=
    gives_closeGroups span ⟨delimiter, span⟩ []
  rw [drop_succ here] at inside
  refine .peek_cons here (.loop fun again goes => .peek_cons here (.take here ?_))
  exact goes [⟨delimiter, span⟩] (Nat.lt_succ_self place) inside

theorem gives_group_ok {delimiter : Delimiter} {span found : Span} {used : Nat}
    (here : tape.body.drop place = ⟨.punctuation (.opening delimiter), span⟩ :: later)
    (closed : Parser.closeGroups ⟨delimiter, span⟩ [] later = .ok found used) :
    tape.Gives Walk.group place (.ok (span.merge found) (1 + used)) := by
  have gives := gives_group here
  rwa [closed] at gives

theorem gives_group_fail {delimiter : Delimiter} {span : Span} {finding : Finding} {used : Nat}
    (here : tape.body.drop place = ⟨.punctuation (.opening delimiter), span⟩ :: later)
    (isOpen : Parser.closeGroups ⟨delimiter, span⟩ [] later = .fail finding used) :
    tape.Gives Walk.group place (.fail finding (1 + used)) := by
  have gives := gives_group here
  rwa [isOpen] at gives

theorem startsWith_brace : (tape.stream place).startsWith (.opening .brace) =
    (Parser.braceAt? (tape.body.drop place)).isSome := by
  rw [stream]
  generalize tape.body.drop place = tokens
  unfold Stream.startsWith Stream.current Parser.braceAt?
  cases tokens with
  | nil => rfl
  | cons token rest =>
    obtain ⟨kind, span⟩ := token
    split <;> simp_all

/-- Skipping behind the keyword of a type, whose braces belong to it. -/
theorem gives_typed {stopAtBrace : Bool} {again : Walk Unit}
    (here : tape.body.drop place = token :: later)
    (further : ∀ n, tape.Gives again (place + (1 + n))
      (Parser.skipTail stopAtBrace (later.drop n))) :
    tape.Gives (do
        let _ ← Walk.advance
        if ← Walk.atSign (.opening .brace) then
          let _ ← Walk.group
          again
        else again) place
      (match Parser.braceAt? later with
      | some span =>
        match Parser.closeGroups ⟨.brace, span⟩ [] (later.drop 1) with
        | .ok _ used => (Parser.skipTail stopAtBrace (later.drop (1 + used))).after (2 + used)
        | .fail finding used => .fail finding (2 + used)
      | none => (Parser.skipTail stopAtBrace later).after 1) := by
  have hereNext := drop_succ here
  have looks : tape.Gives (Walk.atSign (.opening .brace)) (place + 1)
      (.ok ((tape.stream (place + 1)).startsWith (.opening .brace)) 0) := follows_atSign _ _
  rw [startsWith_brace, hereNext] at looks
  cases brace : Parser.braceAt? later with
  | some span =>
    obtain ⟨inside, rfl⟩ := Parser.braceAt?_eq_some brace
    rw [brace] at looks
    dsimp only
    rw [List.drop_one, List.tail_cons]
    cases closed : Parser.closeGroups ⟨.brace, span⟩ [] inside with
    | ok found used =>
      have skips := further (1 + used)
      rw [← Nat.add_assoc] at skips
      dsimp only
      rw [show 2 + used = 1 + (1 + used) by omega, ← Reply.after_after]
      exact .take here (looks.behind ((gives_group_ok hereNext closed).andThen skips))
    | fail finding used =>
      dsimp only
      rw [show 2 + used = 1 + (1 + used) by omega]
      change tape.Gives _ place ((Reply.fail finding (1 + used)).after 1)
      exact .take here (looks.behind (gives_group_fail hereNext closed).stop)
  | none =>
    rw [brace] at looks
    exact .take here (looks.behind (further 0))

theorem gives_tail (stopAtBrace : Bool) (place : Nat) :
    tape.Gives (Walk.tail stopAtBrace) place
      (Parser.skipTail stopAtBrace (tape.body.drop place)) := by
  induction place using tape.place_induction with
  | nil here =>
    rw [here, Parser.skipTail]
    exact .loop fun _ _ => .peek_nil here .pure
  | @cons place token later here ih =>
    refine .of_covers fun covers => .loop fun again goes => ?_
    have further (n : Nat) : tape.Gives (again ()) (place + (1 + n))
        (Parser.skipTail stopAtBrace (later.drop n)) :=
      goes () (by omega) (drop_behind here n ▸ ih n)
    rw [here, Parser.skipTail.eq_def]
    refine .peek_cons here ?_
    have plain : tape.Gives (do let _ ← Walk.advance; again ()) place
        ((Parser.skipTail stopAtBrace later).after 1) := .take here (further 0)
    have notEnd := notEnd covers here
    obtain ⟨kind, span⟩ := token
    cases kind with
    | eof => exact absurd rfl notEnd
    | keyword word =>
      cases word with
      | structKw => exact gives_typed here further
      | interfaceKw => exact gives_typed here further
      | _ => exact plain
    | punctuation sign =>
      cases sign with
      | semicolon => exact .pure
      | closing => exact .pure
      | opening delimiter =>
        dsimp only
        split
        · exact .pure
        · cases closed : Parser.closeGroups ⟨delimiter, span⟩ [] later with
          | ok found used => exact (gives_group_ok here closed).andThen (further used)
          | fail finding used => exact (gives_group_fail here closed).stop
      | _ => exact plain
    | _ => exact plain

theorem follows_tail (stopAtBrace : Bool) :
    tape.Follows (Walk.tail stopAtBrace) (Parser.tail stopAtBrace) := gives_tail stopAtBrace

end Tape

end GoFront
