import GoFront.Proofs.Parser.Balance
import GoFront.Proofs.Parser.Print

/-!
Everything that the parser answers goes back to tokens: its values are read from the tokens it
takes, and its findings stand at one of them or at the next one. `Parser.Traced` says so of a
parser; there is one lemma for each rule of the grammar.
-/
namespace GoFront

/-! ### Places in a stream -/

namespace Stream

/-- The span runs from the start of one of the first `n + 1` tokens to the end of another one.
Behind the last token of the stream stands the end of the file. -/
def Covers (s : Stream) (n : Nat) (span : Span) : Prop :=
  ∃ i j, i ≤ j ∧ j ≤ n ∧ span = (s.drop i).current.span.merge (s.drop j).current.span

theorem drop_drop (s : Stream) (m n : Nat) : (s.drop m).drop n = s.drop (m + n) := by
  simp [drop]

theorem covers_at (s : Stream) {i n : Nat} (within : i ≤ n) : s.Covers n (s.drop i).current.span :=
  ⟨i, i, le_rfl, within, by simp [Span.merge]⟩

theorem covers_current (s : Stream) (n : Nat) : s.Covers n s.current.span :=
  s.covers_at (Nat.zero_le n)

theorem Covers.behind {s : Stream} {m n : Nat} {span : Span} (covers : (s.drop m).Covers n span) :
    s.Covers (m + n) span := by
  obtain ⟨i, j, order, within, isSpan⟩ := covers
  rw [drop_drop, drop_drop] at isSpan
  exact ⟨m + i, m + j, by omega, by omega, isSpan⟩

theorem covers_covered (s : Stream) (n : Nat) : s.Covers n (s.covered n) :=
  ⟨0, n - 1, Nat.zero_le _, Nat.sub_le n 1, rfl⟩

end Stream

/-! ### Parts of a list -/

/-- The values are read, in their order, from parts of the list that stand one behind the other. -/
inductive Gathered {α β : Type} (reads : List β → α → Prop) : List β → List α → Prop where
  | nil (rest : List β) : Gathered reads rest []
  | cons (gap : List β) {part rest : List β} {value : α} {values : List α}
      (first : reads part value) (later : Gathered reads rest values) :
      Gathered reads (gap ++ (part ++ rest)) (value :: values)

/-- What is read from a part is also read from the whole. -/
def Grows {α β : Type} (reads : List β → α → Prop) : Prop :=
  ∀ part whole value, part <:+: whole → reads part value → reads whole value

namespace Gathered

variable {α β : Type} {reads : List β → α → Prop} {list more : List β} {values others : List α}

theorem single {value : α} (first : reads list value) : Gathered reads list [value] := by
  simpa using Gathered.cons [] first (.nil [])

theorem before (front : List β) (gathered : Gathered reads list values) :
    Gathered reads (front ++ list) values := by
  cases gathered with
  | nil => exact .nil _
  | cons gap first later =>
    rw [← List.append_assoc]
    exact .cons (front ++ gap) first later

theorem append (gathered : Gathered reads list values) (later : Gathered reads more others) :
    Gathered reads (list ++ more) (values ++ others) := by
  induction gathered with
  | nil => exact later.before _
  | cons gap first _ ih => simpa using Gathered.cons gap first ih

theorem grows : Grows (Gathered reads) := by
  rintro part whole values ⟨front, back, rfl⟩ gathered
  simpa using (gathered.before front).append (.nil back)

theorem exists_part (gathered : Gathered reads list values) :
    ∀ value ∈ values, ∃ part, part <:+: list ∧ reads part value := by
  induction gathered with
  | nil => simp
  | @cons gap part rest value values first later ih =>
    refine List.forall_mem_cons.mpr ⟨⟨part, ⟨gap, rest, by simp⟩, first⟩, fun other mem => ?_⟩
    obtain ⟨found, inside, isRead⟩ := ih other mem
    have within : rest <:+: gap ++ (part ++ rest) := ⟨gap ++ part, [], by simp⟩
    exact ⟨found, inside.trans within, isRead⟩

theorem flatMap_sublist {f : α → List β}
    (kept : ∀ part value, reads part value → (f value).Sublist part)
    (gathered : Gathered reads list values) : (values.flatMap f).Sublist list := by
  induction gathered with
  | nil => exact List.nil_sublist _
  | cons gap first _ ih =>
    rw [List.flatMap_cons]
    exact ((kept _ _ first).append ih).trans (List.sublist_append_right gap _)

end Gathered

def Spanned.token (name : Spanned String) : Token := ⟨.ident name.value, name.span⟩

/-! ### Replies and parsers -/

/-- The reply goes back to the tokens of the stream. Its value is read from those it takes. Its
finding stands at one of them or at the next one, or at a place that is `held` from before. -/
inductive Reply.Traced {α : Type} (held : List Span) (reads : List Token → α → Prop) (s : Stream) :
    Reply α → Prop where
  | ok {value : α} {used : Nat} (within : used ≤ s.tokens.length)
      (read : reads (s.tokens.take used) value) : Traced held reads s (.ok value used)
  | fail {finding : Finding} {used : Nat} (within : used ≤ s.tokens.length)
      (place : finding.span ∈ held ∨ s.Covers used finding.span) :
      Traced held reads s (.fail finding used)

def Parser.Traced {α : Type} (p : Parser α) (reads : List Token → α → Prop) : Prop :=
  ∀ s, (p s).Traced [] reads s

/-- Nothing is kept of the tokens. -/
def Skipped {α : Type} (_ : List Token) (_ : α) : Prop := True

theorem grows_skipped {α : Type} : Grows (Skipped : List Token → α → Prop) :=
  fun _ _ _ _ _ => trivial

/-- The value is read from a front of the tokens. -/
def Leading {α : Type} (reads : List Token → α → Prop) (tokens : List Token) (value : α) : Prop :=
  ∃ own back, tokens = own ++ back ∧ reads own value

theorem Reply.after_after {α : Type} (reply : Reply α) (m n : Nat) :
    (reply.after n).after m = reply.after (m + n) := by
  cases reply <;> simp [after, Nat.add_assoc]

namespace Reply.Traced

variable {α β : Type} {held : List Span} {reads : List Token → α → Prop} {s : Stream}
  {reply : Reply α}

theorem mono {reads' : List Token → α → Prop} (traced : reply.Traced held reads s)
    (weaker : ∀ part value, reads part value → reads' part value) :
    reply.Traced held reads' s := by
  cases traced with
  | ok within read => exact .ok within (weaker _ _ read)
  | fail within place => exact .fail within place

theorem map {reads' : List Token → β → Prop} {f : α → β} (traced : reply.Traced held reads s)
    (maps : ∀ part value, reads part value → reads' part (f value)) :
    (reply.map f).Traced held reads' s := by
  cases traced with
  | ok within read => exact .ok within (maps _ _ read)
  | fail within place => exact .fail within place

theorem after {reads' : List Token → α → Prop} {n : Nat} (within : n ≤ s.tokens.length)
    (traced : reply.Traced held reads (s.drop n))
    (joins : ∀ part value, reads part value → reads' (s.tokens.take n ++ part) value) :
    (reply.after n).Traced held reads' s := by
  have length : (s.drop n).tokens.length = s.tokens.length - n := List.length_drop
  cases traced with
  | @ok value used withinLater read =>
    refine .ok (by omega) ?_
    rw [List.take_add]
    exact joins _ _ read
  | fail withinLater place => exact .fail (by omega) (place.imp_right fun covers => covers.behind)

/-- The first token of the stream, whose place was held for what follows. -/
theorem release {reads' : List Token → α → Prop} {token : Token} {rest : List Token} {finish : Span}
    (joins : ∀ part value, reads part value → reads' (token :: part) value)
    (traced : reply.Traced (token.span :: held) reads ⟨rest, finish⟩) :
    (reply.after 1).Traced held reads' ⟨token :: rest, finish⟩ := by
  cases traced with
  | ok within read =>
    refine .ok (by simpa [Nat.add_comm] using within) ?_
    rw [Nat.add_comm, List.take_succ_cons]
    exact joins _ _ read
  | fail within place =>
    refine .fail (by simpa [Nat.add_comm] using within) ?_
    rcases place with isHeld | covers
    · rcases List.mem_cons.mp isHeld with isToken | isHeld
      · exact .inr (isToken ▸ Stream.covers_current _ _)
      · exact .inl isHeld
    · exact .inr (Stream.Covers.behind covers)

theorem hold (traced : reply.Traced held reads s) (span : Span) :
    reply.Traced (span :: held) reads s := by
  cases traced with
  | ok within read => exact .ok within read
  | fail within place => exact .fail within (place.imp_left (List.mem_cons_of_mem _))

theorem of_fail {reads' : List Token → β → Prop} {finding : Finding} {used : Nat}
    (traced : (Reply.fail finding used : Reply α).Traced held reads s) :
    (Reply.fail finding used : Reply β).Traced held reads' s := by
  cases traced with
  | fail within place => exact .fail within place

theorem fail_behind {reads' : List Token → β → Prop} {finding : Finding} {used : Nat}
    {token : Token} {rest : List Token} {finish : Span}
    (traced : (Reply.fail finding used : Reply α).Traced (token.span :: held) reads
      ⟨rest, finish⟩) :
    (Reply.fail finding (1 + used) : Reply β).Traced held reads' ⟨token :: rest, finish⟩ := by
  have skipped : (Reply.fail finding used : Reply α).Traced (token.span :: held) Skipped
      ⟨rest, finish⟩ := traced.of_fail
  exact (skipped.release fun _ _ => id : (Reply.after 1 _).Traced held Skipped _).of_fail

end Reply.Traced

namespace Parser

variable {α β : Type} {reads : List Token → α → Prop} {reads' : List Token → β → Prop}

theorem Traced.bind_at {p : Parser α} {next : α → Parser β} {s : Stream} {held : List Span}
    (first : (p s).Traced held reads s)
    (later : ∀ value n, reads (s.tokens.take n) value →
      (next value (s.drop n)).Traced held (fun part => reads' (s.tokens.take n ++ part))
        (s.drop n)) :
    ((p >>= next) s).Traced held reads' s := by
  simp only [Bind.bind]
  generalize p s = reply at first
  cases first with
  | ok within read => exact (later _ _ read).after within fun _ _ => id
  | fail within place => exact .fail within place

theorem Traced.bind {p : Parser α} {next : α → Parser β} (first : p.Traced reads)
    (later : ∀ value front, reads front value →
      (next value).Traced fun part => reads' (front ++ part)) : (p >>= next).Traced reads' :=
  fun s => bind_at (first s) fun value _ read => later value _ read _

theorem Traced.mono {p : Parser α} {weaker : List Token → α → Prop} (traced : p.Traced reads)
    (weakens : ∀ part value, reads part value → weaker part value) : p.Traced weaker :=
  fun s => (traced s).mono weakens

theorem Traced.skip {p : Parser α} {next : α → Parser β} (first : p.Traced Skipped)
    (later : ∀ value, (next value).Traced reads') (grows : Grows reads') :
    (p >>= next).Traced reads' :=
  first.bind fun value front _ =>
    (later value).mono fun _ _ => grows _ _ _ (List.suffix_append front _).isInfix

theorem Traced.pure {value : α} (read : reads [] value) : (pure value : Parser α).Traced reads :=
  fun _ => .ok (Nat.zero_le _) read

theorem Traced.map {p : Parser α} {f : α → β} (traced : p.Traced reads)
    (maps : ∀ part value, reads part value → reads' part (f value)) : (f <$> p).Traced reads' := by
  refine traced.bind fun value front read => .pure ?_
  rw [List.append_nil]
  exact maps front value read

/-! ### Single tokens -/

theorem traced_unexpected (expected : String) : (unexpected expected : Parser α).Traced reads :=
  fun s => .fail (Nat.zero_le _) (.inr (s.covers_current 0))

theorem traced_failAt (fault : Fault) (s : Stream) :
    (failAt fault s.current.span s : Reply α).Traced [] reads s :=
  .fail (Nat.zero_le _) (.inr (s.covers_current 0))

theorem traced_atSign (sign : Punctuation) : (atSign sign).Traced Skipped :=
  fun _ => .ok (Nat.zero_le _) trivial

theorem traced_advance : advance.Traced Skipped :=
  fun s => .ok (Nat.min_le_right 1 s.tokens.length) trivial

theorem Stream.length_pos {s : Stream} (notEnd : s.current.kind ≠ .eof) : 1 ≤ s.tokens.length := by
  rw [s.tokens_eq notEnd]
  simp

theorem Stream.tokens_ne_nil {s : Stream} (notEnd : s.current.kind ≠ .eof) : s.tokens ≠ [] := by
  simp [s.tokens_eq notEnd]

theorem Stream.take_one {s : Stream} (notEnd : s.current.kind ≠ .eof) :
    s.tokens.take 1 = [s.current] := by
  rw [s.tokens_eq notEnd]
  rfl

theorem Stream.current_of_take {s : Stream} {n : Nat} {token : Token} {rest : List Token}
    (isTaken : s.tokens.take n = token :: rest) : s.current = token := by
  obtain ⟨tokens, finish⟩ := s
  cases tokens with
  | nil => simp at isTaken
  | cons first others =>
    cases n with
    | zero => simp at isTaken
    | succ n => exact (List.cons.inj isTaken).1

theorem traced_identifier (what : String) :
    (identifier what).Traced fun part name => part = [name.token] := by
  intro s
  unfold identifier
  split
  next name isName =>
    have notEnd : s.current.kind ≠ .eof := by simp [isName]
    refine .ok (Stream.length_pos notEnd) ?_
    rw [Stream.take_one notEnd, Spanned.token, ← isName]
  next => exact traced_unexpected what s

theorem traced_lineEnd : lineEnd.Traced Skipped := by
  intro s
  unfold lineEnd
  split_ifs with semicolon
  · exact .ok (Stream.length_pos (by simp [kind_of_startsWith semicolon])) trivial
  · exact .ok (Nat.zero_le _) trivial
  · exact traced_unexpected _ s

theorem traced_skipSemicolons : skipSemicolons.Traced Skipped :=
  fun _ => .ok (List.takeWhile_prefix _).length_le trivial

theorem Traced.ended {p : Parser α} (traced : p.Traced reads) :
    (do let value ← p; lineEnd; return value : Parser α).Traced (Leading reads) :=
  traced.bind fun _ front read => traced_lineEnd.bind fun _ back _ =>
    .pure ⟨front, back, by rw [List.append_nil], read⟩

/-! ### Groups -/

theorem traced_closeGroups (inner : Spanned Delimiter) (outer : List (Spanned Delimiter))
    (tokens : List Token) (finish : Span) :
    (closeGroups inner outer tokens).Traced ((inner :: outer).map (·.span)) Skipped
      ⟨tokens, finish⟩ := by
  induction tokens generalizing inner outer with
  | nil => exact .fail (Nat.zero_le _) (.inl List.mem_cons_self)
  | cons token rest ih =>
    unfold closeGroups
    split
    next delimiter _ => exact .release (fun _ _ => id) (ih ⟨delimiter, token.span⟩ (inner :: outer))
    next delimiter _ =>
      split_ifs
      · cases outer with
        | nil => exact .ok (by simp) trivial
        | cons next others =>
          exact .release (fun _ _ => id) (((ih next others).hold _).hold _)
      · exact .fail (Nat.zero_le _) (.inr (Stream.covers_current _ _))
    next => exact .release (fun _ _ => id) ((ih inner outer).hold token.span)

theorem within_of_closeGroups {delimiter : Delimiter} {span found : Span} {rest : List Token}
    {used : Nat} (closed : closeGroups ⟨delimiter, span⟩ [] rest = .ok found used) :
    used ≤ rest.length := by
  have traced := traced_closeGroups ⟨delimiter, span⟩ [] rest span
  rw [closed] at traced
  cases traced with
  | ok within => exact within

/-- A group that is not closed is at fault between its opener and where the search ends. -/
theorem traced_of_closeGroups {delimiter : Delimiter} {kind : TokenKind} {span finish : Span}
    {rest : List Token} {finding : Finding} {used : Nat}
    (isOpen : closeGroups ⟨delimiter, span⟩ [] rest = .fail finding used) :
    (Reply.fail finding (1 + used) : Reply α).Traced [] reads ⟨⟨kind, span⟩ :: rest, finish⟩ := by
  have held : (Reply.fail finding used : Reply Span).Traced [Token.span ⟨kind, span⟩] Skipped
      ⟨rest, finish⟩ := isOpen ▸ traced_closeGroups ⟨delimiter, span⟩ [] rest finish
  exact held.fail_behind

theorem traced_behind_group {reply : Reply α} {held : List Span} {delimiter : Delimiter}
    {kind : TokenKind} {span found finish : Span} {rest : List Token} {used : Nat}
    (closed : closeGroups ⟨delimiter, span⟩ [] rest = .ok found used)
    (traced : reply.Traced held Skipped ⟨rest.drop used, finish⟩) :
    (reply.after (1 + used)).Traced held Skipped ⟨⟨kind, span⟩ :: rest, finish⟩ := by
  have within := within_of_closeGroups closed
  refine .after (by simp; omega) ?_ fun _ _ => id
  rw [Nat.add_comm]
  exact traced

theorem traced_group : group.Traced Skipped := by
  rintro ⟨tokens, finish⟩
  unfold group
  split
  next delimiter span rest isGroup =>
    obtain rfl : tokens = _ := isGroup
    have traced := traced_closeGroups ⟨delimiter, span⟩ [] rest finish
    exact .release (fun _ _ => id) (traced.map fun _ _ => id)
  next => exact traced_unexpected _ _

theorem traced_behind_type {reply : Reply α} {token : Token} {span found finish : Span}
    {rest : List Token} {used : Nat} (brace : braceAt? rest = some span)
    (closed : closeGroups ⟨.brace, span⟩ [] (rest.drop 1) = .ok found used)
    (traced : reply.Traced [] Skipped ⟨rest.drop (1 + used), finish⟩) :
    (reply.after (2 + used)).Traced [] Skipped ⟨token :: rest, finish⟩ := by
  obtain ⟨inside, rfl⟩ := braceAt?_eq_some brace
  rw [Nat.add_comm, List.drop_succ_cons] at traced
  rw [show 2 + used = 1 + (1 + used) by omega, ← Reply.after_after]
  exact .release (fun _ _ => id) (Reply.Traced.hold (traced_behind_group closed traced) token.span)

theorem traced_open_type {token : Token} {span finish : Span} {rest : List Token}
    {finding : Finding} {used : Nat} (brace : braceAt? rest = some span)
    (isOpen : closeGroups ⟨.brace, span⟩ [] (rest.drop 1) = .fail finding used) :
    (Reply.fail finding (2 + used) : Reply α).Traced [] Skipped ⟨token :: rest, finish⟩ := by
  obtain ⟨inside, rfl⟩ := braceAt?_eq_some brace
  rw [show 2 + used = 1 + (1 + used) by omega]
  exact .release (fun _ _ => id) (Reply.Traced.hold (traced_of_closeGroups isOpen) token.span)

theorem traced_skipTail (stopAtBrace : Bool) (tokens : List Token) (finish : Span) :
    (skipTail stopAtBrace tokens).Traced [] Skipped ⟨tokens, finish⟩ := by
  have onePlain : ∀ {token rest}, (skipTail stopAtBrace rest).Traced [] Skipped ⟨rest, finish⟩ →
      ((skipTail stopAtBrace rest).after 1).Traced [] Skipped ⟨token :: rest, finish⟩ :=
    fun traced => .release (fun _ _ => id) (traced.hold _)
  fun_induction skipTail stopAtBrace tokens with
  | case5 token rest delimiter _ _ found used closed ih => exact traced_behind_group closed ih
  | case6 token rest delimiter _ _ finding used isOpen => exact traced_of_closeGroups isOpen
  | case7 token rest _ span brace found used closed ih => exact traced_behind_type brace closed ih
  | case8 token rest _ span brace finding used isOpen => exact traced_open_type brace isOpen
  | case9 token rest _ _ ih => exact onePlain ih
  | case10 token rest _ span brace found used closed ih => exact traced_behind_type brace closed ih
  | case11 token rest _ span brace finding used isOpen => exact traced_open_type brace isOpen
  | case12 token rest _ _ ih => exact onePlain ih
  | case13 token rest _ _ _ _ _ ih => exact onePlain ih
  | _ => exact .ok (Nat.zero_le _) trivial

theorem traced_tail (stopAtBrace : Bool) : (tail stopAtBrace).Traced Skipped :=
  fun s => traced_skipTail stopAtBrace s.tokens s.finish

/-! ### Lists of items -/

theorem traced_items {item : Parser α} (traced : item.Traced reads) (isItem : IsItem item)
    (opener : Span) (s : Stream) :
    (items item opener s).Traced [opener] (Gathered reads) s := by
  have isLine := isItem.bind fun value => lineEnd_neat.bind fun _ => .pure value
  fun_induction items item opener s with
  | case1 => exact .fail (Nat.zero_le _) (.inl List.mem_cons_self)
  | case2 token rest finish _ ih =>
    exact .release (fun _ _ gathered => gathered.before [token]) (ih.hold _)
  | case3 token rest finish _ _ => exact .ok (by simp) (.nil _)
  | case4 token rest finish _ _ value used first ih =>
    have line := traced.ended ⟨token :: rest, finish⟩
    rw [first] at line
    rw [drop_pred (isLine _ _ _ first).2] at ih ⊢
    cases line with
    | ok within read =>
      obtain ⟨own, back, isTaken, read⟩ := read
      have later := ih.map fun part values (gathered : Gathered reads part values) =>
        Gathered.cons [] read (gathered.before back)
      refine later.after within fun part values gathered => ?_
      rw [isTaken, List.append_assoc]
      exact gathered
  | case5 token rest finish _ _ finding used failed =>
    have line := traced.ended ⟨token :: rest, finish⟩
    rw [failed] at line
    exact (line.hold opener).of_fail

/-- What follows a token, whose place it may still blame. -/
theorem Traced.take {next : Token → Parser α} {s : Stream} (notEnd : s.tokens ≠ [])
    (later : (next s.current (s.drop 1)).Traced [s.current.span]
      (fun part => reads (s.current :: part)) (s.drop 1)) :
    ((advance >>= next) s).Traced [] reads s := by
  obtain ⟨tokens, finish⟩ := s
  cases tokens with
  | nil => exact absurd rfl notEnd
  | cons token rest =>
    have one : min 1 (token :: rest).length = 1 := by simp
    change ((next token (Stream.drop (min 1 (token :: rest).length) _)).after _).Traced _ _ _
    rw [one]
    exact .release (fun _ _ => id) later

theorem Traced.behind {next : Token → Parser α} {s : Stream} (grows : Grows reads)
    (later : ∀ s', (next s.current s').Traced [s.current.span] reads s') :
    ((advance >>= next) s).Traced [] reads s := by
  by_cases isEnd : s.tokens = []
  · -- Nothing is taken at the end of the file, so the place is still that of the current token.
    have none : (advance >>= next) s = next s.current s := by
      change (next s.current (s.drop (min 1 s.tokens.length))).after (min 1 s.tokens.length) = _
      rw [isEnd]
      exact Reply.after_zero _
    rw [none]
    cases isReply : next s.current s with
    | ok value used =>
      cases isReply ▸ later s with
      | ok within read => exact .ok within read
    | fail finding used =>
      cases isReply ▸ later s with
      | fail within place =>
        refine .fail within (.inr (place.elim (fun isHeld => ?_) id))
        rw [List.mem_singleton.mp isHeld]
        exact s.covers_current used
  · exact take isEnd ((later _).mono fun _ _ => grows _ _ _ (List.suffix_cons _ _).isInfix)

theorem traced_oneOrMany {item : Parser α} (traced : item.Traced reads) (isItem : IsItem item) :
    (oneOrMany item).Traced (Gathered reads) := by
  have single : ((fun value => [value]) <$> item).Traced (Gathered reads) :=
    traced.map fun _ _ => .single
  intro s
  unfold oneOrMany
  rw [atSign_bind]
  split
  · exact Traced.behind Gathered.grows (traced_items traced isItem s.current.span)
  · exact single s

/-! ### The package clause and the imports -/

/-- The span runs from the first of the tokens to the last. -/
def SpanOf (part : List Token) (span : Span) : Prop :=
  ∃ first last, part.head? = some first ∧ part.getLast? = some last ∧
    span = first.span.merge last.span

/-- The tokens are those of an import and make up its span. -/
structure IsImport (part : List Token) (i : Spanned Import) : Prop where
  kinds : part.map (·.kind) = i.value.kinds
  placed : SpanOf part i.span

theorem traced_packageClause : packageClause.Traced fun part name => name.token ∈ part := by
  refine traced_skipSemicolons.skip (fun _ s => ?_) fun _ _ _ within mem => within.subset mem
  rw [peek_bind]
  split_ifs with isPackage
  · exact traced_failAt _ s
  refine Traced.take (Stream.tokens_ne_nil (by simp [not_not.mp isPackage])) ?_
  rw [peek_bind]
  generalize s.drop 1 = s'
  cases isName : s'.current.kind with
  | ident text =>
    dsimp only
    split_ifs with blank
    · exact (traced_failAt _ s').hold _
    have notEnd := Stream.tokens_ne_nil (by simp [isName] : s'.current.kind ≠ .eof)
    refine Reply.Traced.hold (Traced.take notEnd (Reply.Traced.hold ?_ _)) _
    refine traced_lineEnd.skip (fun _ => .pure ?_) ?_ _
    · simp [Spanned.token, ← isName]
    · exact fun _ _ _ within mem =>
        List.cons_subset_cons _ (List.cons_subset_cons _ within.subset) mem
  | _ => exact (traced_failAt _ s').hold _

theorem traced_importPath :
    importPath.Traced fun part path => part = [⟨.string path.value, path.span⟩] := by
  intro s
  unfold importPath
  rw [peek_bind]
  cases isPath : s.current.kind with
  | string path =>
    refine Traced.take (Stream.tokens_ne_nil (by simp [isPath])) ?_
    split_ifs
    · exact .fail (Nat.zero_le _) (.inl List.mem_cons_self)
    cases path.toList.find? (!isPathChar ·) with
    | some bad => exact .fail (Nat.zero_le _) (.inl List.mem_cons_self)
    | none => exact .ok (Nat.zero_le _) (by simp [← isPath])
  | _ => exact traced_failAt _ s

theorem kinds_bindingOf {kind : TokenKind} (bound : bindingOf kind ≠ .default) (path : String) :
    (⟨path, bindingOf kind⟩ : Import).kinds = [kind, .string path] := by
  unfold bindingOf at bound ⊢
  split
  · rfl
  next name =>
    split_ifs with blank
    · simp [Import.kinds, blank]
    · rfl
  next => simp at bound

theorem traced_importSpec : importSpec.Traced IsImport := by
  intro s
  unfold importSpec
  rw [peek_bind]
  split_ifs with bound
  · have notEnd := Stream.tokens_ne_nil (bindingOf_ne_default bound).2
    refine Traced.take notEnd (Reply.Traced.hold ?_ _)
    refine Traced.bind_at (traced_importPath _) fun path n isTaken => .ok (Nat.zero_le _) ?_
    rw [isTaken]
    exact ⟨(kinds_bindingOf bound path.value).symm, _, _, rfl, rfl, rfl⟩
  · refine Traced.bind_at (traced_importPath s) fun path n isTaken => .ok (Nat.zero_le _) ?_
    rw [isTaken, Stream.current_of_take isTaken]
    exact ⟨rfl, _, _, rfl, rfl, rfl⟩

theorem traced_importDeclaration : importDeclaration.Traced (Gathered IsImport) := by
  have specs := (traced_oneOrMany traced_importSpec importSpec_isItem).ended
  refine traced_advance.skip (fun _ s => (specs s).mono ?_) Gathered.grows
  rintro _ specs ⟨own, back, rfl, gathered⟩
  simpa using gathered.append (.nil back)

/-! ### Declarations -/

theorem traced_receiverBase (opener : Span) (base : Option String) (s : Stream) :
    (receiverBase opener base s).Traced [opener] Skipped s := by
  fun_induction receiverBase opener base s with
  | case1 => exact .fail (Nat.zero_le _) (.inl List.mem_cons_self)
  | case2 base token rest finish _ => exact .ok (by simp) trivial
  | case3 base token rest finish _ found used closed ih => exact traced_behind_group closed ih
  | case4 base token rest finish _ finding used isOpen =>
    exact Reply.Traced.hold (traced_of_closeGroups isOpen) opener
  | case5 base token rest finish name _ ih => exact .release (fun _ _ => id) (ih.hold _)
  | case6 base token rest finish _ => exact Reply.Traced.hold (traced_unexpected _ _) opener
  | case7 base token rest finish _ => exact Reply.Traced.hold (traced_unexpected _ _) opener
  | case8 base token rest finish _ _ _ _ _ ih => exact .release (fun _ _ => id) (ih.hold _)

theorem traced_receiver : receiver.Traced Skipped := by
  intro s
  have inside : ((do let _ ← advance; receiverBase s.current.span none) s).Traced [] Skipped s :=
    Traced.behind grows_skipped (traced_receiverBase s.current.span none)
  unfold receiver
  extract_lets opener
  split
  next base used isBase =>
    rw [isBase] at inside
    cases inside with
    | ok within => exact .ok within trivial
  next used noBase =>
    rw [noBase] at inside
    cases inside with
    | ok within => exact .fail within (.inr (s.covers_covered used))
  next finding used failed => exact (failed ▸ inside).of_fail

/-- The names that the declaration makes known stand in this order among the tokens. -/
def Names (part : List Token) (names : List (Spanned String)) : Prop :=
  (names.map Spanned.token).Sublist part

theorem grows_names : Grows Names := fun _ _ _ within sublist => sublist.trans within.sublist

theorem traced_signature (type : Option String) :
    (signature type).Traced fun part d => Names part d.names := by
  refine (traced_identifier _).bind fun name front isName =>
    Traced.mono ?_ fun part d (named : d.names = [name]) => ?_
  · have grows : Grows fun (_ : List Token) (d : Declaration) => d.names = [name] :=
      fun _ _ _ _ => id
    refine (traced_atSign _).skip (fun paren =>
      (traced_atSign _).skip (fun bracket => ?_) grows) grows
    split
    · exact traced_unexpected _
    refine (traced_tail true).skip (fun _ => (traced_atSign _).skip (fun hasBody => ?_) grows) grows
    dsimp only
    split
    · exact traced_group.skip (fun _ => .pure rfl) grows
    · exact .pure rfl
  · rw [Names, named, isName]
    exact (List.prefix_append _ part).sublist

theorem traced_function : function.Traced fun part d => Names part d.names := by
  have grows : Grows fun part (d : Declaration) => Names part d.names :=
    fun _ _ _ => grows_names _ _ _
  have type : (some <$> receiver : Parser (Option String)).Traced Skipped :=
    traced_receiver.map fun _ _ => id
  rw [function_eq]
  refine traced_advance.skip (fun _ => (traced_atSign _).skip (fun hasReceiver => ?_) grows) grows
  dsimp only
  split
  · exact type.skip traced_signature grows
  · exact (Traced.pure trivial).skip traced_signature grows

theorem traced_moreNames : Traced moreNames Names := by
  intro s
  fun_induction moreNames s with
  | case1 span rest finish name used isName ih =>
    have first := traced_identifier "identifier" ⟨rest, finish⟩
    rw [isName] at first
    cases first with
    | ok within isTaken =>
      have more : (((moreNames ⟨rest.drop used, finish⟩).map (name :: ·)).after used).Traced []
          Names ⟨rest, finish⟩ := by
        refine .after within (ih.map fun part names named => ?_) fun part names => id
        rw [isTaken]
        exact List.Sublist.cons_cons _ named
      rw [← Reply.after_after]
      exact .release (fun _ _ named => named.cons _) (more.hold span)
  | case2 span rest finish finding used failed =>
    have first := traced_identifier "identifier" ⟨rest, finish⟩
    rw [failed] at first
    exact (first.hold _).fail_behind
  | case3 => exact .ok (Nat.zero_le _) (List.nil_sublist _)

theorem traced_nameList : nameList.Traced Names :=
  (traced_identifier _).bind fun name front isName =>
    traced_moreNames.bind fun names back named => .pure <| by
      rw [List.append_nil, isName]
      exact List.Sublist.cons_cons _ named

theorem traced_groupEntry (kind : GroupKind) : (groupEntry kind).Traced Names := by
  have rest : ∀ names : List (Spanned String), (do
      tail false
      if (← atSign (.closing .bracket)) || (← atSign (.closing .brace)) then
        unexpected "';' or newline"
      else
        return names).Traced fun _ found => found = names := by
    intro names
    have grows : Grows fun (_ : List Token) found => found = names := fun _ _ _ _ => id
    refine (traced_tail false).skip (fun _ => (traced_atSign _).skip (fun bracket =>
      (traced_atSign _).skip (fun brace => ?_) grows) grows) grows
    split
    · exact traced_unexpected _
    · exact .pure rfl
  have entry : ∀ {p : Parser (List (Spanned String))}, p.Traced Names → (do
      let names ← p
      tail false
      if (← atSign (.closing .bracket)) || (← atSign (.closing .brace)) then
        unexpected "';' or newline"
      else
        return names).Traced Names := by
    intro p traced
    refine traced.bind fun names front named => (rest names).mono fun part found same => ?_
    rw [same]
    exact grows_names _ _ _ (List.prefix_append front part).isInfix named
  have one : (List.singleton <$> identifier "type name").Traced Names := by
    refine (traced_identifier _).map fun part name isName => ?_
    rw [isName]
    exact List.Sublist.refl _
  unfold groupEntry
  dsimp only
  split
  · exact entry one
  · exact entry traced_nameList

theorem traced_nameGroup (kind : GroupKind) :
    (nameGroup kind).Traced fun part d => Names part d.names := by
  have grows : Grows fun part (d : Declaration) => Names part d.names :=
    fun _ _ _ => grows_names _ _ _
  have entries : ((fun names => .group kind names.flatten) <$> oneOrMany (groupEntry kind)).Traced
      fun part (d : Declaration) => Names part d.names := by
    refine (traced_oneOrMany (traced_groupEntry kind) (groupEntry_isItem kind)).map
      fun part entries gathered => ?_
    have sublist := gathered.flatMap_sublist fun part names (named : Names part names) => named
    rw [List.flatMap_def, ← List.map_flatten] at sublist
    exact sublist
  exact traced_advance.skip (fun _ => entries) grows

theorem traced_declarationOf (word : Keyword) :
    (declarationOf word).Traced fun part d => Names part d.names := by
  unfold declarationOf
  split
  · exact traced_function
  · exact traced_nameGroup .var
  · exact traced_nameGroup .const
  · exact traced_nameGroup .type
  · exact traced_unexpected _

theorem declarationOf_pos {word : Keyword} {s : Stream} {value : Declaration} {used : Nat}
    (parsed : declarationOf word s = .ok value used) (isKeyword : s.current.kind = .keyword word) :
    0 < used := by
  unfold declarationOf at parsed
  split at parsed
  · obtain ⟨-, -, positive⟩ := outlined_function parsed isKeyword
    exact positive
  · exact (nested_nameGroup parsed isKeyword).2
  · exact (nested_nameGroup parsed isKeyword).2
  · exact (nested_nameGroup parsed isKeyword).2
  · exact absurd parsed unexpected_ne_ok

/-- The tokens are those of a declaration: they make up its span, and its keyword and its names
stand among them. -/
structure IsDeclaration (part : List Token) (d : Spanned Declaration) : Prop where
  placed : SpanOf part d.span
  keyword : ∃ token ∈ part, ∃ word, token.kind = .keyword word
  names : Names part d.value.names

theorem Stream.head?_eq_current {s : Stream} (nonempty : 0 < s.tokens.length) :
    s.tokens.head? = some s.current := by
  rw [Stream.current, List.head?_eq_some_head (List.length_pos_iff.mp nonempty)]
  rfl

theorem head?_take_eq_current {s : Stream} {n : Nat} (positive : 0 < n)
    (within : n ≤ s.tokens.length) : (s.tokens.take n).head? = some s.current := by
  rw [List.head?_take, if_neg positive.ne', Stream.head?_eq_current (by omega)]

theorem spanOf_covered {s : Stream} {n : Nat} (positive : 0 < n) (within : n ≤ s.tokens.length) :
    SpanOf (s.tokens.take n) (s.covered n) := by
  have last : s.tokens[n - 1]? = some (s.drop (n - 1)).current := by
    have nonempty : 0 < (s.drop (n - 1)).tokens.length := by
      rw [Stream.drop, List.length_drop]
      omega
    rw [← List.head?_drop]
    exact Stream.head?_eq_current nonempty
  refine ⟨s.current, (s.drop (n - 1)).current, head?_take_eq_current positive within, ?_, rfl⟩
  rw [List.getLast?_take, if_neg positive.ne', last, Option.some_or]

theorem traced_declaration : declaration.Traced (Leading IsDeclaration) := by
  intro s
  unfold declaration
  split
  next word isKeyword =>
    have traced := traced_declarationOf word s
    split
    next value used parsed =>
      rw [parsed] at traced
      cases traced with
      | ok within named =>
        have positive := declarationOf_pos parsed isKeyword
        have isFirst := List.mem_of_head? (head?_take_eq_current positive within)
        have declared : IsDeclaration _ ⟨value, s.covered used⟩ :=
          ⟨spanOf_covered positive within, ⟨_, isFirst, word, isKeyword⟩, named⟩
        let found : Spanned Declaration := ⟨value, s.covered used⟩
        have ended : ((lineEnd (s.drop used)).map fun _ => found).Traced [] (fun _ d => d = found)
            (s.drop used) := (traced_lineEnd _).map fun _ _ _ => rfl
        exact ended.after within fun back d isFound => ⟨_, back, rfl, isFound ▸ declared⟩
    next finding used failed =>
      rw [failed] at traced
      exact traced.of_fail
  next => exact traced_unexpected _ s

/-! ### Files -/

theorem gathered_importSection {finish : Span} {tokens : List Token}
    (clean : (importSection finish tokens).findings = []) :
    ∃ front, tokens = front ++ (importSection finish tokens).rest ∧
      Gathered IsImport front (importSection finish tokens).imports := by
  fun_induction importSection finish tokens with
  | case1 => exact ⟨[], rfl, .nil []⟩
  | case2 token rest isSemicolon ih =>
    obtain ⟨front, split, gathered⟩ := ih clean
    exact ⟨token :: front, congrArg (token :: ·) split, gathered.before [token]⟩
  | case3 token rest _ isImport specs used parsed later ih =>
    obtain ⟨front, split, gathered⟩ := ih clean
    have traced := traced_importDeclaration ⟨token :: rest, finish⟩
    rw [parsed] at traced
    cases traced with
    | ok within read =>
      refine ⟨(token :: rest).take used ++ front, ?_, read.append gathered⟩
      rw [List.append_assoc, ← split, drop_pred (importDeclaration_nested parsed isImport).2,
        List.take_append_drop]
  | case4 => simp at clean
  | case5 => exact ⟨[], rfl, .nil []⟩

theorem gathered_declarationSection {finish : Span} {tokens : List Token}
    (clean : (declarationSection finish tokens).findings = []) :
    Gathered IsDeclaration tokens (declarationSection finish tokens).declarations := by
  fun_induction declarationSection finish tokens with
  | case1 => exact .nil []
  | case2 token rest isSemicolon ih => exact (ih clean).before [token]
  | case3 token rest _ reply value used parsed later ih =>
    have isDeclaration : declaration ⟨token :: rest, finish⟩ = .ok value used := by
      simp only [reply] at parsed
      split_ifs at parsed with isImport
      exact parsed
    obtain ⟨-, -, positive⟩ := outlined_declaration isDeclaration
    have traced := traced_declaration ⟨token :: rest, finish⟩
    rw [isDeclaration] at traced
    cases traced with
    | ok within read =>
      obtain ⟨own, back, isTaken, read⟩ := read
      have split : token :: rest = own ++ (back ++ rest.drop (used - 1)) := by
        rw [drop_pred positive, ← List.append_assoc, ← isTaken]
        exact (List.take_append_drop used (token :: rest)).symm
      rw [split]
      exact .cons [] read ((ih clean).before back)
  | case4 => simp at clean

/-- The tokens of an accepted file: first those of its package clause, then those of its imports,
then those of its declarations. -/
theorem gathered_parseStream {s : Stream} {lines : LineIndex} {file : SourceFile}
    (parsed : parseStream s lines = .ok file) :
    ∃ clause front back, s.tokens = clause ++ (front ++ back) ∧ file.package.token ∈ clause ∧
      Gathered IsImport front file.imports ∧ Gathered IsDeclaration back file.declarations := by
  have traced := traced_packageClause s
  unfold parseStream at parsed
  split at parsed
  next => simp at parsed
  next package used isPackage =>
    rw [isPackage] at traced
    dsimp only at parsed
    split at parsed
    next clean =>
      obtain rfl := Except.ok.inj parsed
      obtain ⟨noImport, noDeclaration⟩ := List.append_eq_nil_iff.mp clean
      obtain ⟨front, split, imports⟩ := gathered_importSection noImport
      cases traced with
      | ok within read =>
        refine ⟨s.tokens.take used, front, _, ?_, read, imports,
          gathered_declarationSection noDeclaration⟩
        rw [← split, List.take_append_drop]
    next => simp at parsed

theorem Stream.ofTokens_append {front : List Token} {finish : Token}
    (noEnd : ∀ token ∈ front, token.kind ≠ .eof) (isEnd : finish.kind = .eof) :
    Stream.ofTokens (front ++ [finish]) = ⟨front, finish.span⟩ := by
  have before : (front ++ [finish]).takeWhile (·.kind ≠ .eof) = front := by
    rw [List.takeWhile_append_of_pos (by simpa using noEnd)]
    simp [isEnd]
  simp only [Stream.ofTokens, before, List.drop_left]

/-- The stream that is parsed for a source text without lexical faults. -/
theorem parseSource_of_lex {source : String} {tokens : List Token}
    (lexed : Lexer.lex source = .ok tokens) :
    ∃ front, let finish : Span := ⟨source.utf8ByteSize, source.utf8ByteSize⟩
      tokens = front ++ [⟨.eof, finish⟩] ∧ Lexer.Ordered 0 source.utf8ByteSize front ∧
        parseSource source = parseStream ⟨front, finish⟩ (.ofSource source) := by
  obtain ⟨front, rfl, noEnd⟩ := Lexer.lex_ended lexed
  refine ⟨front, rfl, Lexer.ordered_of_lex lexed, ?_⟩
  simp only [parseSource, parse, lexed, bind, Except.bind, Stream.ofTokens_append noEnd]

end Parser

end GoFront
