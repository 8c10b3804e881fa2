import GoFront.Proofs.Parser.Walk.Steps

/-!
Each rule of the grammar, walked over all tokens, does what its parser does. Loops go by induction
on the tokens left, since every turn takes one at least.
-/
namespace GoFront.Tape

variable {α β : Type} {tape : Tape} {place : Nat} {token : Token} {later : List Token}

/-! ### Recovery -/

theorem declares_current (finish : Span) (tokens : List Token) :
    Parser.recovery.declares [(⟨tokens, finish⟩ : Stream).current] =
      Parser.recovery.declares tokens := by
  cases tokens with
  | nil => rfl
  | cons token rest =>
    obtain ⟨kind, span⟩ := token
    cases kind <;> rfl

theorem gives_recover (depth place : Nat) :
    tape.Gives (Walk.recover depth) place
      (.ok () (Parser.recovery depth (tape.body.drop place))) := by
  induction place using tape.place_induction generalizing depth with
  | nil here =>
    rw [here]
    exact .loop fun _ _ => .peek_nil here .pure
  | @cons place token later here ih =>
    have hereNext := drop_succ here
    refine .of_covers fun covers => .loop fun again goes => ?_
    have further (depth : Nat) : tape.Gives (again depth) (place + 1)
        (.ok () (Parser.recovery depth later)) :=
      goes depth (Nat.lt_succ_self place) (hereNext ▸ ih 0 depth)
    rw [here, Parser.recovery.eq_def]
    refine .peek_cons here ?_
    rw [if_neg (notEnd covers here)]
    obtain ⟨kind, span⟩ := token
    cases kind with
    | punctuation sign =>
      cases sign with
      | opening => exact .take_ok here (further (depth + 1))
      | closing => exact .take_ok here (further (depth - 1))
      | semicolon =>
        have looks : tape.Gives Walk.peek (place + 1) _ := gives_peek
        have declares := declares_current tape.finish later
        rw [stream, hereNext] at looks
        dsimp only
        split
        next resumes =>
          change tape.Gives _ place (.ok () (1 + 0))
          refine .take_ok here (looks.behind ?_)
          rw [declares, if_pos resumes]
          exact .pure
        next goesOn =>
          refine .take_ok here (looks.behind ?_)
          rw [declares, if_neg goesOn]
          exact further depth
      | _ => exact .take_ok here (further depth)
    | _ => exact .take_ok here (further depth)

/-! ### Lists of items -/

theorem stream_taken (here : tape.body.drop place = token :: later) {used : Nat}
    (positive : 0 < used) :
    tape.stream (place + used) = ⟨later.drop (used - 1), tape.finish⟩ := by
  rw [Parser.drop_pred positive token later, ← here, List.drop_drop, stream]

theorem items_skip (p : Parser α) (opener : Span) (place : Nat) :
    Parser.items p opener (tape.stream place) =
      (Parser.items p opener (tape.stream (place + tape.semicolons place))).after
        (tape.semicolons place) := by
  induction place using tape.place_induction with
  | nil here => rw [semicolons_nil here, Reply.after_zero, Nat.add_zero]
  | @cons place token later here ih =>
    by_cases semicolon : token.kind = .punctuation .semicolon
    · have next := ih 0
      rw [stream, drop_behind here, List.drop_zero, Nat.add_zero] at next
      rw [stream_cons here, Parser.items.eq_def]
      dsimp only
      rw [if_pos semicolon, next, semicolons_cons here semicolon, Reply.after_after, Nat.add_assoc]
    · rw [semicolons_other (by simp [startsWith_eq here, semicolon]), Reply.after_zero,
        Nat.add_zero]

theorem gives_items {item : Walk α} {p : Parser α} (follows : tape.Follows item p)
    (isItem : Parser.IsItem p) (opener : Span) (place : Nat) :
    tape.Gives (Walk.items item opener) place (Parser.items p opener (tape.stream place)) := by
  have isLine := isItem.bind fun value => Parser.lineEnd_neat.bind fun _ => .pure value
  have line : tape.Follows (do let value ← item; Walk.lineEnd; return value)
      (do let value ← p; Parser.lineEnd; return value) :=
    follows.bind fun value => follows_lineEnd.bind fun _ => .pure value
  -- A turn starts with semicolons, so that the token it is about is not the one at the place:
  -- the induction is on the tokens left and not on what stands here.
  induction left : tape.body.length - place using Nat.strong_induction_on generalizing place with
  | h size ih =>
    have noSemicolon := tape.behind_semicolons place
    rw [items_skip]
    refine .loop fun again goes => .skip (.of_covers fun covers => ?_)
    generalize isFirst : place + tape.semicolons place = first at *
    have first_le : place ≤ first := isFirst ▸ Nat.le_add_right ..
    cases here : tape.body.drop first with
    | nil =>
      rw [stream_nil here, Parser.items.eq_def]
      exact .sign_missing (startsWith_nil here _) (.peek_nil here .failAt)
    | cons token later =>
      have inside := (covers.next here).2
      have starts := startsWith_eq here
      have walked : (do
          let value ← item
          Walk.lineEnd
          return value :: (← again ())) =
          ((do let value ← item; Walk.lineEnd; return value) >>= fun value =>
            (value :: ·) <$> again ()) := by
        simp
      have reads := line first
      rw [stream_cons here] at reads ⊢
      rw [Parser.items.eq_def]
      dsimp only
      split_ifs with semicolon closing
      · simp [starts, semicolon] at noSemicolon
      · change tape.Gives _ first ((Reply.ok [] 0).after 1)
        exact .sign_taken (by simp [starts, closing]) .pure
      · refine .sign_missing (by simp [starts, closing]) (.peek_cons here ?_)
        rw [if_neg (notEnd covers here), walked]
        split
        next value used taken =>
          have positive := (isLine _ _ _ taken).2
          have next := ih _ (by omega) (first + used) rfl
          rw [stream_taken here positive] at next
          rw [taken] at reads
          exact reads.andThen (goes () (by omega) next).map
        next finding used failed =>
          rw [failed] at reads
          exact reads.stop

theorem follows_oneOrMany {item : Walk α} {p : Parser α} (follows : tape.Follows item p)
    (isItem : Parser.IsItem p) : tape.Follows (Walk.oneOrMany item) (Parser.oneOrMany p) :=
  (follows_atSign _).bind fun _ => .ite
    (follows_advance.bind fun opener => gives_items follows isItem opener.span)
    (follows.bind fun value => .pure [value])

/-! ### The package clause and the imports -/

theorem follows_packageClause : tape.Follows Walk.packageClause Parser.packageClause := by
  refine follows_skipSemicolons.bind fun _ => follows_peek.bind fun token =>
    .ite (.failAt _ _) (follows_advance.bind fun _ => follows_peek.bind fun name => ?_)
  cases name.kind with
  | ident text =>
    exact .ite (.failAt _ _) (follows_advance.bind fun _ => follows_lineEnd.bind fun _ => .pure _)
  | _ => exact .failAt _ _

theorem follows_importPath : tape.Follows Walk.importPath Parser.importPath := by
  refine follows_peek.bind fun token => ?_
  cases token.kind with
  | string path =>
    refine follows_advance.bind fun _ => .ite (.failAt _ _) ?_
    cases path.toList.find? (!Parser.isPathChar ·) with
    | some bad => exact .failAt _ _
    | none => exact .pure _
  | _ => exact .failAt _ _

theorem follows_importSpec : tape.Follows Walk.importSpec Parser.importSpec := by
  refine follows_peek.bind fun first => ?_
  have path : tape.Follows
      (do let path ← Walk.importPath
          return ⟨⟨path.value, Parser.bindingOf first.kind⟩, first.span.merge path.span⟩ :
        Walk (Spanned Import))
      (do let path ← Parser.importPath
          return ⟨⟨path.value, Parser.bindingOf first.kind⟩, first.span.merge path.span⟩ :
        Parser (Spanned Import)) :=
    follows_importPath.bind fun _ => .pure _
  exact .ite (follows_advance.bind fun _ => path) path

theorem follows_importDeclaration :
    tape.Follows Walk.importDeclaration Parser.importDeclaration :=
  follows_advance.bind fun _ =>
    (follows_oneOrMany follows_importSpec Parser.importSpec_isItem).bind fun _ =>
      follows_lineEnd.bind fun _ => .pure _

/-! ### Declarations -/

theorem gives_receiverBase (opener : Span) (base : Option String) (place : Nat) :
    tape.Gives (Walk.receiverBase opener base) place
      (Parser.receiverBase opener base (tape.stream place)) := by
  induction place using tape.place_induction generalizing base with
  | nil here =>
    rw [stream_nil here, Parser.receiverBase.eq_def]
    exact .loop fun _ _ => .peek_nil here .failAt
  | @cons place token later here ih =>
    refine .of_covers fun covers => .loop fun again goes => ?_
    have further (base : Option String) (n : Nat) :
        tape.Gives (again base) (place + (1 + n))
          (Parser.receiverBase opener base ⟨later.drop n, tape.finish⟩) := by
      have next := ih n base
      rw [stream, drop_behind here] at next
      exact goes base (by omega) next
    have refused : tape.Gives
        (Walk.unexpected "')' closing the receiver" : Walk (Option String)) place _ :=
      follows_unexpected _ place
    rw [stream_cons here] at refused ⊢
    rw [Parser.receiverBase.eq_def]
    refine .peek_cons here ?_
    have plain : tape.Gives (do let _ ← Walk.advance; again base) place
        ((Parser.receiverBase opener base ⟨later, tape.finish⟩).after 1) :=
      .take here (further base 0)
    have notEnd := notEnd covers here
    obtain ⟨kind, span⟩ := token
    cases kind with
    | eof => exact absurd rfl notEnd
    | ident name => exact .take here (further (some name) 0)
    | punctuation sign =>
      cases sign with
      | semicolon => exact refused
      | opening delimiter =>
        cases delimiter with
        | paren => exact plain
        | brace => exact refused
        | bracket =>
          dsimp only
          cases closed : Parser.closeGroups ⟨.bracket, span⟩ [] later with
          | ok found used => exact (gives_group_ok here closed).andThen (further base used)
          | fail finding used => exact (gives_group_fail here closed).stop
      | closing delimiter =>
        cases delimiter with
        | paren => exact .taken here base
        | _ => exact plain
      | _ => exact plain
    | _ => exact plain

theorem receiver_pos {s : Stream} {opener : Span} {base : Option String} {used : Nat}
    (taken : (do let _ ← Parser.advance; Parser.receiverBase opener none :
      Parser (Option String)) s = .ok base used) : 0 < used := by
  obtain ⟨_, n, k, advanced, later, rfl⟩ := Parser.bind_eq_ok.mp taken
  obtain ⟨-, rfl⟩ := (Reply.ok.injEq ..).mp advanced
  obtain ⟨tokens, finish⟩ := s
  cases tokens with
  | nil => simp [Stream.drop, Parser.receiverBase.eq_def] at later
  | cons token rest => simp

theorem follows_receiver : tape.Follows Walk.receiver Parser.receiver := by
  refine fun place => .of_covers fun covers => gives_peek.behind ?_
  generalize isOpener : (tape.stream place).current.span = opener
  have first : tape.Gives (do let _ ← Walk.advance; Walk.receiverBase opener none) place
      ((do let _ ← Parser.advance; Parser.receiverBase opener none : Parser (Option String))
        (tape.stream place)) :=
    (follows_advance.bind fun _ => gives_receiverBase opener none) place
  have walked (next : Option String → Walk String) :
      (do let _ ← Walk.advance; let found ← Walk.receiverBase opener none; next found) =
        (do let _ ← Walk.advance; Walk.receiverBase opener none) >>= next := by
    simp
  rw [walked]
  simp only [Parser.receiver, isOpener]
  split
  next base used taken =>
    rw [taken] at first
    change tape.Gives _ place ((Reply.ok base 0).after used)
    refine first.andThen ?_
    exact .pure
  next used taken =>
    -- The fault lies up to the token in front, and there is one, since the closer was taken.
    have before := gives_previousSpan covers (receiver_pos taken)
    rw [taken] at first
    rw [Stream.covered, isOpener, stream_drop]
    change tape.Gives _ place ((Reply.fail _ 0).after used)
    refine first.andThen ?_
    exact before.behind .failAt
  next finding used failed =>
    rw [failed] at first
    exact first.stop

theorem gives_opened {delimiter : Delimiter}
    (starts : (tape.stream place).startsWith (.opening delimiter) = true) :
    tape.Gives Walk.group place (Parser.group (tape.stream place)) := by
  obtain ⟨⟨kind, span⟩, later, here, rfl⟩ := startsWith_cons starts
  rw [stream_cons here]
  exact gives_group here

theorem follows_function : tape.Follows Walk.function Parser.function := by
  -- Skipping a group is compared only where one opens, as the brace in front of it says.
  have body (value : Bool → Declaration) : tape.Follows
      (do let hasBody ← Walk.atSign (.opening .brace)
          if hasBody then let _ ← Walk.group
          return value hasBody)
      (do let hasBody ← Parser.atSign (.opening .brace)
          if hasBody then let _ ← Parser.group
          return value hasBody) := by
    intro place
    refine (follows_atSign _ place).bind_at fun hasBody n looked => ?_
    obtain ⟨starts, rfl⟩ := (Reply.ok.injEq ..).mp looked
    cases hasBody with
    | false => exact .pure
    | true => exact (gives_opened starts).bind_at fun _ _ _ => .pure
  have signature (type : Option String) : tape.Follows
      (do let name ← Walk.identifier "function name"
          if !(← Walk.atSign (.opening .paren)) && !(← Walk.atSign (.opening .bracket)) then
            Walk.unexpected "'(' after function name"
          else
            Walk.tail true
            let hasBody ← Walk.atSign (.opening .brace)
            if hasBody then let _ ← Walk.group
            return .func name type hasBody)
      (Parser.signature type) :=
    (follows_identifier _).bind fun _ => (follows_atSign _).bind fun _ =>
      (follows_atSign _).bind fun _ => .ite (follows_unexpected _)
        ((follows_tail true).bind fun _ => body _)
  rw [Parser.function_eq]
  exact follows_advance.bind fun _ => (follows_atSign _).bind fun _ =>
    .ite ((follows_receiver.map some).bind signature) (.bind (.pure none) signature)

theorem gives_moreNames (place : Nat) :
    tape.Gives Walk.moreNames place (Parser.moreNames (tape.stream place)) := by
  induction place using tape.place_induction with
  | nil here =>
    rw [stream_nil here, Parser.moreNames.eq_def]
    exact .loop fun _ _ => .sign_missing (startsWith_nil here _) .pure
  | @cons place token later here ih =>
    refine .loop fun again goes => ?_
    by_cases comma : token.kind = .punctuation .comma
    · have name : tape.Gives _ (place + 1) _ := follows_identifier "identifier" (place + 1)
      obtain ⟨kind, span⟩ := token
      obtain rfl : kind = .punctuation .comma := comma
      rw [stream, drop_succ here] at name
      rw [stream_cons here, Parser.moreNames.eq_def]
      have starts : (tape.stream place).startsWith .comma = true := by simp [startsWith_eq here]
      dsimp only
      split
      next found used taken =>
        have next := ih used
        rw [stream, drop_behind here, ← Nat.add_assoc] at next
        rw [taken] at name
        rw [← Reply.after_after]
        exact .sign_taken starts (name.andThen (goes () (by omega) next).map)
      next finding used failed =>
        rw [failed] at name
        change tape.Gives _ place ((Reply.fail finding used).after 1)
        exact .sign_taken starts name.stop
    · have ends : Parser.moreNames (tape.stream place) = .ok [] 0 := by
        rw [stream_cons here, Parser.moreNames.eq_def]
        split
        next isComma => simp_all
        next => rfl
      rw [ends]
      exact .sign_missing (by simp [startsWith_eq here, comma]) .pure

theorem follows_nameList : tape.Follows Walk.nameList Parser.nameList :=
  (follows_identifier _).bind fun _ => .bind gives_moreNames fun _ => .pure _

theorem follows_groupEntry (kind : GroupKind) :
    tape.Follows (Walk.groupEntry kind) (Parser.groupEntry kind) := by
  have ended (names : List (Spanned String)) : tape.Follows
      (do Walk.tail false
          if (← Walk.atSign (.closing .bracket)) || (← Walk.atSign (.closing .brace)) then
            Walk.unexpected "';' or newline"
          else
            return names)
      (do Parser.tail false
          if (← Parser.atSign (.closing .bracket)) || (← Parser.atSign (.closing .brace)) then
            Parser.unexpected "';' or newline"
          else
            return names) :=
    (follows_tail false).bind fun _ => (follows_atSign _).bind fun _ =>
      (follows_atSign _).bind fun _ => .ite (follows_unexpected _) (.pure names)
  exact .ite (((follows_identifier _).map _).bind ended) (follows_nameList.bind ended)

theorem follows_nameGroup (kind : GroupKind) :
    tape.Follows (Walk.nameGroup kind) (Parser.nameGroup kind) :=
  follows_advance.bind fun _ =>
    (follows_oneOrMany (follows_groupEntry kind) (Parser.groupEntry_isItem kind)).bind fun _ =>
      .pure _

theorem follows_declarationOf (word : Keyword) :
    tape.Follows (Walk.declarationOf word) (Parser.declarationOf word) := by
  cases word with
  | funcKw => exact follows_function
  | varKw => exact follows_nameGroup .var
  | constKw => exact follows_nameGroup .const
  | typeKw => exact follows_nameGroup .type
  | _ => exact follows_unexpected _

theorem follows_declaration : tape.Follows Walk.declaration Parser.declaration := by
  refine fun place => .of_covers fun covers => gives_peek.behind ?_
  unfold Parser.declaration
  cases isKind : (tape.stream place).current.kind with
  | keyword word =>
    have first : tape.Gives _ place _ := follows_declarationOf word place
    dsimp only
    split
    next value used taken =>
      have before := gives_previousSpan covers (Parser.declarationOf_pos taken isKind)
      have ended : tape.Gives _ (place + used) _ := follows_lineEnd (place + used)
      rw [taken] at first
      rw [Stream.covered, stream_drop, stream_drop]
      exact first.andThen (before.behind ended.map)
    next finding used failed =>
      rw [failed] at first
      exact first.stop
  | _ => exact follows_unexpected _ place

end GoFront.Tape
