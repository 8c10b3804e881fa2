import GoFront.Proofs.Parser.Tracing

/-!
The grammar of top-level declarations, as relations on tokens, and that the parser takes whatever
the grammar allows: `Takes.declaration` for a declaration with a semicolon behind it.
-/
namespace GoFront

abbrev Token.sign (sign : Punctuation) (span : Span) : Token := ⟨.punctuation sign, span⟩

/-! ### The grammar -/

/-- Nested tokens without a semicolon outside of all groups. -/
inductive Statement : List Token → Prop where
  | nil : Statement []
  | plain {token : Token} {rest : List Token} (isPlain : token.kind.isDelimiter = false)
      (noSemicolon : token.kind ≠ .punctuation .semicolon) (later : Statement rest) :
      Statement (token :: rest)
  | group (delimiter : Delimiter) (opener closer : Span) {inside rest : List Token}
      (within : Nested (inside.map (·.kind))) (later : Statement rest) :
      Statement (.sign (.opening delimiter) opener ::
        (inside ++ .sign (.closing delimiter) closer :: rest))

def Keyword.opensType (word : Keyword) : Prop := word = .structKw ∨ word = .interfaceKw

/-- What may stand between the first parameters of a function and its body. Braces are those of
types. -/
inductive SignatureItems : List Token → Prop where
  | nil : SignatureItems []
  | plain {token : Token} {rest : List Token} (isPlain : token.kind.isDelimiter = false)
      (noSemicolon : token.kind ≠ .punctuation .semicolon)
      (noType : ∀ word, token.kind = .keyword word → ¬word.opensType)
      (later : SignatureItems rest) : SignatureItems (token :: rest)
  | group {delimiter : Delimiter} (noBrace : delimiter ≠ .brace) (opener closer : Span)
      {inside rest : List Token} (within : Nested (inside.map (·.kind)))
      (later : SignatureItems rest) :
      SignatureItems (.sign (.opening delimiter) opener ::
        (inside ++ .sign (.closing delimiter) closer :: rest))
  | type {word : Keyword} (isType : word.opensType) (span opener closer : Span)
      {inside rest : List Token} (within : Nested (inside.map (·.kind)))
      (later : SignatureItems rest) :
      SignatureItems (⟨.keyword word, span⟩ :: .sign (.opening .brace) opener ::
        (inside ++ .sign (.closing .brace) closer :: rest))

/-- The signature of a function: its parameters in parentheses or brackets, then its items. -/
inductive Signature : List Token → Prop where
  | parameters {delimiter : Delimiter} (noBrace : delimiter ≠ .brace) (opener closer : Span)
      {inside items : List Token} (within : Nested (inside.map (·.kind)))
      (listed : SignatureItems items) :
      Signature (.sign (.opening delimiter) opener ::
        (inside ++ .sign (.closing delimiter) closer :: items))

/-- The tokens between the parentheses of a receiver, and the last identifier among them outside of
brackets. -/
inductive ReceiverType : List Token → Option String → Prop where
  | nil : ReceiverType [] none
  | name (name : Spanned String) {rest : List Token} {found : Option String}
      (later : ReceiverType rest found) : ReceiverType (name.token :: rest) (found.or name.value)
  | plain {token : Token} {rest : List Token} {found : Option String}
      (isPlain : token.kind.isDelimiter = false)
      (noSemicolon : token.kind ≠ .punctuation .semicolon)
      (noName : ∀ name, token.kind ≠ .ident name) (later : ReceiverType rest found) :
      ReceiverType (token :: rest) found
  | brackets (opener closer : Span) {inside rest : List Token} {found : Option String}
      (within : Nested (inside.map (·.kind))) (later : ReceiverType rest found) :
      ReceiverType (.sign (.opening .bracket) opener ::
        (inside ++ .sign (.closing .bracket) closer :: rest)) found

/-- The receiver of a function, if it has one, and the name of its type. -/
inductive Receiver : List Token → Option String → Prop where
  | none : Receiver [] none
  | some (opener closer : Span) {inside : List Token} {type : String}
      (typed : ReceiverType inside (some type)) :
      Receiver (.sign (.opening .paren) opener :: (inside ++ [.sign (.closing .paren) closer]))
        (some type)

inductive Body : List Token → Bool → Prop where
  | none : Body [] false
  | braces (opener closer : Span) {inside : List Token} (within : Nested (inside.map (·.kind))) :
      Body (.sign (.opening .brace) opener :: (inside ++ [.sign (.closing .brace) closer])) true

inductive NameList : List Token → List (Spanned String) → Prop where
  | one (name : Spanned String) : NameList [name.token] [name]
  | cons (name : Spanned String) (comma : Span) {rest : List Token} {names : List (Spanned String)}
      (later : NameList rest names) :
      NameList (name.token :: .sign .comma comma :: rest) (name :: names)

/-- One entry of a declaration of this kind: its names and the rest of it. -/
structure GroupEntry (kind : GroupKind) (part : List Token) (names : List (Spanned String)) :
    Prop where
  split : ∃ list tail, part = list ++ tail ∧ NameList list names ∧ Statement tail ∧
    ∀ token ∈ tail.head?, token.kind ≠ .punctuation .comma
  single : kind = .type → names.length = 1

/-- Entries with semicolons between them. There may be semicolons to spare. -/
inductive GroupEntries (kind : GroupKind) : List Token → List (List (Spanned String)) → Prop where
  | nil : GroupEntries kind [] []
  | empty (span : Span) {rest : List Token} {entries : List (List (Spanned String))}
      (later : GroupEntries kind rest entries) :
      GroupEntries kind (.sign .semicolon span :: rest) entries
  | last {part : List Token} {names : List (Spanned String)} (entry : GroupEntry kind part names) :
      GroupEntries kind part [names]
  | cons {part rest : List Token} {names : List (Spanned String)}
      {entries : List (List (Spanned String))} (entry : GroupEntry kind part names) (span : Span)
      (later : GroupEntries kind rest entries) :
      GroupEntries kind (part ++ .sign .semicolon span :: rest) (names :: entries)

/-- The tokens of a well-formed top-level declaration, and what it declares. -/
inductive Declares : List Token → Declaration → Prop where
  | func (span : Span) (name : Spanned String) {receiver signature body : List Token}
      {type : Option String} {hasBody : Bool} (received : Receiver receiver type)
      (signed : Signature signature) (bodied : Body body hasBody) :
      Declares (⟨.keyword .funcKw, span⟩ :: (receiver ++ name.token :: (signature ++ body)))
        (.func name type hasBody)
  | single (kind : GroupKind) (span : Span) {part : List Token} {names : List (Spanned String)}
      (entry : GroupEntry kind part names) :
      Declares (⟨.keyword kind.keyword, span⟩ :: part) (.group kind names)
  | many (kind : GroupKind) (span opener closer : Span) {inside : List Token}
      {entries : List (List (Spanned String))} (listed : GroupEntries kind inside entries) :
      Declares (⟨.keyword kind.keyword, span⟩ :: .sign (.opening .paren) opener ::
        (inside ++ [.sign (.closing .paren) closer])) (.group kind entries.flatten)

/-! ### Groups -/

@[elab_as_elim] theorem nested_tokens_induction {motive : List Token → Prop} (nil : motive [])
    (plain : ∀ token rest, token.kind.isDelimiter = false → motive rest → motive (token :: rest))
    (group : ∀ delimiter opener closer inside rest, motive inside → motive rest →
      motive (.sign (.opening delimiter) opener ::
        (inside ++ .sign (.closing delimiter) closer :: rest)))
    {tokens : List Token} (nested : Nested (tokens.map (·.kind))) : motive tokens := by
  generalize isKinds : tokens.map (·.kind) = kinds at nested
  induction nested generalizing tokens with
  | nil => exact List.map_eq_nil_iff.mp isKinds ▸ nil
  | plain isPlain _ ih =>
    obtain ⟨token, rest, rfl, rfl, isRest⟩ := List.map_eq_cons_iff.mp isKinds
    exact plain token rest isPlain (ih isRest)
  | group delimiter _ _ ihInside ih =>
    obtain ⟨⟨kind, opener⟩, others, rfl, rfl, isOthers⟩ := List.map_eq_cons_iff.mp isKinds
    obtain ⟨inside, more, rfl, isInside, isMore⟩ := List.map_eq_append_iff.mp isOthers
    obtain ⟨⟨kind, closer⟩, rest, rfl, rfl, isRest⟩ := List.map_eq_cons_iff.mp isMore
    exact group delimiter opener closer inside rest (ihInside isInside) (ih isRest)

namespace Parser

theorem closeGroups_plain {token : Token} (isPlain : token.kind.isDelimiter = false)
    (inner : Spanned Delimiter) (outer : List (Spanned Delimiter)) (rest : List Token) :
    closeGroups inner outer (token :: rest) = (closeGroups inner outer rest).after 1 := by
  rw [closeGroups.eq_def]
  dsimp only
  split
  next isOpening => simp [isOpening, TokenKind.isDelimiter] at isPlain
  next isClosing => simp [isClosing, TokenKind.isDelimiter] at isPlain
  next => rfl

theorem closeGroups_nested {tokens : List Token} (nested : Nested (tokens.map (·.kind))) :
    ∀ inner outer rest, closeGroups inner outer (tokens ++ rest) =
      (closeGroups inner outer rest).after tokens.length := by
  refine nested_tokens_induction ?_ ?_ ?_ nested
  · exact fun inner outer rest => (Reply.after_zero _).symm
  · intro token others isPlain ih inner outer rest
    rw [List.cons_append, closeGroups_plain isPlain, ih, Reply.after_after, List.length_cons,
      Nat.add_comm]
  · intro delimiter opener closer inside others ihInside ih inner outer rest
    have closes : closeGroups ⟨delimiter, opener⟩ (inner :: outer)
        (.sign (.closing delimiter) closer :: (others ++ rest)) =
          (closeGroups inner outer (others ++ rest)).after 1 := by
      simp [closeGroups]
    have opens : closeGroups inner outer (.sign (.opening delimiter) opener ::
        (inside ++ .sign (.closing delimiter) closer :: (others ++ rest))) =
          (closeGroups ⟨delimiter, opener⟩ (inner :: outer)
            (inside ++ .sign (.closing delimiter) closer :: (others ++ rest))).after 1 := rfl
    simp only [List.cons_append, List.append_assoc]
    rw [opens, ihInside, closes, ih, Reply.after_after, Reply.after_after, Reply.after_after]
    congr 1
    simp
    omega

theorem closeGroups_group {inside : List Token} (nested : Nested (inside.map (·.kind)))
    (delimiter : Delimiter) (opener closer : Span) (rest : List Token) :
    closeGroups ⟨delimiter, opener⟩ [] (inside ++ .sign (.closing delimiter) closer :: rest) =
      .ok closer (inside.length + 1) := by
  rw [closeGroups_nested nested]
  simp [closeGroups, Reply.after]

/-! ### Tails -/

theorem skipTail_plain {stopAtBrace : Bool} {token : Token} {rest : List Token}
    (isPlain : token.kind.isDelimiter = false)
    (noSemicolon : token.kind ≠ .punctuation .semicolon)
    (noType : ∀ word, token.kind = .keyword word → ¬word.opensType) :
    skipTail stopAtBrace (token :: rest) = (skipTail stopAtBrace rest).after 1 := by
  rw [skipTail.eq_def]
  dsimp only
  split
  next isSemicolon => exact absurd isSemicolon noSemicolon
  next isClosing => simp [isClosing, TokenKind.isDelimiter] at isPlain
  next isOpening => simp [isOpening, TokenKind.isDelimiter] at isPlain
  next isStruct => exact absurd (.inl rfl) (noType _ isStruct)
  next isInterface => exact absurd (.inr rfl) (noType _ isInterface)
  next => rfl

theorem skipTail_group {stopAtBrace : Bool} {delimiter : Delimiter}
    (skips : (stopAtBrace && delimiter = .brace) = false) (opener closer : Span)
    {inside : List Token} (within : Nested (inside.map (·.kind))) (rest : List Token) :
    skipTail stopAtBrace (.sign (.opening delimiter) opener ::
        (inside ++ .sign (.closing delimiter) closer :: rest)) =
      (skipTail stopAtBrace rest).after (inside.length + 2) := by
  have behind : (inside ++ .sign (.closing delimiter) closer :: rest).drop (inside.length + 1) =
      rest := by
    simp
  rw [skipTail.eq_def]
  simp only [skips, Bool.false_eq_true, if_false, closeGroups_group within, behind]
  rw [Nat.add_comm 1]

theorem skipTail_opensType (stopAtBrace : Bool) {word : Keyword} (isType : word.opensType)
    (span : Span) (rest : List Token) :
    skipTail stopAtBrace (⟨.keyword word, span⟩ :: rest) =
      skipTail stopAtBrace (⟨.keyword .structKw, span⟩ :: rest) := by
  rcases isType with rfl | rfl
  · rfl
  · rw [skipTail.eq_def, skipTail.eq_def _ (⟨.keyword .structKw, span⟩ :: rest)]

/-- Where braces are skipped like other groups, the keyword before them makes no difference. -/
theorem skipTail_typeWord {word : Keyword} (isType : word.opensType) (span : Span)
    (rest : List Token) :
    skipTail false (⟨.keyword word, span⟩ :: rest) = (skipTail false rest).after 1 := by
  rw [skipTail_opensType false isType, skipTail.eq_def]
  dsimp only
  cases brace : braceAt? rest with
  | none => rfl
  | some opener =>
    obtain ⟨inside, rfl⟩ := braceAt?_eq_some brace
    rw [skipTail.eq_def false (_ :: inside)]
    simp only [List.drop_succ_cons, List.drop_zero, Bool.false_and, Bool.false_eq_true, if_false]
    cases closeGroups ⟨.brace, opener⟩ [] inside with
    | ok found used =>
      dsimp only
      rw [Nat.add_comm 1 used, List.drop_succ_cons, Reply.after_after]
      congr 1
      omega
    | fail finding used =>
      dsimp only
      rw [Reply.after, ← Nat.add_assoc]

/-- Outside of signatures, a token that is no delimiter and no semicolon is skipped on its own. -/
theorem skipTail_token {token : Token} {rest : List Token}
    (isPlain : token.kind.isDelimiter = false)
    (noSemicolon : token.kind ≠ .punctuation .semicolon) :
    skipTail false (token :: rest) = (skipTail false rest).after 1 := by
  by_cases isType : ∃ word, token.kind = .keyword word ∧ word.opensType
  · obtain ⟨kind, span⟩ := token
    obtain ⟨word, rfl, opens⟩ := isType
    exact skipTail_typeWord opens span rest
  · exact skipTail_plain isPlain noSemicolon fun word isWord opens => isType ⟨word, isWord, opens⟩

theorem skipTail_type {stopAtBrace : Bool} {word : Keyword} (isType : word.opensType)
    (span opener closer : Span) {inside : List Token} (within : Nested (inside.map (·.kind)))
    (rest : List Token) :
    skipTail stopAtBrace (⟨.keyword word, span⟩ :: .sign (.opening .brace) opener ::
        (inside ++ .sign (.closing .brace) closer :: rest)) =
      (skipTail stopAtBrace rest).after (inside.length + 3) := by
  have behind : (Token.sign (.opening .brace) opener ::
      (inside ++ .sign (.closing .brace) closer :: rest)).drop (1 + (inside.length + 1)) =
        rest := by
    rw [Nat.add_comm, List.drop_succ_cons]
    simp
  have closed := closeGroups_group within .brace opener closer rest
  have count : 2 + (inside.length + 1) = inside.length + 3 := by omega
  rw [skipTail_opensType stopAtBrace isType, skipTail.eq_def]
  simp only [braceAt?, List.drop_succ_cons, List.drop_zero, closed, behind, count]

theorem skipTail_statement {tail : List Token} (statement : Statement tail) (rest : List Token) :
    skipTail false (tail ++ rest) = (skipTail false rest).after tail.length := by
  induction statement with
  | nil => exact (Reply.after_zero _).symm
  | plain isPlain noSemicolon _ ih =>
    rw [List.cons_append, skipTail_token isPlain noSemicolon, ih, Reply.after_after,
      List.length_cons, Nat.add_comm]
  | group delimiter opener closer within _ ih =>
    simp only [List.cons_append, List.append_assoc]
    rw [skipTail_group rfl opener closer within, ih, Reply.after_after]
    congr 1
    simp
    omega

theorem skipTail_signature {tokens : List Token} (listed : SignatureItems tokens)
    (rest : List Token) :
    skipTail true (tokens ++ rest) = (skipTail true rest).after tokens.length := by
  induction listed with
  | nil => exact (Reply.after_zero _).symm
  | plain isPlain noSemicolon noType _ ih =>
    rw [List.cons_append, skipTail_plain isPlain noSemicolon noType, ih, Reply.after_after,
      List.length_cons, Nat.add_comm]
  | group noBrace opener closer within _ ih =>
    simp only [List.cons_append, List.append_assoc]
    rw [skipTail_group (by simp [noBrace]) opener closer within, ih, Reply.after_after]
    congr 1
    simp
    omega
  | type isType span opener closer within _ ih =>
    simp only [List.cons_append, List.append_assoc]
    rw [skipTail_type isType span opener closer within, ih, Reply.after_after]
    congr 1
    simp
    omega

/-! ### Parsers that take a front of the tokens -/

/-- From these tokens the parser reads the value and leaves the rest. -/
def Takes {α : Type} (p : Parser α) (tokens : List Token) (value : α) (rest : List Token) : Prop :=
  ∃ taken, tokens = taken ++ rest ∧ ∀ finish, p ⟨tokens, finish⟩ = .ok value taken.length

namespace Takes

variable {α β : Type} {p : Parser α} {next : α → Parser β} {value : α} {found : β}
  {token : Token} {tokens rest later : List Token}

theorem pure (value : α) : Takes (pure value) tokens value tokens := ⟨[], rfl, fun _ => rfl⟩

theorem bind (first : Takes p tokens value rest) (second : Takes (next value) rest found later) :
    Takes (p >>= next) tokens found later := by
  obtain ⟨taken, rfl, isOk⟩ := first
  obtain ⟨more, rfl, isFound⟩ := second
  refine ⟨taken ++ more, by rw [List.append_assoc], fun finish => ?_⟩
  simp only [Bind.bind, isOk, Stream.drop, List.drop_left, isFound, Reply.after, List.length_append]

theorem map (f : α → β) (takes : Takes p tokens value rest) :
    Takes (f <$> p) tokens (f value) rest :=
  takes.bind (pure (f value))

theorem advance : Takes advance (token :: rest) token rest := by
  refine ⟨[token], rfl, fun finish => ?_⟩
  simp [Parser.advance, Stream.current]

theorem peek : Takes peek (token :: rest) token (token :: rest) := ⟨[], rfl, fun _ => rfl⟩

theorem atSign (sign : Punctuation) :
    Takes (atSign sign) (token :: rest) (token.kind = .punctuation sign) (token :: rest) :=
  ⟨[], rfl, fun _ => rfl⟩

theorem identifier (what : String) (name : Spanned String) :
    Takes (identifier what) (name.token :: rest) name rest := ⟨[name.token], rfl, fun _ => rfl⟩

theorem lineEnd (span : Span) : Takes lineEnd (.sign .semicolon span :: rest) () rest :=
  ⟨[.sign .semicolon span], rfl, fun _ => rfl⟩

theorem lineEnd_closing (span : Span) :
    Takes Parser.lineEnd (.sign (.closing .paren) span :: rest) ()
      (.sign (.closing .paren) span :: rest) :=
  ⟨[], rfl, fun _ => rfl⟩

theorem group {inside : List Token} (delimiter : Delimiter) (opener closer : Span)
    (within : Nested (inside.map (·.kind))) :
    Takes group (.sign (.opening delimiter) opener ::
        (inside ++ .sign (.closing delimiter) closer :: rest))
      (opener.merge closer) rest := by
  refine ⟨.sign (.opening delimiter) opener :: (inside ++ [.sign (.closing delimiter) closer]),
    by simp, fun finish => ?_⟩
  simp [Parser.group, closeGroups_group within, Reply.map, Reply.after, Nat.add_comm]

/-! ### Functions -/

theorem tail_signature {items : List Token} (listed : SignatureItems items)
    (stops : token.kind = .punctuation .semicolon ∨ token.kind = .punctuation (.opening .brace)) :
    Takes (tail true) (items ++ token :: rest) () (token :: rest) := by
  have stopped : skipTail true (token :: rest) = .ok () 0 := by
    rw [skipTail.eq_def]
    rcases stops with isStop | isStop <;> simp [isStop]
  refine ⟨items, rfl, fun finish => ?_⟩
  rw [Parser.tail, skipTail_signature listed, stopped]
  rfl

theorem receiverBase {inside : List Token} {type : Option String} (typed : ReceiverType inside type)
    (opener closer : Span) (base : Option String) (finish : Span) :
    Parser.receiverBase opener base ⟨inside ++ .sign (.closing .paren) closer :: rest, finish⟩ =
      .ok (type.or base) (inside.length + 1) := by
  induction typed generalizing base with
  | nil => simp [Parser.receiverBase]
  | name name _ ih =>
    rw [List.cons_append, Parser.receiverBase.eq_def]
    simp [Spanned.token, ih, Reply.after, Nat.add_comm]
  | plain isPlain noSemicolon noName _ ih =>
    rw [List.cons_append, Parser.receiverBase.eq_def]
    dsimp only
    split
    next isClosing => simp [isClosing, TokenKind.isDelimiter] at isPlain
    next isBracket => simp [isBracket, TokenKind.isDelimiter] at isPlain
    next name isName => exact absurd isName (noName name)
    next isSemicolon => exact absurd isSemicolon noSemicolon
    next isBrace => simp [isBrace, TokenKind.isDelimiter] at isPlain
    next => simp [ih, Reply.after, Nat.add_comm]
  | @brackets first last inside others _ within _ ih =>
    have behind : (inside ++ .sign (.closing .bracket) last ::
        (others ++ .sign (.closing .paren) closer :: rest)).drop (inside.length + 1) =
          others ++ .sign (.closing .paren) closer :: rest := by
      simp
    simp only [List.cons_append, List.append_assoc]
    rw [Parser.receiverBase.eq_def]
    simp only [closeGroups_group within, behind, ih, Reply.after]
    simp
    omega

theorem receiver {inside : List Token} {type : String} (typed : ReceiverType inside (some type))
    (opener closer : Span) :
    Takes receiver (.sign (.opening .paren) opener ::
      (inside ++ .sign (.closing .paren) closer :: rest)) type rest := by
  have base : Takes (Parser.advance >>= fun _ => Parser.receiverBase opener none)
      (.sign (.opening .paren) opener :: (inside ++ .sign (.closing .paren) closer :: rest))
      (some type) rest := by
    refine advance.bind ⟨inside ++ [.sign (.closing .paren) closer], by simp, fun finish => ?_⟩
    rw [receiverBase typed, List.length_append]
    rfl
  obtain ⟨taken, split, isOk⟩ := base
  refine ⟨taken, split, fun finish => ?_⟩
  unfold Parser.receiver
  dsimp only [Stream.current, List.head?_cons, Option.getD_some]
  rw [isOk finish]

theorem tail_body {items body : List Token} {hasBody : Bool} (make : Bool → Declaration)
    (listed : SignatureItems items) (bodied : Body body hasBody) (stop : Span) :
    Takes (do
        Parser.tail true
        let hasBody ← Parser.atSign (.opening .brace)
        if hasBody then
          let _ ← Parser.group
        return make hasBody)
      (items ++ (body ++ .sign .semicolon stop :: rest)) (make hasBody)
      (.sign .semicolon stop :: rest) := by
  cases bodied with
  | none =>
    refine (tail_signature listed (.inl rfl)).bind ?_
    exact (atSign (.opening .brace)).bind (pure _)
  | braces opener closer within =>
    simp only [List.cons_append, List.append_assoc]
    refine (tail_signature listed (.inr rfl)).bind ((atSign (.opening .brace)).bind ?_)
    exact (group .brace opener closer within).bind (pure _)

theorem signature {parameters body : List Token} {hasBody : Bool} (name : Spanned String)
    (type : Option String) (signed : Signature parameters) (bodied : Body body hasBody)
    (stop : Span) :
    Takes (signature type)
      (name.token :: (parameters ++ (body ++ .sign .semicolon stop :: rest)))
      (.func name type hasBody) (.sign .semicolon stop :: rest) := by
  cases signed with
  | @parameters delimiter noBrace opener closer inside items within listed =>
    have ends : Takes _ _ _ (.sign .semicolon stop :: rest) :=
      tail_body (.func name type) (.group noBrace opener closer within listed) bodied stop
    refine (identifier _ name).bind ((atSign _).bind ((atSign _).bind ?_))
    cases delimiter with
    | paren => exact ends
    | bracket => exact ends
    | brace => exact absurd rfl noBrace

theorem function {receiver parameters body : List Token} {type : Option String} {hasBody : Bool}
    (span : Span) (name : Spanned String) (received : Receiver receiver type)
    (signed : Signature parameters) (bodied : Body body hasBody) (stop : Span) :
    Takes function
      (⟨.keyword .funcKw, span⟩ :: (receiver ++ name.token :: (parameters ++
        (body ++ .sign .semicolon stop :: rest))))
      (.func name type hasBody) (.sign .semicolon stop :: rest) := by
  have plain : Takes (Parser.signature type) _ _ (.sign .semicolon stop :: rest) :=
    signature name type signed bodied stop
  rw [function_eq]
  cases received with
  | none => exact advance.bind ((atSign _).bind ((pure none).bind plain))
  | some opener closer typed =>
    simp only [List.cons_append, List.append_assoc]
    exact advance.bind ((atSign _).bind (((receiver typed opener closer).map some).bind plain))

/-! ### Groups of names -/

theorem moreNames_nil (noComma : ∀ token ∈ rest.head?, token.kind ≠ .punctuation .comma) :
    Takes moreNames rest [] rest := by
  refine ⟨[], rfl, fun finish => ?_⟩
  rw [moreNames.eq_def]
  split
  next span others _ isComma =>
    obtain ⟨rfl, -⟩ := (Stream.mk.injEq ..).mp isComma
    exact absurd rfl (noComma _ rfl)
  next => rfl

theorem moreNames_cons {names : List (Spanned String)} (comma : Span)
    (takes : Takes nameList tokens names rest) :
    Takes moreNames (.sign .comma comma :: tokens) names rest := by
  obtain ⟨taken, split, isOk⟩ := takes
  refine ⟨.sign .comma comma :: taken, by rw [split, List.cons_append], fun finish => ?_⟩
  obtain ⟨first, m, k, isFirst, isRest, length⟩ := bind_eq_ok.mp (isOk finish)
  obtain ⟨others, n, j, isOthers, isNames, rfl⟩ := bind_eq_ok.mp isRest
  obtain ⟨rfl, rfl⟩ := pure_eq_ok.mp isNames
  have isLater : moreNames ⟨tokens.drop m, finish⟩ = .ok others n := isOthers
  rw [moreNames]
  simp only [isFirst, isLater, Reply.map, Reply.after, List.length_cons]
  congr 1
  omega

theorem nameList {list : List Token} {names : List (Spanned String)} (listed : NameList list names)
    (noComma : ∀ token ∈ rest.head?, token.kind ≠ .punctuation .comma) :
    Takes nameList (list ++ rest) names rest := by
  induction listed with
  | one name => exact (identifier _ name).bind ((moreNames_nil noComma).bind (pure _))
  | cons name comma _ ih => exact (identifier _ name).bind ((moreNames_cons comma ih).bind (pure _))

/-- What ends an entry: a semicolon, or the parenthesis that closes the list. -/
def EndsEntry (token : Token) : Prop :=
  token.kind = .punctuation .semicolon ∨ token.kind = .punctuation (.closing .paren)

theorem tail_statement {more : List Token} (statement : Statement more) (ends : EndsEntry token) :
    Takes (tail false) (more ++ token :: rest) () (token :: rest) := by
  have stopped : skipTail false (token :: rest) = .ok () 0 := by
    rw [skipTail.eq_def]
    rcases ends with isStop | isStop <;> simp [isStop]
  refine ⟨more, rfl, fun finish => ?_⟩
  rw [Parser.tail, skipTail_statement statement, stopped]
  rfl

theorem groupEntry {kind : GroupKind} {part : List Token} {names : List (Spanned String)}
    (entry : GroupEntry kind part names) (ends : EndsEntry token) :
    Takes (groupEntry kind) (part ++ token :: rest) names (token :: rest) := by
  obtain ⟨⟨list, more, rfl, listed, statement, noComma⟩, single⟩ := entry
  have others : Takes (do
      Parser.tail false
      if (← Parser.atSign (.closing .bracket)) || (← Parser.atSign (.closing .brace)) then
        unexpected "';' or newline"
      else
        return names) (more ++ token :: rest) names (token :: rest) := by
    refine (tail_statement statement ends).bind ((atSign _).bind ((atSign _).bind ?_))
    rcases ends with isEnd | isEnd
    · simpa [isEnd] using pure names
    · simpa [isEnd] using pure names
  unfold Parser.groupEntry
  dsimp only
  rw [List.append_assoc]
  split
  next isType =>
    cases listed with
    | one name => exact ((identifier _ name).map List.singleton).bind others
    | cons name comma later =>
      have := single isType
      cases later <;> simp at this
  next =>
    refine (nameList listed fun next isNext => ?_).bind others
    cases more with
    | nil =>
      obtain rfl := Option.some.inj isNext
      rcases ends with isEnd | isEnd <;> simp [isEnd]
    | cons first _ => exact noComma next isNext

theorem line (one : Takes p tokens value rest) (ends : Takes Parser.lineEnd rest () later) :
    Takes (do let value ← p; Parser.lineEnd; return value) tokens value later :=
  one.bind (ends.bind (pure value))

theorem items_nil {item : Parser α} (opener closer : Span) :
    Takes (items item opener) (.sign (.closing .paren) closer :: rest) [] rest := by
  refine ⟨[.sign (.closing .paren) closer], rfl, fun finish => ?_⟩
  rw [items]
  rfl

theorem items_cons {item : Parser α} {opener : Span} {values : List α}
    (noSemicolon : token.kind ≠ .punctuation .semicolon)
    (noClosing : token.kind ≠ .punctuation (.closing .paren))
    (one : Takes (do let value ← item; Parser.lineEnd; return value) (token :: tokens) value later)
    (shorter : later.length ≤ tokens.length)
    (others : Takes (items item opener) later values rest) :
    Takes (items item opener) (token :: tokens) (value :: values) rest := by
  obtain ⟨taken, split, isOk⟩ := one
  obtain ⟨more, rfl, isOthers⟩ := others
  cases taken with
  | nil =>
    rw [List.nil_append] at split
    simp [← split] at shorter
  | cons first taken =>
    rw [List.cons_append] at split
    obtain ⟨rfl, rfl⟩ := List.cons.inj split
    refine ⟨token :: taken ++ more, by simp, fun finish => ?_⟩
    rw [items, if_neg noSemicolon, if_neg noClosing]
    simp only [isOk, List.length_cons, Nat.add_sub_cancel, List.drop_left, isOthers, Reply.map,
      Reply.after]
    simp
    omega

theorem entry_starts {kind : GroupKind} {part : List Token}
    {names : List (Spanned String)} (entry : GroupEntry kind part names) :
    ∃ name more, part = Spanned.token name :: more := by
  obtain ⟨list, tail, rfl, listed, -⟩ := entry.split
  cases listed with
  | one name => exact ⟨name, tail, rfl⟩
  | cons name comma later => exact ⟨name, _, rfl⟩

theorem entries {kind : GroupKind} {inside : List Token} {entries : List (List (Spanned String))}
    (listed : GroupEntries kind inside entries) (opener closer : Span) :
    Takes (items (Parser.groupEntry kind) opener) (inside ++ .sign (.closing .paren) closer :: rest)
      entries rest := by
  induction listed with
  | nil => exact items_nil opener closer
  | empty span _ ih =>
    obtain ⟨taken, split, isOk⟩ := ih
    refine ⟨.sign .semicolon span :: taken, by simpa using split, fun finish => ?_⟩
    rw [List.cons_append, items, if_pos rfl, isOk, Reply.after, List.length_cons, Nat.add_comm]
  | last entry =>
    obtain ⟨name, more, rfl⟩ := entry_starts entry
    have one : Takes _ _ _ (.sign (.closing .paren) closer :: rest) :=
      (groupEntry entry (.inr rfl)).line (lineEnd_closing closer)
    exact items_cons (by simp [Spanned.token]) (by simp [Spanned.token]) one (by simp)
      (items_nil opener closer)
  | @cons _ others _ _ entry span _ ih =>
    obtain ⟨name, more, rfl⟩ := entry_starts entry
    have one : Takes _ _ _ (others ++ .sign (.closing .paren) closer :: rest) :=
      (groupEntry entry (.inl rfl)).line (lineEnd span)
    simp only [List.cons_append, List.append_assoc]
    exact items_cons (by simp [Spanned.token]) (by simp [Spanned.token]) one (by simp; omega) ih

theorem oneOrMany_single {item : Parser α}
    (noParen : token.kind ≠ .punctuation (.opening .paren))
    (one : Takes item (token :: tokens) value rest) :
    Takes (oneOrMany item) (token :: tokens) [value] rest := by
  refine (atSign _).bind ?_
  rw [if_neg (by simpa using noParen)]
  exact one.bind (pure _)

theorem oneOrMany_many {item : Parser α} {values : List α} (opener : Span)
    (many : Takes (items item opener) tokens values rest) :
    Takes (oneOrMany item) (.sign (.opening .paren) opener :: tokens) values rest := by
  refine (atSign _).bind ?_
  rw [if_pos (by simp)]
  exact advance.bind many

theorem nameGroup {kind : GroupKind} {entries : List (List (Spanned String))} (word : Token)
    (takes : Takes (oneOrMany (Parser.groupEntry kind)) tokens entries rest) :
    Takes (nameGroup kind) (word :: tokens) (.group kind entries.flatten) rest :=
  advance.bind (takes.bind (pure _))

theorem nameGroup_single {kind : GroupKind} {part : List Token} {names : List (Spanned String)}
    (entry : GroupEntry kind part names) (ends : EndsEntry token) (word : Token) :
    Takes (Parser.nameGroup kind) (word :: (part ++ token :: rest)) (.group kind names)
      (token :: rest) := by
  obtain ⟨name, more, rfl⟩ := entry_starts entry
  have one : Takes _ _ [names] (token :: rest) :=
    oneOrMany_single (by simp [Spanned.token]) (groupEntry entry ends)
  simpa using nameGroup word one

theorem declarationOf {part : List Token} {d : Declaration} (declares : Declares part d)
    (stop : Span) (rest : List Token) :
    ∃ word, (∃ token ∈ part.head?, token.kind = .keyword word) ∧
      Takes (declarationOf word) (part ++ .sign .semicolon stop :: rest) d
        (.sign .semicolon stop :: rest) := by
  cases declares with
  | func span name received signed bodied =>
    refine ⟨.funcKw, ⟨_, rfl, rfl⟩, ?_⟩
    simp only [List.cons_append, List.append_assoc]
    exact function span name received signed bodied stop
  | single kind span entry =>
    have takes : Takes _ (⟨.keyword kind.keyword, span⟩ :: _) _ (.sign .semicolon stop :: rest) :=
      nameGroup_single entry (.inl rfl) _
    refine ⟨kind.keyword, ⟨_, rfl, rfl⟩, ?_⟩
    cases kind <;> exact takes
  | many kind span opener closer listed =>
    have takes : Takes _ (⟨.keyword kind.keyword, span⟩ :: _) _ (.sign .semicolon stop :: rest) :=
      nameGroup _ (oneOrMany_many opener (entries listed opener closer))
    refine ⟨kind.keyword, ⟨_, rfl, rfl⟩, ?_⟩
    simp only [List.cons_append, List.append_assoc]
    cases kind <;> exact takes

theorem span_unique {part : List Token} {span span' : Span} (placed : SpanOf part span)
    (placed' : SpanOf part span') : span = span' := by
  obtain ⟨first, last, isFirst, isLast, rfl⟩ := placed
  obtain ⟨first', last', isFirst', isLast', rfl⟩ := placed'
  rw [Option.some.inj (isFirst.symm.trans isFirst'), Option.some.inj (isLast.symm.trans isLast')]

/-- The parser takes a well-formed declaration and the semicolon behind it. -/
theorem declaration {part : List Token} {d : Spanned Declaration} (declares : Declares part d.value)
    (placed : SpanOf part d.span) (stop : Span) :
    Takes declaration (part ++ .sign .semicolon stop :: rest) d rest := by
  obtain ⟨word, ⟨first, isFirst, isWord⟩, taken, split, isOk⟩ := declarationOf declares stop rest
  obtain rfl := List.append_cancel_right split
  refine ⟨part ++ [.sign .semicolon stop], by simp, fun finish => ?_⟩
  obtain ⟨more, isPart⟩ := List.head?_eq_some_iff.mp isFirst
  have parsed := isOk finish
  generalize isStream : Stream.mk (part ++ .sign .semicolon stop :: rest) finish = s at parsed ⊢
  have isKeyword : s.current.kind = .keyword word := by
    rw [← isStream, isPart, ← isWord]
    rfl
  have isSpan : s.covered part.length = d.span := by
    have covered : SpanOf (s.tokens.take part.length) (s.covered part.length) :=
      spanOf_covered (by simp [isPart]) (by simp [← isStream])
    rw [← isStream, List.take_left] at covered
    exact isStream ▸ span_unique covered placed
  have ended : Parser.lineEnd (s.drop part.length) = .ok () 1 := by
    rw [← isStream, Stream.drop, List.drop_left]
    rfl
  unfold Parser.declaration
  simp only [isKeyword, parsed, ended, isSpan, Reply.map, Reply.after, List.length_append]
  rfl

end Takes

end Parser

end GoFront
