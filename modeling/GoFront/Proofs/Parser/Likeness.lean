import GoFront.Proofs.Parser.Balance
import Mathlib.Data.List.Forall2

/-!
The parser looks at the kinds of the tokens and passes their places on. So two streams whose tokens
have the same kinds give the same outline, and what holds between the places of the tokens holds
between the places in the two outlines. `Likeness.parse` says so of whole files.
-/
namespace GoFront

/-- What two token streams of the same kinds have in common: a property of all their identifiers,
and a relation between the places of their tokens. Semicolons may stand anywhere. -/
structure Likeness where
  Named : String → Prop
  Placed : Span → Span → Prop
  merge : ∀ {a b a' b'}, Placed a a' → Placed b b' → Placed (a.merge b) (a'.merge b')

/-- Related lists, where the rest of the list may be cut as far as one likes before going on. -/
theorem forall₂_drop_induction {α β : Type} {rel : α → β → Prop}
    {motive : ∀ found found', List.Forall₂ rel found found' → Prop} (nil : motive [] [] .nil)
    (cons : ∀ {a b rest rest'} (first : rel a b) (later : List.Forall₂ rel rest rest'),
      (∀ used, motive (rest.drop used) (rest'.drop used) (List.forall₂_drop used later)) →
      motive (a :: rest) (b :: rest') (.cons first later))
    (found : List α) (found' : List β) (related : List.Forall₂ rel found found') :
    motive found found' related := by
  induction length : found.length using Nat.strong_induction_on generalizing found found' with
  | _ n ih =>
    cases related with
    | nil => exact nil
    | @cons a b rest rest' first later =>
      refine cons first later fun used => ih _ ?_ _ _ _ rfl
      rw [← length, List.length_drop, List.length_cons]
      omega

namespace Likeness

variable (like : Likeness) {α β γ δ : Type}

structure Tokens (t t' : Token) : Prop where
  kind : t.kind = t'.kind
  named : ∀ name, t.kind = .ident name → like.Named name
  placed : t.kind ≠ .punctuation .semicolon → t.kind ≠ .eof → like.Placed t.span t'.span

def Streams (s s' : Stream) : Prop := List.Forall₂ like.Tokens s.tokens s'.tokens

/-- Both replies succeed with related values, or both fail; they take the same number of tokens. -/
inductive Replies (rel : α → β → Prop) : Reply α → Reply β → Prop where
  | ok {value : α} {value' : β} (related : rel value value') (used : Nat) :
      Replies rel (.ok value used) (.ok value' used)
  | fail (finding finding' : Finding) (used : Nat) :
      Replies rel (.fail finding used) (.fail finding' used)

/-- The parsers give related replies on like streams. -/
def Parsers (rel : α → β → Prop) (p : Parser α) (q : Parser β) : Prop :=
  ∀ s s', like.Streams s s' → Replies rel (p s) (q s')

structure Names (name name' : Spanned String) : Prop where
  value : name.value = name'.value
  named : like.Named name.value
  placed : like.Placed name.span name'.span

/-- The name of a receiver type, if there is one. -/
def Types (type type' : Option String) : Prop := type = type' ∧ ∀ name ∈ type, like.Named name

structure Imports (i i' : Spanned Import) : Prop where
  value : i.value = i'.value
  path : i.value.path ≠ "" ∧ ∀ c ∈ i.value.path.toList, Parser.isPathChar c
  binding : ∀ name, i.value.binding = .named name → name ≠ "_" ∧ like.Named name
  placed : like.Placed i.span i'.span

inductive Declarations : Declaration → Declaration → Prop where
  | func {name name' : Spanned String} {receiver : Option String} (named : like.Names name name')
      (typed : ∀ type ∈ receiver, like.Named type) (hasBody : Bool) :
      Declarations (.func name receiver hasBody) (.func name' receiver hasBody)
  | group (kind : GroupKind) {names names' : List (Spanned String)}
      (named : List.Forall₂ like.Names names names') :
      Declarations (.group kind names) (.group kind names')

structure Files (file file' : SourceFile) : Prop where
  package : like.Names file.package file'.package
  notBlank : file.package.value ≠ "_"
  imports : List.Forall₂ like.Imports file.imports file'.imports
  declarations : List.Forall₂ (fun d d' => like.Declarations d.value d'.value)
    file.declarations file'.declarations

/-! ### Streams and replies -/

variable {like}

namespace Replies

variable {rel : α → β → Prop} {rel' : γ → δ → Prop} {reply : Reply α} {reply' : Reply β}

theorem after (replies : Replies rel reply reply') (n : Nat) :
    Replies rel (reply.after n) (reply'.after n) := by
  cases replies with
  | ok related used => exact .ok related (n + used)
  | fail finding finding' used => exact .fail finding finding' (n + used)

theorem map {f : α → γ} {g : β → δ} (replies : Replies rel reply reply')
    (maps : ∀ value value', rel value value' → rel' (f value) (g value')) :
    Replies rel' (reply.map f) (reply'.map g) := by
  cases replies with
  | ok related used => exact .ok (maps _ _ related) used
  | fail finding finding' used => exact .fail finding finding' used

theorem both (replies : Replies rel reply reply') :
    (∃ value value' used, reply = .ok value used ∧ reply' = .ok value' used ∧ rel value value') ∨
      ∃ finding finding' used, reply = .fail finding used ∧ reply' = .fail finding' used := by
  cases replies with
  | ok related used => exact .inl ⟨_, _, used, rfl, rfl, related⟩
  | fail finding finding' used => exact .inr ⟨finding, finding', used, rfl, rfl⟩

end Replies

namespace Streams

variable {s s' : Stream}

theorem current (alike : like.Streams s s') : like.Tokens s.current s'.current := by
  obtain ⟨tokens, finish⟩ := s
  obtain ⟨tokens', finish'⟩ := s'
  cases alike with
  | nil =>
    refine ⟨rfl, fun name isName => ?_, fun _ notEnd => absurd rfl notEnd⟩
    simp [Stream.current] at isName
  | cons first rest => exact first

theorem drop (alike : like.Streams s s') (n : Nat) : like.Streams (s.drop n) (s'.drop n) :=
  List.forall₂_drop n alike

theorem startsWith (alike : like.Streams s s') (sign : Punctuation) :
    s.startsWith sign = s'.startsWith sign := by
  simp only [Stream.startsWith, alike.current.kind]

theorem length_eq (alike : like.Streams s s') : s.tokens.length = s'.tokens.length :=
  List.Forall₂.length_eq alike

end Streams

theorem semicolons_eq {tokens tokens' : List Token}
    (alike : List.Forall₂ like.Tokens tokens tokens') :
    Parser.semicolons tokens = Parser.semicolons tokens' := by
  unfold Parser.semicolons
  induction alike with
  | nil => rfl
  | cons first _ ih =>
    simp only [List.takeWhile_cons, ← first.kind]
    split <;> simp [ih]

/-! ### Building blocks -/

namespace Parsers

variable {rel : α → β → Prop} {rel' : γ → δ → Prop} {p : Parser α} {q : Parser β}

theorem bind {next : α → Parser γ} {next' : β → Parser δ} (alike : like.Parsers rel p q)
    (later : ∀ value value', rel value value' → like.Parsers rel' (next value) (next' value')) :
    like.Parsers rel' (p >>= next) (q >>= next') := by
  intro s s' streams
  simp only [Bind.bind]
  obtain ⟨value, value', used, isOk, isOk', related⟩ | ⟨finding, finding', used, failed, failed'⟩ :=
    (alike s s' streams).both
  · rw [isOk, isOk']
    exact (later value value' related _ _ (streams.drop used)).after used
  · rw [failed, failed']
    exact .fail finding finding' used

theorem pure {value : α} {value' : β} (related : rel value value') :
    like.Parsers rel (pure value) (pure value') :=
  fun _ _ _ => .ok related 0

theorem map {f : α → γ} {g : β → δ} (alike : like.Parsers rel p q)
    (maps : ∀ value value', rel value value' → rel' (f value) (g value')) :
    like.Parsers rel' (f <$> p) (g <$> q) :=
  alike.bind fun _ _ related => .pure (maps _ _ related)

theorem failAt (fault fault' : Fault) (span span' : Span) :
    like.Parsers rel (Parser.failAt fault span) (Parser.failAt fault' span') :=
  fun _ _ _ => .fail _ _ 0

theorem unexpected (expected : String) :
    like.Parsers rel (Parser.unexpected expected) (Parser.unexpected expected) :=
  fun _ _ _ => .fail _ _ 0

theorem peek : like.Parsers like.Tokens Parser.peek Parser.peek :=
  fun _ _ streams => .ok streams.current 0

theorem advance : like.Parsers like.Tokens Parser.advance Parser.advance := by
  intro s s' streams
  unfold Parser.advance
  rw [streams.length_eq]
  exact .ok streams.current _

theorem atSign (sign : Punctuation) :
    like.Parsers Eq (Parser.atSign sign) (Parser.atSign sign) :=
  fun _ _ streams => .ok (streams.startsWith sign) 0

theorem identifier (what : String) :
    like.Parsers like.Names (Parser.identifier what) (Parser.identifier what) := by
  intro s s' streams
  have current := streams.current
  unfold Parser.identifier
  rw [← current.kind]
  cases isKind : s.current.kind with
  | ident name =>
    have placed := current.placed (by simp [isKind]) (by simp [isKind])
    exact .ok ⟨rfl, current.named name isKind, placed⟩ 1
  | _ => exact .fail _ _ 0

theorem lineEnd : like.Parsers (fun _ _ => True) Parser.lineEnd Parser.lineEnd := by
  intro s s' streams
  have atEnd : s.tokens = [] ↔ s'.tokens = [] := by
    rw [← List.length_eq_zero_iff, streams.length_eq, List.length_eq_zero_iff]
  unfold Parser.lineEnd
  simp only [streams.startsWith, atEnd]
  split_ifs
  · exact .ok trivial 1
  · exact .ok trivial 0
  · exact .fail _ _ 0

theorem skipSemicolons :
    like.Parsers (fun _ _ => True) Parser.skipSemicolons Parser.skipSemicolons := by
  intro s s' streams
  unfold Parser.skipSemicolons
  rw [semicolons_eq streams]
  exact .ok trivial _

end Parsers

/-! ### Groups -/

theorem closeGroups {tokens tokens' : List Token} (alike : List.Forall₂ like.Tokens tokens tokens')
    {inner inner' : Spanned Delimiter} {outer outer' : List (Spanned Delimiter)}
    (same : inner.value = inner'.value) (sameOuter : outer.map (·.value) = outer'.map (·.value)) :
    Replies (fun _ _ => True) (Parser.closeGroups inner outer tokens)
      (Parser.closeGroups inner' outer' tokens') := by
  induction alike generalizing inner inner' outer outer' with
  | nil => exact .fail _ _ 0
  | @cons token token' rest rest' first later ih =>
    unfold Parser.closeGroups
    rw [← first.kind]
    cases isKind : token.kind with
    | punctuation sign =>
      cases sign with
      | opening delimiter =>
        refine Replies.after (ih ?_ ?_) 1
        · rfl
        · rw [List.map_cons, List.map_cons, same, sameOuter]
      | closing delimiter =>
        dsimp only
        rw [same]
        split_ifs
        · cases outer with
          | nil =>
            obtain rfl : outer' = [] := by simpa using sameOuter.symm
            exact .ok trivial 1
          | cons next others =>
            obtain ⟨next', others', rfl⟩ : ∃ next' others', outer' = next' :: others' := by
              cases outer' with
              | nil => simp at sameOuter
              | cons next' others' => exact ⟨next', others', rfl⟩
            obtain ⟨sameNext, sameOthers⟩ := List.cons.inj sameOuter
            exact (ih sameNext sameOthers).after 1
        · exact .fail _ _ 0
      | _ => exact (ih same sameOuter).after 1
    | _ => exact (ih same sameOuter).after 1

/-- The tokens of one group, where only the opener has been taken. -/
theorem closeGroup {tokens tokens' : List Token} (alike : List.Forall₂ like.Tokens tokens tokens')
    (delimiter : Delimiter) (span span' : Span) :
    Replies (fun _ _ => True) (Parser.closeGroups ⟨delimiter, span⟩ [] tokens)
      (Parser.closeGroups ⟨delimiter, span'⟩ [] tokens') :=
  closeGroups alike rfl rfl

theorem Parsers.group : like.Parsers (fun _ _ => True) Parser.group Parser.group := by
  rintro ⟨tokens, finish⟩ ⟨tokens', finish'⟩ streams
  cases streams with
  | nil => exact .fail _ _ 0
  | @cons token token' rest rest' first later =>
    obtain ⟨kind, span⟩ := token
    obtain ⟨kind', span'⟩ := token'
    obtain rfl : kind = kind' := first.kind
    cases kind with
    | punctuation sign =>
      cases sign with
      | opening delimiter =>
        exact ((closeGroup later delimiter span span').map fun _ _ _ => trivial).after 1
      | _ => exact .fail _ _ 0
    | _ => exact .fail _ _ 0

theorem braceAt?_isSome {tokens tokens' : List Token}
    (alike : List.Forall₂ like.Tokens tokens tokens') :
    (Parser.braceAt? tokens).isSome = (Parser.braceAt? tokens').isSome := by
  cases alike with
  | nil => rfl
  | @cons token token' rest rest' first later =>
    obtain ⟨kind, span⟩ := token
    obtain ⟨kind', span'⟩ := token'
    obtain rfl : kind = kind' := first.kind
    unfold Parser.braceAt?
    split <;> simp_all

/-- The body of a struct or interface type, and what is skipped after it. -/
theorem typeBody (stopAtBrace : Bool) {rest rest' : List Token}
    (alike : List.Forall₂ like.Tokens rest rest')
    (further : ∀ used, Replies (fun _ _ => True) (Parser.skipTail stopAtBrace (rest.drop used))
      (Parser.skipTail stopAtBrace (rest'.drop used))) :
    Replies (fun _ _ => True)
      (match Parser.braceAt? rest with
      | some span =>
        match Parser.closeGroups ⟨.brace, span⟩ [] (rest.drop 1) with
        | .ok _ used => (Parser.skipTail stopAtBrace (rest.drop (1 + used))).after (2 + used)
        | .fail finding used => .fail finding (2 + used)
      | none => (Parser.skipTail stopAtBrace rest).after 1)
      (match Parser.braceAt? rest' with
      | some span =>
        match Parser.closeGroups ⟨.brace, span⟩ [] (rest'.drop 1) with
        | .ok _ used => (Parser.skipTail stopAtBrace (rest'.drop (1 + used))).after (2 + used)
        | .fail finding used => .fail finding (2 + used)
      | none => (Parser.skipTail stopAtBrace rest').after 1) := by
  have braces := braceAt?_isSome alike
  cases brace : Parser.braceAt? rest with
  | none =>
    have noBrace : Parser.braceAt? rest' = none := by simpa [brace] using braces
    simp only [noBrace]
    exact (further 0).after 1
  | some span =>
    obtain ⟨span', brace'⟩ : ∃ span', Parser.braceAt? rest' = some span' := by
      simpa [brace, Option.isSome_iff_exists] using braces.symm
    simp only [brace']
    obtain ⟨_, _, used, isOk, isOk', -⟩ | ⟨_, _, used, failed, failed'⟩ :=
      (closeGroup (List.forall₂_drop 1 alike) .brace span span').both
    · simp only [isOk, isOk']
      exact (further (1 + used)).after (2 + used)
    · simp only [failed, failed']
      exact .fail _ _ (2 + used)

theorem skipTail (stopAtBrace : Bool) {tokens tokens' : List Token}
    (alike : List.Forall₂ like.Tokens tokens tokens') :
    Replies (fun _ _ => True) (Parser.skipTail stopAtBrace tokens)
      (Parser.skipTail stopAtBrace tokens') := by
  induction tokens, tokens', alike using forall₂_drop_induction with
  | nil =>
    rw [Parser.skipTail]
    exact .ok trivial 0
  | @cons token token' rest rest' first later further =>
    have plain := (further 0).after 1
    rw [Parser.skipTail, Parser.skipTail, ← first.kind]
    cases token.kind with
    | punctuation sign =>
      cases sign with
      | semicolon => exact .ok trivial 0
      | closing => exact .ok trivial 0
      | opening delimiter =>
        dsimp only
        split_ifs
        · exact .ok trivial 0
        obtain ⟨_, _, used, isOk, isOk', -⟩ | ⟨_, _, used, failed, failed'⟩ :=
          (closeGroup later delimiter token.span token'.span).both
        · simp only [isOk, isOk']
          exact (further used).after (1 + used)
        · simp only [failed, failed']
          exact .fail _ _ (1 + used)
      | _ => exact plain
    | keyword word =>
      cases word with
      | structKw => exact typeBody stopAtBrace later further
      | interfaceKw => exact typeBody stopAtBrace later further
      | _ => exact plain
    | _ => exact plain

theorem Parsers.tail (stopAtBrace : Bool) :
    like.Parsers (fun _ _ => True) (Parser.tail stopAtBrace) (Parser.tail stopAtBrace) :=
  fun _ _ streams => skipTail stopAtBrace streams

theorem Parsers.items {rel : α → β → Prop} {item : Parser α} {item' : Parser β}
    (alike : like.Parsers rel item item') (opener opener' : Span) :
    like.Parsers (List.Forall₂ rel) (Parser.items item opener) (Parser.items item' opener') := by
  have line : like.Parsers rel (do let value ← item; Parser.lineEnd; return value)
      (do let value ← item'; Parser.lineEnd; return value) :=
    alike.bind fun _ _ related => lineEnd.bind fun _ _ _ => .pure related
  rintro ⟨tokens, finish⟩ ⟨tokens', finish'⟩ streams
  change List.Forall₂ like.Tokens tokens tokens' at streams
  induction tokens, tokens', streams using forall₂_drop_induction with
  | nil =>
    rw [Parser.items, Parser.items]
    exact .fail _ _ 0
  | @cons token token' rest rest' first later further =>
    rw [Parser.items, Parser.items, ← first.kind]
    split_ifs
    · exact (further 0).after 1
    · exact .ok .nil 1
    · obtain ⟨_, _, used, isOk, isOk', related⟩ | ⟨_, _, used, failed, failed'⟩ :=
        (line ⟨_, finish⟩ ⟨_, finish'⟩ (.cons first later)).both
      · simp only [isOk, isOk']
        exact ((further (used - 1)).map fun _ _ others => .cons related others).after used
      · simp only [failed, failed']
        exact .fail _ _ used

theorem Parsers.oneOrMany {rel : α → β → Prop} {item : Parser α} {item' : Parser β}
    (alike : like.Parsers rel item item') :
    like.Parsers (List.Forall₂ rel) (Parser.oneOrMany item) (Parser.oneOrMany item') := by
  refine (atSign _).bind ?_
  rintro starts _ rfl
  split_ifs
  · exact advance.bind fun opener opener' _ => items alike opener.span opener'.span
  · exact alike.bind fun _ _ related => .pure (.cons related .nil)

/-! ### Declarations -/

theorem Parsers.packageClause :
    like.Parsers (fun name name' => like.Names name name' ∧ name.value ≠ "_")
      Parser.packageClause Parser.packageClause := by
  refine skipSemicolons.bind fun _ _ _ => peek.bind fun token token' first => ?_
  rw [← first.kind]
  split_ifs
  · exact failAt _ _ _ _
  refine advance.bind fun _ _ _ => peek.bind fun name name' named => ?_
  rw [← named.kind]
  cases isKind : name.kind with
  | ident text =>
    dsimp only
    split_ifs with blank
    · exact failAt _ _ _ _
    refine advance.bind fun _ _ _ => lineEnd.bind fun _ _ _ => .pure ⟨⟨rfl, ?_, ?_⟩, blank⟩
    · exact named.named text isKind
    · exact named.placed (by simp [isKind]) (by simp [isKind])
  | _ => exact failAt _ _ _ _

theorem Parsers.importPath :
    like.Parsers (fun path path' => path.value = path'.value ∧
      (path.value ≠ "" ∧ ∀ c ∈ path.value.toList, Parser.isPathChar c) ∧
        like.Placed path.span path'.span)
      Parser.importPath Parser.importPath := by
  refine peek.bind fun token token' alike => ?_
  rw [← alike.kind]
  cases isKind : token.kind with
  | string path =>
    refine advance.bind fun _ _ _ => ?_
    split_ifs with empty
    · exact failAt _ _ _ _
    cases found : path.toList.find? (!Parser.isPathChar ·) with
    | some bad => exact failAt _ _ _ _
    | none =>
      have legal : ∀ c ∈ path.toList, Parser.isPathChar c := by simpa using found
      exact .pure ⟨rfl, ⟨empty, legal⟩, alike.placed (by simp [isKind]) (by simp [isKind])⟩
  | _ => exact failAt _ _ _ _

theorem importPath_fails {s : Stream} (noString : ∀ path, s.current.kind ≠ .string path) :
    ∃ finding, Parser.importPath s = .fail finding 0 := by
  unfold Parser.importPath
  rw [Parser.peek_bind]
  cases isKind : s.current.kind with
  | string path => exact absurd isKind (noString path)
  | _ => exact ⟨_, rfl⟩

theorem Tokens.named_binding {token token' : Token} (alike : like.Tokens token token')
    {name : String} (bound : Parser.bindingOf token.kind = .named name) :
    name ≠ "_" ∧ like.Named name := by
  unfold Parser.bindingOf at bound
  split at bound
  next => simp at bound
  next text isName =>
    split_ifs at bound with blank
    obtain rfl := ImportBinding.named.inj bound
    exact ⟨blank, alike.named text isName⟩
  next => simp at bound

theorem Parsers.importSpec : like.Parsers like.Imports Parser.importSpec Parser.importSpec := by
  intro s s' streams
  have current := streams.current
  unfold Parser.importSpec
  rw [Parser.peek_bind, Parser.peek_bind, ← current.kind]
  dsimp only
  by_cases located : s.current.kind ≠ .punctuation .semicolon ∧ s.current.kind ≠ .eof
  · have placed := current.placed located.1 located.2
    have spec : like.Parsers like.Imports
        (do let path ← Parser.importPath
            return ⟨⟨path.value, Parser.bindingOf s.current.kind⟩, s.current.span.merge path.span⟩)
        (do let path ← Parser.importPath
            return ⟨⟨path.value, Parser.bindingOf s.current.kind⟩,
              s'.current.span.merge path.span⟩) := by
      refine importPath.bind fun path path' ⟨same, legal, isPlaced⟩ => .pure ⟨?_, legal, ?_, ?_⟩
      · rw [same]
      · exact fun name bound => current.named_binding bound
      · exact like.merge placed isPlaced
    split_ifs
    · exact advance.bind (fun _ _ _ => spec) s s' streams
    · exact spec s s' streams
  -- The places of semicolons are not related, but no import starts with one.
  · have noString : ∀ path, s.current.kind ≠ .string path := by
      intro path isString
      simp [isString] at located
    have isDefault : Parser.bindingOf s.current.kind = .default := by
      rw [not_and_or, not_not, not_not] at located
      rcases located with isSemicolon | isEnd
      · rw [isSemicolon]
        rfl
      · rw [isEnd]
        rfl
    obtain ⟨finding, failed⟩ := importPath_fails noString
    obtain ⟨finding', failed'⟩ : ∃ finding, Parser.importPath s' = .fail finding 0 :=
      importPath_fails (current.kind ▸ noString)
    rw [if_neg (not_not.mpr isDefault), if_neg (not_not.mpr isDefault)]
    simp only [Bind.bind, failed, failed']
    exact .fail _ _ 0

theorem Parsers.importDeclaration :
    like.Parsers (List.Forall₂ like.Imports) Parser.importDeclaration Parser.importDeclaration :=
  advance.bind fun _ _ _ => (oneOrMany importSpec).bind fun _ _ related =>
    lineEnd.bind fun _ _ _ => .pure related

theorem Parsers.receiverBase (opener opener' : Span) {base base' : Option String}
    (typed : like.Types base base') :
    like.Parsers like.Types (Parser.receiverBase opener base)
      (Parser.receiverBase opener' base') := by
  rintro ⟨tokens, finish⟩ ⟨tokens', finish'⟩ streams
  change List.Forall₂ like.Tokens tokens tokens' at streams
  induction tokens, tokens', streams using forall₂_drop_induction generalizing base base' with
  | nil =>
    rw [Parser.receiverBase, Parser.receiverBase]
    exact .fail _ _ 0
  | @cons token token' rest rest' first later further =>
    have plain := (further 0 typed).after 1
    rw [Parser.receiverBase, Parser.receiverBase, ← first.kind]
    cases isKind : token.kind with
    | ident name =>
      refine Replies.after (further 0 ⟨rfl, fun type isType => ?_⟩) 1
      rw [← Option.mem_some_iff.mp isType]
      exact first.named name isKind
    | punctuation sign =>
      cases sign with
      | semicolon => exact .fail _ _ 0
      | closing delimiter =>
        cases delimiter with
        | paren => exact .ok typed 1
        | _ => exact plain
      | opening delimiter =>
        cases delimiter with
        | paren => exact plain
        | brace => exact .fail _ _ 0
        | bracket =>
          obtain ⟨_, _, used, isOk, isOk', -⟩ | ⟨_, _, used, failed, failed'⟩ :=
            (closeGroup later .bracket token.span token'.span).both
          · simp only [isOk, isOk']
            exact (further used typed).after (1 + used)
          · simp only [failed, failed']
            exact .fail _ _ (1 + used)
      | _ => exact plain
    | _ => exact plain

theorem Parsers.receiver :
    like.Parsers (fun type type' => type = type' ∧ like.Named type)
      Parser.receiver Parser.receiver := by
  intro s s' streams
  have untyped : like.Types none none := ⟨rfl, by simp⟩
  have inside := advance.bind (fun _ _ _ => receiverBase s.current.span s'.current.span untyped)
  unfold Parser.receiver
  dsimp only
  obtain ⟨base, _, used, isOk, isOk', rfl, typed⟩ | ⟨_, _, used, failed, failed'⟩ :=
    (inside s s' streams).both
  · simp only [isOk, isOk']
    cases base with
    | none => exact .fail _ _ used
    | some type => exact .ok ⟨rfl, typed type rfl⟩ used
  · simp only [failed, failed']
    exact .fail _ _ used

theorem Parsers.signature {type type' : Option String} (typed : like.Types type type') :
    like.Parsers like.Declarations (Parser.signature type) (Parser.signature type') := by
  obtain ⟨rfl, typed⟩ := typed
  refine (identifier _).bind fun name name' named => (atSign _).bind ?_
  rintro paren _ rfl
  refine (atSign _).bind ?_
  rintro bracket _ rfl
  split_ifs
  · exact unexpected _
  refine (tail true).bind fun _ _ _ => (atSign _).bind ?_
  rintro hasBody _ rfl
  have found : like.Declarations (.func name type hasBody) (.func name' type hasBody) :=
    .func named typed hasBody
  dsimp only
  split_ifs
  · exact group.bind fun _ _ _ => .pure found
  · exact .pure found

theorem Parsers.function : like.Parsers like.Declarations Parser.function Parser.function := by
  have method : like.Parsers like.Types (some <$> Parser.receiver) (some <$> Parser.receiver) := by
    refine receiver.map ?_
    rintro base _ ⟨rfl, named⟩
    refine ⟨rfl, fun name isBase => ?_⟩
    rwa [← Option.mem_some_iff.mp isBase]
  have free : like.Parsers like.Types (Pure.pure none) (Pure.pure none) := .pure ⟨rfl, by simp⟩
  rw [Parser.function_eq]
  refine advance.bind fun _ _ _ => (atSign _).bind ?_
  rintro starts _ rfl
  dsimp only
  split_ifs
  · exact method.bind fun _ _ => signature
  · exact free.bind fun _ _ => signature

theorem Parsers.moreNames :
    like.Parsers (List.Forall₂ like.Names) Parser.moreNames Parser.moreNames := by
  rintro ⟨tokens, finish⟩ ⟨tokens', finish'⟩ streams
  change List.Forall₂ like.Tokens tokens tokens' at streams
  induction tokens, tokens', streams using forall₂_drop_induction with
  | nil =>
    rw [Parser.moreNames, Parser.moreNames]
    · exact .ok .nil 0
    · simp
    · simp
  | @cons token token' rest rest' first later further =>
    obtain ⟨kind, span⟩ := token
    obtain ⟨kind', span'⟩ := token'
    obtain rfl : kind = kind' := first.kind
    by_cases isComma : kind = .punctuation .comma
    · subst isComma
      rw [Parser.moreNames, Parser.moreNames]
      obtain ⟨_, _, used, isOk, isOk', named⟩ | ⟨_, _, used, failed, failed'⟩ :=
        (identifier "identifier" ⟨rest, finish⟩ ⟨rest', finish'⟩ later).both
      · simp only [isOk, isOk']
        exact ((further used).map fun _ _ others => .cons named others).after (1 + used)
      · simp only [failed, failed']
        exact .fail _ _ (1 + used)
    · rw [Parser.moreNames, Parser.moreNames]
      · exact .ok .nil 0
      all_goals simp [isComma]

theorem Parsers.nameList :
    like.Parsers (List.Forall₂ like.Names) Parser.nameList Parser.nameList :=
  (identifier _).bind fun _ _ named => moreNames.bind fun _ _ others => .pure (.cons named others)

theorem Parsers.groupEntry (kind : GroupKind) :
    like.Parsers (List.Forall₂ like.Names) (Parser.groupEntry kind) (Parser.groupEntry kind) := by
  have rest : ∀ {names names' : List (Spanned String)}, List.Forall₂ like.Names names names' →
      like.Parsers (List.Forall₂ like.Names)
        (do Parser.tail false
            if (← Parser.atSign (.closing .bracket)) || (← Parser.atSign (.closing .brace)) then
              Parser.unexpected "';' or newline"
            else return names)
        (do Parser.tail false
            if (← Parser.atSign (.closing .bracket)) || (← Parser.atSign (.closing .brace)) then
              Parser.unexpected "';' or newline"
            else return names') := by
    intro names names' named
    refine (tail false).bind fun _ _ _ => (atSign _).bind ?_
    rintro bracket _ rfl
    refine (atSign _).bind ?_
    rintro brace _ rfl
    split_ifs
    · exact unexpected _
    · exact .pure named
  unfold Parser.groupEntry
  dsimp only
  split_ifs
  · exact ((identifier _).map fun _ _ named => .cons named .nil).bind fun _ _ => rest
  · exact nameList.bind fun _ _ => rest

theorem Parsers.nameGroup (kind : GroupKind) :
    like.Parsers like.Declarations (Parser.nameGroup kind) (Parser.nameGroup kind) :=
  advance.bind fun _ _ _ => (oneOrMany (groupEntry kind)).bind fun _ _ entries =>
    .pure (.group kind (List.rel_flatten entries))

theorem Parsers.declarationOf (word : Keyword) :
    like.Parsers like.Declarations (Parser.declarationOf word) (Parser.declarationOf word) := by
  cases word with
  | funcKw => exact function
  | varKw => exact nameGroup .var
  | constKw => exact nameGroup .const
  | typeKw => exact nameGroup .type
  | _ => exact unexpected _

theorem Parsers.declaration :
    like.Parsers (fun d d' => like.Declarations d.value d'.value)
      Parser.declaration Parser.declaration := by
  intro s s' streams
  unfold Parser.declaration
  rw [← streams.current.kind]
  cases s.current.kind with
  | keyword word =>
    dsimp only
    obtain ⟨_, _, used, isOk, isOk', related⟩ | ⟨_, _, used, failed, failed'⟩ :=
      (declarationOf word s s' streams).both
    · simp only [isOk, isOk']
      refine Replies.after (Replies.map (lineEnd _ _ (streams.drop used)) ?_) used
      exact fun _ _ _ => related
    · simp only [failed, failed']
      exact .fail _ _ used
  | _ => exact .fail _ _ 0

/-! ### Files -/

theorem recovery_eq {tokens tokens' : List Token}
    (alike : List.Forall₂ like.Tokens tokens tokens') (depth : Nat) :
    Parser.recovery depth tokens = Parser.recovery depth tokens' := by
  induction alike generalizing depth with
  | nil => rfl
  | @cons token token' rest rest' first later ih =>
    have declares : Parser.recovery.declares rest = Parser.recovery.declares rest' := by
      cases later with
      | nil => rfl
      | @cons next next' _ _ same _ =>
        obtain ⟨kind, span⟩ := next
        obtain ⟨kind', span'⟩ := next'
        obtain rfl : kind = kind' := same.kind
        cases kind <;> rfl
    simp only [Parser.recovery, ← first.kind, declares, ih]

structure ImportSections (found found' : Parser.ImportSection) : Prop where
  imports : List.Forall₂ like.Imports found.imports found'.imports
  findings : found.findings.length = found'.findings.length
  rest : List.Forall₂ like.Tokens found.rest found'.rest

theorem importSection {tokens tokens' : List Token} (finish finish' : Span)
    (alike : List.Forall₂ like.Tokens tokens tokens') :
    like.ImportSections (Parser.importSection finish tokens)
      (Parser.importSection finish' tokens') := by
  induction tokens, tokens', alike using forall₂_drop_induction with
  | nil =>
    rw [Parser.importSection, Parser.importSection]
    exact ⟨.nil, rfl, .nil⟩
  | @cons token token' rest rest' first later further =>
    rw [Parser.importSection, Parser.importSection, ← first.kind]
    split_ifs
    · exact further 0
    · obtain ⟨_, _, used, isOk, isOk', related⟩ | ⟨_, _, used, failed, failed'⟩ :=
        (Parsers.importDeclaration ⟨_, finish⟩ ⟨_, finish'⟩ (.cons first later)).both
      · simp only [isOk, isOk']
        obtain ⟨imports, findings, rest⟩ := further (used - 1)
        exact ⟨List.rel_append related imports, findings, rest⟩
      · have dropped := List.forall₂_drop (used - 1) later
        simp only [failed, failed', recovery_eq dropped, List.drop_drop]
        obtain ⟨imports, findings, rest⟩ := further _
        exact ⟨imports, congrArg (· + 1) findings, rest⟩
    · exact ⟨.nil, rfl, .cons first later⟩

structure DeclarationSections (found found' : Parser.DeclarationSection) : Prop where
  declarations : List.Forall₂ (fun d d' => like.Declarations d.value d'.value)
    found.declarations found'.declarations
  findings : found.findings.length = found'.findings.length

theorem declarationSection {tokens tokens' : List Token} (finish finish' : Span)
    (alike : List.Forall₂ like.Tokens tokens tokens') :
    like.DeclarationSections (Parser.declarationSection finish tokens)
      (Parser.declarationSection finish' tokens') := by
  induction tokens, tokens', alike using forall₂_drop_induction with
  | nil =>
    rw [Parser.declarationSection, Parser.declarationSection]
    exact ⟨.nil, rfl⟩
  | @cons token token' rest rest' first later further =>
    have whole : List.Forall₂ like.Tokens (token :: rest) (token' :: rest') := .cons first later
    rw [Parser.declarationSection, Parser.declarationSection, ← first.kind]
    split_ifs
    · exact further 0
    · have dropped := List.forall₂_drop 0 whole
      simp only [recovery_eq dropped]
      obtain ⟨declarations, findings⟩ := further _
      exact ⟨declarations, congrArg (· + 1) findings⟩
    · obtain ⟨_, _, used, isOk, isOk', related⟩ | ⟨_, _, used, failed, failed'⟩ :=
        (Parsers.declaration ⟨_, finish⟩ ⟨_, finish'⟩ whole).both
      · simp only [isOk, isOk']
        obtain ⟨declarations, findings⟩ := further (used - 1)
        exact ⟨.cons related declarations, findings⟩
      · have dropped := List.forall₂_drop used whole
        simp only [failed, failed', recovery_eq dropped]
        obtain ⟨declarations, findings⟩ := further _
        exact ⟨declarations, congrArg (· + 1) findings⟩

/-- Both files are refused, or both have like outlines. -/
inductive Outlines :
    Except (List Finding) SourceFile → Except (List Finding) SourceFile → Prop where
  | ok {file file' : SourceFile} (alike : like.Files file file') : Outlines (.ok file) (.ok file')
  | error (faults faults' : List Finding) : Outlines (.error faults) (.error faults')

theorem Outlines.both {answer answer' : Except (List Finding) SourceFile}
    (outlines : like.Outlines answer answer') :
    (∃ file file', answer = .ok file ∧ answer' = .ok file' ∧ like.Files file file') ∨
      ∃ faults faults', answer = .error faults ∧ answer' = .error faults' := by
  cases outlines with
  | ok alike => exact .inl ⟨_, _, rfl, rfl, alike⟩
  | error faults faults' => exact .inr ⟨faults, faults', rfl, rfl⟩

theorem parseStream {s s' : Stream} (streams : like.Streams s s') (lines lines' : LineIndex) :
    like.Outlines (Parser.parseStream s lines) (Parser.parseStream s' lines') := by
  unfold Parser.parseStream
  obtain ⟨_, _, used, isOk, isOk', package, notBlank⟩ | ⟨_, _, used, failed, failed'⟩ :=
    (Parsers.packageClause s s' streams).both
  swap
  · simp only [failed, failed']
    exact .error _ _
  simp only [isOk, isOk']
  have later : List.Forall₂ like.Tokens (s.tokens.drop used) (s'.tokens.drop used) :=
    streams.drop used
  obtain ⟨imports, importFindings, rest⟩ := importSection s.finish s'.finish later
  obtain ⟨declarations, findings⟩ := declarationSection s.finish s'.finish rest
  have lengths := congrArg₂ (· + ·) importFindings findings
  simp only [← List.length_append] at lengths
  split
  next clean =>
    rw [clean, List.length_nil, eq_comm, List.length_eq_zero_iff] at lengths
    rw [lengths]
    exact .ok ⟨package, notBlank, imports, declarations⟩
  next faulty =>
    split
    next clean =>
      rw [clean, List.length_nil, List.length_eq_zero_iff] at lengths
      exact absurd lengths faulty
    next => exact .error _ _

theorem ofTokens {tokens tokens' : List Token} (alike : List.Forall₂ like.Tokens tokens tokens') :
    like.Streams (.ofTokens tokens) (.ofTokens tokens') := by
  rw [Streams, Stream.tokens_eq_takeWhile, Stream.tokens_eq_takeWhile]
  induction alike with
  | nil => exact .nil
  | cons first _ ih =>
    simp only [List.takeWhile_cons, ← first.kind]
    split
    · exact .cons first ih
    · exact .nil

/-- Files whose tokens are alike are both refused or have like outlines. -/
theorem parse {tokens tokens' : List Token} (alike : List.Forall₂ like.Tokens tokens tokens')
    (lines lines' : LineIndex) :
    like.Outlines (Parser.parse tokens lines) (Parser.parse tokens' lines') :=
  parseStream (ofTokens alike) lines lines'

end Likeness

end GoFront
