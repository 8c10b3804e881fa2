import GoFront.Parser.Group
import GoFront.Proofs.Parser.Nested
import Mathlib.Data.List.TakeWhile

/-!
What the building blocks of the grammar take from the token stream. All of it is nested: single
tokens, skipped groups and tails, and parenthesised lists of items.
-/
namespace GoFront

/-- The kinds of the first `n` tokens. -/
def taken (tokens : List Token) (n : Nat) : List TokenKind := (tokens.take n).map (·.kind)

@[simp] theorem taken_zero (tokens : List Token) : taken tokens 0 = [] := rfl

@[simp] theorem taken_cons (token : Token) (rest : List Token) (n : Nat) :
    taken (token :: rest) (1 + n) = token.kind :: taken rest n := by
  simp [taken, Nat.add_comm 1 n]

theorem taken_add (tokens : List Token) (m n : Nat) :
    taken tokens (m + n) = taken tokens m ++ taken (tokens.drop m) n := by
  simp [taken, List.take_add]

theorem map_kind_eq (tokens : List Token) (n : Nat) :
    tokens.map (·.kind) = taken tokens n ++ (tokens.drop n).map (·.kind) := by
  rw [taken, ← List.map_append, List.take_append_drop]

theorem Stream.tokens_eq_takeWhile (tokens : List Token) :
    (Stream.ofTokens tokens).tokens = tokens.takeWhile (·.kind ≠ .eof) := by
  unfold Stream.ofTokens
  dsimp only
  split <;> rfl

theorem Stream.tokens_eq {s : Stream} (notEnd : s.current.kind ≠ .eof) :
    s.tokens = s.current :: (s.drop 1).tokens := by
  obtain ⟨tokens, finish⟩ := s
  cases tokens with
  | nil => exact absurd rfl notEnd
  | cons token rest => rfl

theorem Stream.taken_one {s : Stream} {kind : TokenKind} (isKind : s.current.kind = kind)
    (notEnd : kind ≠ .eof) : taken s.tokens 1 = [kind] := by
  subst isKind
  rw [s.tokens_eq notEnd, ← Nat.add_zero 1, taken_cons, taken_zero]

namespace Reply

variable {α β : Type}

theorem after_eq_ok {reply : Reply α} {value : α} {m n : Nat} :
    reply.after m = .ok value n ↔ ∃ k, reply = .ok value k ∧ n = m + k := by
  cases reply <;> simp [after, eq_comm]

theorem after_zero (reply : Reply α) : reply.after 0 = reply := by
  cases reply <;> simp [after]

theorem map_eq_ok {f : α → β} {reply : Reply α} {value : β} {n : Nat} :
    reply.map f = .ok value n ↔ ∃ found, reply = .ok found n ∧ f found = value := by
  cases reply <;> simp [map, and_comm]

end Reply

namespace Parser

variable {α β : Type}

theorem bind_eq_ok {p : Parser α} {next : α → Parser β} {s : Stream} {value : β} {n : Nat} :
    (p >>= next) s = .ok value n ↔
      ∃ found m k, p s = .ok found m ∧ next found (s.drop m) = .ok value k ∧ n = m + k := by
  cases parsed : p s with
  | ok found used => simp [Bind.bind, parsed, Reply.after_eq_ok]
  | fail finding used => simp [Bind.bind, parsed]

theorem pure_eq_ok {found value : α} {s : Stream} {n : Nat} :
    (pure found : Parser α) s = .ok value n ↔ found = value ∧ n = 0 := by
  change Reply.ok found 0 = .ok value n ↔ _
  simp [eq_comm]

theorem map_eq_ok {f : α → β} {p : Parser α} {s : Stream} {value : β} {n : Nat} :
    (f <$> p) s = .ok value n ↔ ∃ found, p s = .ok found n ∧ f found = value := by
  change (p >>= fun found => pure (f found)) s = .ok value n ↔ _
  simp only [bind_eq_ok, pure_eq_ok]
  constructor
  · rintro ⟨found, m, k, parsed, ⟨rfl, rfl⟩, rfl⟩
    exact ⟨found, parsed, rfl⟩
  · rintro ⟨found, parsed, rfl⟩
    exact ⟨found, n, 0, parsed, ⟨rfl, rfl⟩, rfl⟩

theorem peek_bind (next : Token → Parser α) (s : Stream) :
    (peek >>= next) s = next s.current s := by
  change (next s.current (s.drop 0)).after 0 = _
  exact Reply.after_zero _

theorem advance_bind_eq_ok {next : Token → Parser α} {s : Stream} {kind : TokenKind} {value : α}
    {n : Nat} (parsed : (advance >>= next) s = .ok value n) (isKind : s.current.kind = kind)
    (notEnd : kind ≠ .eof) :
    ∃ k, next s.current (s.drop 1) = .ok value k ∧ n = 1 + k ∧
      taken s.tokens n = kind :: taken (s.drop 1).tokens k := by
  subst isKind
  have one : min 1 s.tokens.length = 1 := by simp [s.tokens_eq notEnd]
  obtain ⟨_, _, k, advanced, later, rfl⟩ := bind_eq_ok.mp parsed
  obtain ⟨rfl, rfl⟩ := (Reply.ok.injEq ..).mp advanced
  rw [one] at later ⊢
  refine ⟨k, later, rfl, ?_⟩
  rw [s.tokens_eq notEnd, taken_cons]

theorem atSign_bind (sign : Punctuation) (next : Bool → Parser α) (s : Stream) :
    (atSign sign >>= next) s = next (s.startsWith sign) s := by
  change (next (s.startsWith sign) (s.drop 0)).after 0 = _
  exact Reply.after_zero _

/-- Whatever the parser takes is nested. -/
def Neat (p : Parser α) : Prop :=
  ∀ s value n, p s = .ok value n → Nested (taken s.tokens n)

namespace Neat

theorem bind {p : Parser α} {next : α → Parser β} (neat : Neat p)
    (later : ∀ found, Neat (next found)) : Neat (p >>= next) := by
  intro s value n parsed
  obtain ⟨found, m, k, first, second, rfl⟩ := bind_eq_ok.mp parsed
  rw [taken_add]
  exact (neat s found m first).append (later found _ value k second)

theorem pure (value : α) : Neat (pure value) := by
  intro s found n parsed
  obtain ⟨-, rfl⟩ := pure_eq_ok.mp parsed
  exact .nil

end Neat

/-! ### Single tokens -/

theorem kind_of_startsWith {s : Stream} {sign : Punctuation} (starts : s.startsWith sign = true) :
    s.current.kind = .punctuation sign := by
  simpa [Stream.startsWith] using starts

theorem failAt_ne_ok {fault : Fault} {span : Span} {s : Stream} {value : α} {n : Nat} :
    failAt fault span s ≠ .ok value n := by
  simp [failAt]

theorem unexpected_ne_ok {expected : String} {s : Stream} {value : α} {n : Nat} :
    unexpected expected s ≠ .ok value n := by
  simp [unexpected]

theorem unexpected_neat (expected : String) : Neat (unexpected expected : Parser α) :=
  fun _ _ _ parsed => absurd parsed unexpected_ne_ok

theorem atSign_neat (sign : Punctuation) : Neat (atSign sign) := by
  intro s value n parsed
  obtain ⟨-, rfl⟩ := (Reply.ok.injEq ..).mp parsed
  exact .nil

theorem identifier_neat (what : String) : Neat (identifier what) := by
  intro s value n parsed
  unfold identifier at parsed
  split at parsed
  next name isIdent =>
    obtain ⟨-, rfl⟩ := (Reply.ok.injEq ..).mp parsed
    rw [s.taken_one isIdent (by simp)]
    exact .plain rfl .nil
  next => exact absurd parsed unexpected_ne_ok

theorem lineEnd_neat : Neat lineEnd := by
  intro s value n parsed
  unfold lineEnd at parsed
  split_ifs at parsed with semicolon missing
  · obtain ⟨-, rfl⟩ := (Reply.ok.injEq ..).mp parsed
    rw [s.taken_one (kind_of_startsWith semicolon) (by simp)]
    exact .plain rfl .nil
  · obtain ⟨-, rfl⟩ := (Reply.ok.injEq ..).mp parsed
    exact .nil
  · exact absurd parsed unexpected_ne_ok

theorem skipSemicolons_neat : Neat skipSemicolons := by
  intro s value n parsed
  obtain ⟨-, rfl⟩ := (Reply.ok.injEq ..).mp parsed
  have front := List.takeWhile_prefix (l := s.tokens) (·.kind = .punctuation .semicolon)
  rw [taken, semicolons, ← List.prefix_iff_eq_take.mp front]
  apply Nested.of_plain
  intro kind mem
  obtain ⟨token, isTaken, rfl⟩ := List.mem_map.mp mem
  have isSemicolon : token.kind = .punctuation .semicolon := by
    simpa using List.mem_takeWhile_imp isTaken
  rw [isSemicolon]
  rfl

/-! ### Groups -/

theorem closes_of_closeGroups {inner : Spanned Delimiter} {outer : List (Spanned Delimiter)}
    {tokens : List Token} {span : Span} {n : Nat}
    (closed : closeGroups inner outer tokens = .ok span n) :
    Closes (inner.value :: outer.map (·.value)) (taken tokens n) := by
  induction tokens generalizing inner outer n with
  | nil => simp [closeGroups] at closed
  | cons token rest ih =>
    unfold closeGroups at closed
    split at closed
    next delimiter isOpening =>
      obtain ⟨k, later, rfl⟩ := Reply.after_eq_ok.mp closed
      rw [taken_cons, isOpening]
      exact .opening (ih later)
    next delimiter isClosing =>
      split_ifs at closed with same
      subst same
      split at closed
      next =>
        obtain ⟨-, rfl⟩ := (Reply.ok.injEq ..).mp closed
        rw [← Nat.add_zero 1, taken_cons, isClosing]
        exact .closing _ rfl
      next next others =>
        obtain ⟨k, later, rfl⟩ := Reply.after_eq_ok.mp closed
        rw [taken_cons, isClosing]
        exact .closing _ (ih later)
    next noOpening noClosing =>
      obtain ⟨k, later, rfl⟩ := Reply.after_eq_ok.mp closed
      rw [taken_cons]
      exact .plain (TokenKind.isDelimiter_eq_false noOpening noClosing) (ih later)

theorem group_neat : Neat group := by
  rintro ⟨tokens, finish⟩ value n parsed
  unfold group at parsed
  split at parsed
  next delimiter span rest isGroup =>
    obtain rfl : tokens = _ := isGroup
    obtain ⟨k, mapped, rfl⟩ := Reply.after_eq_ok.mp parsed
    obtain ⟨found, closed, -⟩ := Reply.map_eq_ok.mp mapped
    rw [taken_cons]
    exact (closes_of_closeGroups closed).group
  next => exact absurd parsed unexpected_ne_ok

theorem braceAt?_eq_some {tokens : List Token} {span : Span} (brace : braceAt? tokens = some span) :
    ∃ rest, tokens = ⟨.punctuation (.opening .brace), span⟩ :: rest := by
  unfold braceAt? at brace
  split at brace
  next rest => exact ⟨rest, by simp_all⟩
  next => simp at brace

/-- A group behind a token that is no delimiter, as a struct or interface type is written. -/
theorem nested_type {token : Token} {rest : List Token} {span found : Span} {used : Nat}
    (isPlain : token.kind.isDelimiter = false) (brace : braceAt? rest = some span)
    (closed : closeGroups ⟨.brace, span⟩ [] (rest.drop 1) = .ok found used) :
    Nested (taken (token :: rest) (2 + used)) := by
  obtain ⟨inside, rfl⟩ := braceAt?_eq_some brace
  rw [show 2 + used = 1 + (1 + used) by omega, taken_cons, taken_cons]
  exact .plain isPlain (closes_of_closeGroups closed).group

theorem nested_skipTail (stopAtBrace : Bool) (tokens : List Token) :
    ∀ n, skipTail stopAtBrace tokens = .ok () n → Nested (taken tokens n) := by
  have nothing : ∀ {tokens n}, Reply.ok () 0 = Reply.ok () n → Nested (taken tokens n) := by
    rintro tokens n skipped
    obtain ⟨-, rfl⟩ := (Reply.ok.injEq ..).mp skipped
    exact .nil
  have onePlain : ∀ {token rest}, token.kind.isDelimiter = false →
      (∀ n, skipTail stopAtBrace rest = .ok () n → Nested (taken rest n)) →
      ∀ n, (skipTail stopAtBrace rest).after 1 = .ok () n → Nested (taken (token :: rest) n) := by
    intro token rest isPlain ih n skipped
    obtain ⟨k, later, rfl⟩ := Reply.after_eq_ok.mp skipped
    exact taken_cons token rest k ▸ .plain isPlain (ih k later)
  have typeBody : ∀ {token rest span found used}, token.kind.isDelimiter = false →
      braceAt? rest = some span →
      closeGroups ⟨.brace, span⟩ [] (rest.drop 1) = .ok found used →
      (∀ n, skipTail stopAtBrace (rest.drop (1 + used)) = .ok () n →
        Nested (taken (rest.drop (1 + used)) n)) →
      ∀ n, (skipTail stopAtBrace (rest.drop (1 + used))).after (2 + used) = .ok () n →
        Nested (taken (token :: rest) n) := by
    intro token rest span found used isPlain brace closed ih n skipped
    obtain ⟨k, later, rfl⟩ := Reply.after_eq_ok.mp skipped
    rw [taken_add]
    refine (nested_type isPlain brace closed).append ?_
    rw [show 2 + used = (1 + used) + 1 by omega, List.drop_succ_cons]
    exact ih k later
  fun_induction skipTail stopAtBrace tokens with
  | case5 token rest delimiter isOpening _ found used closed ih =>
    intro n skipped
    obtain ⟨k, later, rfl⟩ := Reply.after_eq_ok.mp skipped
    rw [taken_add, taken_cons, isOpening, Nat.add_comm, List.drop_succ_cons]
    exact (closes_of_closeGroups closed).group.append (ih k later)
  | case7 token rest isStruct span brace found used closed ih =>
    exact typeBody (by rw [isStruct]; rfl) brace closed ih
  | case9 token rest isStruct _ ih => exact onePlain (by rw [isStruct]; rfl) ih
  | case10 token rest isInterface span brace found used closed ih =>
    exact typeBody (by rw [isInterface]; rfl) brace closed ih
  | case12 token rest isInterface _ ih => exact onePlain (by rw [isInterface]; rfl) ih
  | case13 token rest _ noClosing noOpening _ _ ih =>
    exact onePlain (TokenKind.isDelimiter_eq_false noOpening noClosing) ih
  | case6 => simp
  | case8 => simp
  | case11 => simp
  | _ => exact fun n => nothing

theorem tail_neat (stopAtBrace : Bool) : Neat (tail stopAtBrace) :=
  fun s _ n parsed => nested_skipTail stopAtBrace s.tokens n parsed

/-! ### Lists of items -/

/-- The parser takes something, and that is nested. -/
def IsItem (item : Parser α) : Prop :=
  ∀ s value n, item s = .ok value n → Nested (taken s.tokens n) ∧ 0 < n

theorem IsItem.neat {item : Parser α} (isItem : IsItem item) : Neat item :=
  fun s value n parsed => (isItem s value n parsed).1

theorem IsItem.bind {item : Parser α} {next : α → Parser β} (isItem : IsItem item)
    (neat : ∀ found, Neat (next found)) : IsItem (item >>= next) := by
  intro s value n parsed
  refine ⟨isItem.neat.bind neat s value n parsed, ?_⟩
  obtain ⟨found, m, k, first, -, rfl⟩ := bind_eq_ok.mp parsed
  exact Nat.add_pos_left (isItem s found m first).2 k

theorem IsItem.map {item : Parser α} (isItem : IsItem item) (f : α → β) : IsItem (f <$> item) := by
  intro s value n parsed
  obtain ⟨found, first, -⟩ := map_eq_ok.mp parsed
  exact isItem s found n first

theorem drop_pred {n : Nat} (positive : 0 < n) (token : Token) (rest : List Token) :
    rest.drop (n - 1) = (token :: rest).drop n := by
  obtain ⟨k, rfl⟩ := Nat.exists_eq_succ_of_ne_zero positive.ne'
  rfl

theorem closes_items {item : Parser α} (isItem : IsItem item) (opener : Span) (s : Stream) :
    ∀ values n, items item opener s = .ok values n → Closes [.paren] (taken s.tokens n) := by
  have isLine := isItem.bind fun value => lineEnd_neat.bind fun _ => .pure value
  fun_induction items item opener s with
  | case1 => simp
  | case2 token rest finish isSemicolon ih =>
    intro values n parsed
    obtain ⟨k, later, rfl⟩ := Reply.after_eq_ok.mp parsed
    rw [taken_cons, isSemicolon]
    exact .plain rfl (ih values k later)
  | case3 token rest finish _ isClosing =>
    intro values n parsed
    obtain ⟨-, rfl⟩ := (Reply.ok.injEq ..).mp parsed
    rw [← Nat.add_zero 1, taken_cons, isClosing]
    exact .closing .paren rfl
  | case4 token rest finish _ _ value used first ih =>
    intro values n parsed
    obtain ⟨k, mapped, rfl⟩ := Reply.after_eq_ok.mp parsed
    obtain ⟨found, later, -⟩ := Reply.map_eq_ok.mp mapped
    obtain ⟨nested, positive⟩ := isLine _ _ _ first
    rw [taken_add, ← drop_pred positive]
    exact .append nested (ih found k later)
  | case5 => simp

theorem oneOrMany_neat {item : Parser α} (isItem : IsItem item) : Neat (oneOrMany item) := by
  intro s values n parsed
  unfold oneOrMany at parsed
  rw [atSign_bind] at parsed
  split at parsed
  next starts =>
    obtain ⟨k, parsedItems, -, isTaken⟩ :=
      advance_bind_eq_ok parsed (kind_of_startsWith starts) (by simp)
    rw [isTaken]
    exact (closes_items isItem _ _ values k parsedItems).group
  next => exact isItem.neat.bind (fun value => .pure [value]) s values n parsed

end Parser

end GoFront
