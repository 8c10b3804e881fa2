import GoFront.Proofs.Parser.Grammar

/-!
Function declarations in full. `FunctionForm` is a declaration as it is written: a receiver with a
name and stars before its type, the signature, and a body. The parser takes every such form up to
the semicolon behind it; braces of struct and interface types are not taken for the body, nor the
type parameters of a receiver for its type.
-/
namespace GoFront

/-! ### The forms -/

/-- A delimited group with nested tokens in it. -/
structure Enclosure (delimiter : Delimiter) where
  opener : Span
  closer : Span
  inside : List Token
  within : Nested (inside.map (·.kind))
  noEnd : ∀ token ∈ inside, token.kind ≠ .eof

namespace Enclosure

variable {delimiter : Delimiter}

def tokens (group : Enclosure delimiter) : List Token :=
  .sign (.opening delimiter) group.opener ::
    (group.inside ++ [.sign (.closing delimiter) group.closer])

theorem noEnd_tokens (group : Enclosure delimiter) : ∀ token ∈ group.tokens, token.kind ≠ .eof := by
  intro token mem
  simp only [tokens, List.mem_cons, List.mem_append, List.not_mem_nil, or_false] at mem
  rcases mem with rfl | inside | rfl
  · simp
  · exact group.noEnd token inside
  · simp

end Enclosure

/-- The receiver `([name] *... Type [[parameters]])` of a method. -/
structure ReceiverForm where
  opener : Span
  closer : Span
  binder : Option (Spanned String)
  stars : List Span
  base : Spanned String
  parameters : Option (Enclosure .bracket)

namespace ReceiverForm

def inside (r : ReceiverForm) : List Token :=
  r.binder.toList.map (·.token) ++ (r.stars.map (⟨.operator .star, ·⟩) ++
    r.base.token :: r.parameters.elim [] (·.tokens))

def tokens (r : ReceiverForm) : List Token :=
  .sign (.opening .paren) r.opener :: (r.inside ++ [.sign (.closing .paren) r.closer])

theorem noEnd_tokens (r : ReceiverForm) : ∀ token ∈ r.tokens, token.kind ≠ .eof := by
  have parameters : ∀ token ∈ r.parameters.elim [] (·.tokens), token.kind ≠ .eof := by
    cases r.parameters with
    | none => simp
    | some group => exact group.noEnd_tokens
  intro token mem
  simp only [tokens, inside, List.mem_cons, List.mem_append, List.mem_map, List.not_mem_nil,
    or_false] at mem
  rcases mem with rfl | (⟨name, -, rfl⟩ | ⟨star, -, rfl⟩ | rfl | bracketed) | rfl
  · simp
  · simp [Spanned.token]
  · simp
  · simp [Spanned.token]
  · exact parameters token bracketed
  · simp

/-- The last identifier outside of brackets is the base type. -/
theorem typed (r : ReceiverForm) : ReceiverType r.inside (some r.base.value) := by
  have parameters : ReceiverType (r.parameters.elim [] (·.tokens)) none := by
    cases r.parameters with
    | none => exact .nil
    | some group => exact .brackets group.opener group.closer group.within .nil
  have base := ReceiverType.name r.base parameters
  have stars : ∀ spans : List Span, ReceiverType
      (spans.map (⟨.operator .star, ·⟩) ++ r.base.token :: r.parameters.elim [] (·.tokens))
      (some r.base.value) := by
    intro spans
    induction spans with
    | nil => exact base
    | cons span spans ih => exact .plain rfl (by simp) (by simp) ih
  rw [inside]
  cases r.binder with
  | none => exact stars r.stars
  | some name => exact .name name (stars r.stars)

theorem received (r : ReceiverForm) : Receiver r.tokens (some r.base.value) :=
  .some r.opener r.closer r.typed

end ReceiverForm

/-- The declaration `func [receiver] name signature [body]`. -/
structure FunctionForm where
  word : Span
  receiver : Option ReceiverForm
  name : Spanned String
  signature : List Token
  signed : Signature signature
  noEnd : ∀ token ∈ signature, token.kind ≠ .eof
  body : Option (Enclosure .brace)

namespace FunctionForm

def tokens (f : FunctionForm) : List Token :=
  ⟨.keyword .funcKw, f.word⟩ :: (f.receiver.elim [] (·.tokens) ++
    f.name.token :: (f.signature ++ f.body.elim [] (·.tokens)))

theorem received (f : FunctionForm) :
    Receiver (f.receiver.elim [] (·.tokens)) (f.receiver.map (·.base.value)) := by
  cases f.receiver with
  | none => exact .none
  | some r => exact r.received

theorem bodied (f : FunctionForm) : Body (f.body.elim [] (·.tokens)) f.body.isSome := by
  cases f.body with
  | none => exact .none
  | some group => exact .braces group.opener group.closer group.within

theorem noEnd_tokens (f : FunctionForm) : ∀ token ∈ f.tokens, token.kind ≠ .eof := by
  have receiver : ∀ token ∈ f.receiver.elim [] (·.tokens), token.kind ≠ .eof := by
    cases f.receiver with
    | none => simp
    | some r => exact r.noEnd_tokens
  have body : ∀ token ∈ f.body.elim [] (·.tokens), token.kind ≠ .eof := by
    cases f.body with
    | none => simp
    | some group => exact group.noEnd_tokens
  intro token mem
  simp only [tokens, List.mem_cons, List.mem_append] at mem
  rcases mem with rfl | received | rfl | signed | bodied
  · simp
  · exact receiver token received
  · simp [Spanned.token]
  · exact f.noEnd token signed
  · exact body token bodied

end FunctionForm

/-! ### Taking them -/

/-- Tokens that do not end the file stand in the stream in front of those behind them. -/
theorem Stream.ofTokens_front {front : List Token} (noEnd : ∀ token ∈ front, token.kind ≠ .eof)
    (next : Token) (rest : List Token) :
    Stream.ofTokens (front ++ next :: rest) =
      ⟨front ++ (Stream.ofTokens (next :: rest)).tokens,
        (Stream.ofTokens (next :: rest)).finish⟩ := by
  have before : (front ++ next :: rest).takeWhile (·.kind ≠ .eof) =
      front ++ (next :: rest).takeWhile (·.kind ≠ .eof) :=
    List.takeWhile_append_of_pos (by simpa using noEnd)
  have last : (front ++ next :: rest).getLast? = (next :: rest).getLast? :=
    List.getLast?_append_cons ..
  simp only [Stream.ofTokens, before, last, List.length_append, List.drop_length_add_append]
  cases (next :: rest).drop ((next :: rest).takeWhile (·.kind ≠ .eof)).length <;> rfl

namespace Parser

/-- The parser takes a function declaration in full and stops at the semicolon behind it. It gives
the name where it stands, the base type of the receiver, and whether there is a body. -/
theorem function_form (f : FunctionForm) (stop : Span) (rest : List Token) :
    function (.ofTokens (f.tokens ++ .sign .semicolon stop :: rest)) =
        .ok (.func f.name (f.receiver.map (·.base.value)) f.body.isSome) f.tokens.length ∧
      (Stream.ofTokens (f.tokens ++ .sign .semicolon stop :: rest)).drop f.tokens.length =
        .ofTokens (.sign .semicolon stop :: rest) := by
  have later : (Stream.ofTokens (.sign .semicolon stop :: rest)).tokens =
      .sign .semicolon stop :: rest.takeWhile (·.kind ≠ .eof) := by
    rw [Stream.tokens_eq_takeWhile, List.takeWhile_cons_of_pos (by simp)]
  rw [Stream.ofTokens_front f.noEnd_tokens]
  refine ⟨?_, by simp [Stream.drop]⟩
  obtain ⟨taken, split, isOk⟩ : Takes function
      (f.tokens ++ (Stream.ofTokens (.sign .semicolon stop :: rest)).tokens) _ _ := by
    simp only [later, FunctionForm.tokens, List.cons_append, List.append_assoc]
    exact Takes.function f.word f.name f.received f.signed f.bodied stop
  rw [later] at split
  rw [isOk, List.append_cancel_right split]

/-- The form `func (s *T[K]) m(x K) struct{ n int } { f() }`. -/
def structResult : FunctionForm where
  word := ⟨0, 4⟩
  receiver := some ⟨⟨5, 6⟩, ⟨13, 14⟩, some ⟨"s", ⟨6, 7⟩⟩, [⟨8, 9⟩], ⟨"T", ⟨9, 10⟩⟩,
    some ⟨⟨10, 11⟩, ⟨12, 13⟩, [⟨.ident "K", ⟨11, 12⟩⟩], by decide, by decide⟩⟩
  name := ⟨"m", ⟨15, 16⟩⟩
  signature := .sign (.opening .paren) ⟨16, 17⟩ ::
    ([⟨.ident "x", ⟨17, 18⟩⟩, ⟨.ident "K", ⟨19, 20⟩⟩] ++ .sign (.closing .paren) ⟨20, 21⟩ ::
      ⟨.keyword .structKw, ⟨22, 28⟩⟩ :: .sign (.opening .brace) ⟨28, 29⟩ ::
        ([⟨.ident "n", ⟨30, 31⟩⟩, ⟨.ident "int", ⟨32, 35⟩⟩] ++
          [.sign (.closing .brace) ⟨36, 37⟩]))
  signed := .parameters (by decide) _ _ (by decide) (.type (.inl rfl) _ _ _ (by decide) .nil)
  noEnd := by decide
  body := some ⟨⟨38, 39⟩, ⟨44, 45⟩, [⟨.ident "f", ⟨40, 41⟩⟩, .sign (.opening .paren) ⟨41, 42⟩,
    .sign (.closing .paren) ⟨42, 43⟩], by decide, by decide⟩

/-- The first pair of braces belongs to the type of the result, the second one is the body. -/
theorem function_form_struct_result :
    Lexer.lex "func (s *T[K]) m(x K) struct{ n int } { f() }" =
        .ok (structResult.tokens ++ [.sign .semicolon ⟨45, 45⟩, ⟨.eof, ⟨45, 45⟩⟩]) ∧
      function (.ofTokens (structResult.tokens ++ [.sign .semicolon ⟨45, 45⟩, ⟨.eof, ⟨45, 45⟩⟩])) =
        .ok (.func ⟨"m", ⟨15, 16⟩⟩ (some "T") true) 24 :=
  ⟨by decide +kernel, (function_form structResult ⟨45, 45⟩ [⟨.eof, ⟨45, 45⟩⟩]).1⟩

end Parser

end GoFront
