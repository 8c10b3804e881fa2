import GoFront.Parser
import GoFront.Proofs.Lexer.Layout
import GoFront.Proofs.Parser.Group

/-!
Which files the parser accepts, as far as their delimiters go. Everything it steps over is nested
but the receivers of methods: there it passes over opening parentheses, closing brackets and
closing braces that match nothing.
-/
namespace GoFront.Parser

/-! ### The package clause and the imports -/

theorem packageClause_neat : Neat packageClause := by
  refine skipSemicolons_neat.bind fun _ s value n parsed => ?_
  rw [peek_bind] at parsed
  split_ifs at parsed with noKeyword
  · exact absurd parsed failAt_ne_ok
  obtain ⟨k, named, -, isTaken⟩ := advance_bind_eq_ok parsed (not_not.mp noKeyword) (by simp)
  rw [isTaken]
  refine .plain rfl ?_
  rw [peek_bind] at named
  cases isName : (s.drop 1).current.kind with
  | ident text =>
    simp only [isName] at named
    split_ifs at named with blank
    · exact absurd named failAt_ne_ok
    obtain ⟨j, ended, -, isTaken⟩ := advance_bind_eq_ok named isName (by simp)
    rw [isTaken]
    refine .plain rfl ?_
    exact lineEnd_neat.bind (fun _ => .pure _) _ _ _ ended
  | _ =>
    simp only [isName] at named
    exact absurd named failAt_ne_ok

theorem importPath_isItem : IsItem importPath := by
  intro s value n parsed
  unfold importPath at parsed
  rw [peek_bind] at parsed
  cases isPath : s.current.kind with
  | string path =>
    simp only [isPath] at parsed
    obtain ⟨k, later, rfl, isTaken⟩ := advance_bind_eq_ok parsed isPath (by simp)
    refine ⟨isTaken ▸ .plain rfl ?_, by omega⟩
    split_ifs at later with empty
    · exact absurd later failAt_ne_ok
    cases bad : path.toList.find? (!isPathChar ·) with
    | some bad' =>
      simp only [bad] at later
      exact absurd later failAt_ne_ok
    | none =>
      simp only [bad] at later
      exact Neat.pure _ _ _ _ later
  | _ =>
    simp only [isPath] at parsed
    exact absurd parsed failAt_ne_ok

theorem bindingOf_ne_default {kind : TokenKind} (bound : bindingOf kind ≠ .default) :
    kind.isDelimiter = false ∧ kind ≠ .eof := by
  cases kind with
  | punctuation sign => cases sign <;> simp_all [bindingOf, TokenKind.isDelimiter]
  | ident name => exact ⟨rfl, by simp⟩
  | _ => simp [bindingOf] at bound

theorem importSpec_isItem : IsItem importSpec := by
  intro s value n parsed
  unfold importSpec at parsed
  rw [peek_bind] at parsed
  have isPath := fun binding => importPath_isItem.bind fun path =>
    .pure (⟨⟨path.value, binding⟩, s.current.span.merge path.span⟩ : Spanned Import)
  split_ifs at parsed with bound
  · obtain ⟨isPlain, notEnd⟩ := bindingOf_ne_default bound
    obtain ⟨k, later, rfl, isTaken⟩ := advance_bind_eq_ok parsed rfl notEnd
    exact ⟨isTaken ▸ .plain isPlain ((isPath _).neat _ _ _ later), by omega⟩
  · exact isPath _ _ _ _ parsed

/-- An import declaration, which starts with its keyword. -/
theorem importDeclaration_nested {s : Stream} {specs : List (Spanned Import)} {n : Nat}
    (parsed : importDeclaration s = .ok specs n) (isImport : s.current.kind = .keyword .importKw) :
    Nested (taken s.tokens n) ∧ 0 < n := by
  obtain ⟨k, later, rfl, isTaken⟩ := advance_bind_eq_ok parsed isImport (by simp)
  have neat := (oneOrMany_neat importSpec_isItem).bind fun specs =>
    lineEnd_neat.bind fun _ => .pure specs
  exact ⟨isTaken ▸ .plain rfl (neat _ _ _ later), by omega⟩

/-! ### Declarations -/

theorem plain_or_stray {kind : TokenKind} (noEnd : kind ≠ .punctuation (.closing .paren))
    (noBracket : kind ≠ .punctuation (.opening .bracket))
    (noBrace : kind ≠ .punctuation (.opening .brace)) :
    kind.isDelimiter = false ∨ kind ∈ strayKinds := by
  cases kind with
  | punctuation sign =>
    cases sign with
    | opening delimiter => cases delimiter <;> simp_all [strayKinds]
    | closing delimiter => cases delimiter <;> simp_all [strayKinds]
    | _ => exact .inl rfl
  | _ => exact .inl rfl

theorem loose_receiverBase (opener : Span) (base : Option String) (s : Stream) :
    ∀ value n, receiverBase opener base s = .ok value n →
      ∃ inside strays, taken s.tokens n = inside ++ [.punctuation (.closing .paren)] ∧
        Loose inside strays := by
  fun_induction receiverBase opener base s with
  | case1 => simp
  | case2 base token rest finish isClosing =>
    intro value n parsed
    obtain ⟨-, rfl⟩ := (Reply.ok.injEq ..).mp parsed
    exact ⟨[], [], by rw [← Nat.add_zero 1, taken_cons, isClosing]; rfl, .nil⟩
  | case3 base token rest finish isBracket found used closed ih =>
    intro value n parsed
    obtain ⟨k, later, rfl⟩ := Reply.after_eq_ok.mp parsed
    obtain ⟨inside, strays, isTaken, loose⟩ := ih value k later
    obtain ⟨within, isGroup, nested⟩ := (closes_of_closeGroups closed).eq_append
    refine ⟨_, strays, ?_, .brackets nested loose⟩
    rw [taken_add, taken_cons, isBracket, isGroup, Nat.add_comm, List.drop_succ_cons, isTaken]
    simp
  | case4 => simp
  | case5 base token rest finish name isName ih =>
    intro value n parsed
    obtain ⟨k, later, rfl⟩ := Reply.after_eq_ok.mp parsed
    obtain ⟨inside, strays, isTaken, loose⟩ := ih value k later
    refine ⟨token.kind :: inside, strays, ?_, .plain (by rw [isName]; rfl) loose⟩
    rw [taken_cons, isTaken, List.cons_append]
  | case6 => exact fun _ _ parsed => absurd parsed unexpected_ne_ok
  | case7 => exact fun _ _ parsed => absurd parsed unexpected_ne_ok
  | case8 base token rest finish noEnd noBracket _ _ noBrace ih =>
    intro value n parsed
    obtain ⟨k, later, rfl⟩ := Reply.after_eq_ok.mp parsed
    obtain ⟨inside, strays, isTaken, loose⟩ := ih value k later
    have whole : taken (token :: rest) (1 + k) =
        (token.kind :: inside) ++ [.punctuation (.closing .paren)] := by
      rw [taken_cons, isTaken, List.cons_append]
    rcases plain_or_stray noEnd noBracket noBrace with isPlain | isStray
    · exact ⟨_, strays, whole, .plain isPlain loose⟩
    · exact ⟨_, token.kind :: strays, whole, .stray isStray loose⟩

/-- A receiver, which starts with its opening parenthesis. -/
theorem loose_receiver {s : Stream} {base : String} {n : Nat} (parsed : receiver s = .ok base n)
    (isOpening : s.current.kind = .punctuation (.opening .paren)) :
    ∃ inside strays, Loose inside strays ∧
      taken s.tokens n =
        .punctuation (.opening .paren) :: (inside ++ [.punctuation (.closing .paren)]) := by
  simp only [receiver] at parsed
  split at parsed
  next found used isBase =>
    obtain ⟨-, rfl⟩ := (Reply.ok.injEq ..).mp parsed
    obtain ⟨k, later, -, isTaken⟩ := advance_bind_eq_ok isBase isOpening (by simp)
    obtain ⟨inside, strays, isInside, loose⟩ := loose_receiverBase _ _ _ _ k later
    exact ⟨inside, strays, loose, by rw [isTaken, isInside]⟩
  next => simp at parsed
  next => simp at parsed

/-- The name, the signature and the body of a function, behind its receiver. -/
def signature (type : Option String) : Parser Declaration := do
  let name ← identifier "function name"
  if !(← atSign (.opening .paren)) && !(← atSign (.opening .bracket)) then
    unexpected "'(' after function name"
  else
    tail true
    let hasBody ← atSign (.opening .brace)
    if hasBody then
      let _ ← group
    return .func name type hasBody

theorem function_eq :
    function = (do
      let _ ← advance
      let type ← if ← atSign (.opening .paren) then some <$> receiver else pure none
      signature type) :=
  rfl

theorem signature_neat (type : Option String) : Neat (signature type) := by
  refine (identifier_neat _).bind fun name => (atSign_neat _).bind fun paren =>
    (atSign_neat _).bind fun bracket => ?_
  split
  · exact unexpected_neat _
  · refine (tail_neat true).bind fun _ => (atSign_neat _).bind fun hasBody => ?_
    dsimp only
    split
    · exact group_neat.bind fun _ => .pure _
    · exact .pure _

theorem outlined_function {s : Stream} {found : Declaration} {n : Nat}
    (parsed : function s = .ok found n) (isFunc : s.current.kind = .keyword .funcKw) :
    ∃ strays, Outlined (taken s.tokens n) strays ∧ 0 < n := by
  rw [function_eq] at parsed
  obtain ⟨k, later, rfl, isTaken⟩ := advance_bind_eq_ok parsed isFunc (by simp)
  rw [isTaken]
  rw [atSign_bind] at later
  dsimp only at later
  split at later
  next starts =>
    obtain ⟨type, m, j, mapped, named, rfl⟩ := bind_eq_ok.mp later
    obtain ⟨base, received, -⟩ := map_eq_ok.mp mapped
    obtain ⟨inside, strays, loose, isReceiver⟩ :=
      loose_receiver received (kind_of_startsWith starts)
    have nested := signature_neat type _ _ _ named
    refine ⟨strays, ?_, by omega⟩
    have outlined := Outlined.receiver .nil loose (.nested nested)
    rw [taken_add, isReceiver]
    simpa [Stream.drop] using outlined
  next =>
    obtain ⟨type, m, j, none, named, rfl⟩ := bind_eq_ok.mp later
    obtain ⟨-, rfl⟩ := pure_eq_ok.mp none
    refine ⟨[], .nested (.plain rfl ?_), by omega⟩
    rw [Nat.zero_add]
    exact signature_neat type _ _ _ named

theorem nested_moreNames (s : Stream) :
    ∀ names n, moreNames s = .ok names n → Nested (taken s.tokens n) := by
  fun_induction moreNames s with
  | case1 span rest finish name used isName ih =>
    intro names n parsed
    obtain ⟨k, mapped, rfl⟩ := Reply.after_eq_ok.mp parsed
    obtain ⟨found, later, -⟩ := Reply.map_eq_ok.mp mapped
    rw [Nat.add_assoc, taken_cons, taken_add]
    exact .plain rfl ((identifier_neat _ _ _ _ isName).append (ih found k later))
  | case2 => simp
  | case3 =>
    intro names n parsed
    obtain ⟨-, rfl⟩ := (Reply.ok.injEq ..).mp parsed
    exact .nil

theorem identifier_isItem (what : String) : IsItem (identifier what) := by
  intro s value n parsed
  refine ⟨identifier_neat what s value n parsed, ?_⟩
  unfold identifier at parsed
  split at parsed
  next => 
    obtain ⟨-, rfl⟩ := (Reply.ok.injEq ..).mp parsed
    exact Nat.one_pos
  next => exact absurd parsed unexpected_ne_ok

theorem nameList_isItem : IsItem nameList :=
  (identifier_isItem _).bind fun first =>
    Neat.bind nested_moreNames fun names => .pure (first :: names)

theorem groupEntry_isItem (kind : GroupKind) : IsItem (groupEntry kind) := by
  have rest : ∀ names : List (Spanned String), Neat (do
      tail false
      if (← atSign (.closing .bracket)) || (← atSign (.closing .brace)) then
        unexpected "';' or newline"
      else
        return names) := by
    intro names
    refine (tail_neat false).bind fun _ => (atSign_neat _).bind fun bracket =>
      (atSign_neat _).bind fun brace => ?_
    split
    · exact unexpected_neat _
    · exact .pure names
  unfold groupEntry
  dsimp only
  split
  · exact ((identifier_isItem _).map _).bind rest
  · exact nameList_isItem.bind rest

/-- A `var`, `const` or `type` declaration, which starts with its keyword. -/
theorem nested_nameGroup {kind : GroupKind} {s : Stream} {found : Declaration} {n : Nat}
    {word : Keyword} (parsed : nameGroup kind s = .ok found n)
    (isKeyword : s.current.kind = .keyword word) : Nested (taken s.tokens n) ∧ 0 < n := by
  obtain ⟨k, later, rfl, isTaken⟩ := advance_bind_eq_ok parsed isKeyword (by simp)
  have neat := (oneOrMany_neat (groupEntry_isItem kind)).bind fun names =>
    .pure (Declaration.group kind names.flatten)
  exact ⟨isTaken ▸ .plain rfl (neat _ _ _ later), by omega⟩

theorem outlined_declaration {s : Stream} {found : Spanned Declaration} {n : Nat}
    (parsed : declaration s = .ok found n) :
    ∃ strays, Outlined (taken s.tokens n) strays ∧ 0 < n := by
  unfold declaration at parsed
  split at parsed
  next word isKeyword =>
    split at parsed
    next value used isDeclaration =>
      obtain ⟨k, mapped, rfl⟩ := Reply.after_eq_ok.mp parsed
      obtain ⟨_, ended, -⟩ := Reply.map_eq_ok.mp mapped
      have outlined : ∃ strays, Outlined (taken s.tokens used) strays ∧ 0 < used := by
        unfold declarationOf at isDeclaration
        split at isDeclaration
        · exact outlined_function isDeclaration isKeyword
        · obtain ⟨nested, positive⟩ := nested_nameGroup isDeclaration isKeyword
          exact ⟨[], .nested nested, positive⟩
        · obtain ⟨nested, positive⟩ := nested_nameGroup isDeclaration isKeyword
          exact ⟨[], .nested nested, positive⟩
        · obtain ⟨nested, positive⟩ := nested_nameGroup isDeclaration isKeyword
          exact ⟨[], .nested nested, positive⟩
        · exact absurd isDeclaration unexpected_ne_ok
      obtain ⟨strays, outlined, positive⟩ := outlined
      refine ⟨strays, ?_, by omega⟩
      have whole := outlined.append (.nested (lineEnd_neat _ _ _ ended))
      rw [List.append_nil] at whole
      exact taken_add s.tokens used k ▸ whole
    next => simp at parsed
  next => exact absurd parsed unexpected_ne_ok

/-! ### Files -/

theorem nested_importSection {finish : Span} {tokens : List Token}
    (clean : (importSection finish tokens).findings = []) :
    ∃ front, tokens.map (·.kind) = front ++ (importSection finish tokens).rest.map (·.kind) ∧
      Nested front := by
  fun_induction importSection finish tokens with
  | case1 => exact ⟨[], rfl, .nil⟩
  | case2 token rest isSemicolon ih =>
    obtain ⟨front, split, nested⟩ := ih clean
    refine ⟨token.kind :: front, by rw [List.map_cons, split, List.cons_append], ?_⟩
    exact .plain (by rw [isSemicolon]; rfl) nested
  | case3 token rest _ isImport specs used parsed later ih =>
    obtain ⟨front, split, nested⟩ := ih clean
    obtain ⟨nestedImport, positive⟩ := importDeclaration_nested parsed isImport
    refine ⟨taken (token :: rest) used ++ front, ?_, nestedImport.append nested⟩
    rw [map_kind_eq _ used, ← drop_pred positive, split, List.append_assoc]
  | case4 => simp at clean
  | case5 => exact ⟨[], rfl, .nil⟩

theorem outlined_declarationSection {finish : Span} {tokens : List Token}
    (clean : (declarationSection finish tokens).findings = []) :
    ∃ strays, Outlined (tokens.map (·.kind)) strays := by
  fun_induction declarationSection finish tokens with
  | case1 => exact ⟨[], .nested .nil⟩
  | case2 token rest isSemicolon ih =>
    obtain ⟨strays, outlined⟩ := ih clean
    have semicolon : Nested [token.kind] := .plain (by rw [isSemicolon]; rfl) .nil
    exact ⟨strays, Outlined.append (.nested semicolon) outlined⟩
  | case3 token rest _ reply value used parsed later ih =>
    obtain ⟨strays, outlined⟩ := ih clean
    have isDeclaration : declaration ⟨token :: rest, finish⟩ = .ok value used := by
      simp only [reply] at parsed
      split_ifs at parsed with isImport
      exact parsed
    obtain ⟨own, outlinedOwn, positive⟩ := outlined_declaration isDeclaration
    refine ⟨own ++ strays, ?_⟩
    rw [map_kind_eq _ used, ← drop_pred positive]
    exact outlinedOwn.append outlined
  | case4 => simp at clean

theorem outlined_parseStream {s : Stream} {lines : LineIndex} {file : SourceFile}
    (parsed : parseStream s lines = .ok file) :
    ∃ strays, Outlined (s.tokens.map (·.kind)) strays := by
  unfold parseStream at parsed
  split at parsed
  next => simp at parsed
  next package used isPackage =>
    dsimp only at parsed
    split at parsed
    next clean =>
      obtain ⟨noImport, noDeclaration⟩ := List.append_eq_nil_iff.mp clean
      obtain ⟨front, split, nested⟩ := nested_importSection noImport
      obtain ⟨strays, outlined⟩ := outlined_declarationSection noDeclaration
      refine ⟨strays, ?_⟩
      rw [map_kind_eq _ used, split]
      have header := (packageClause_neat _ _ _ isPackage).append nested
      simpa using Outlined.append (.nested header) outlined
    next => simp at parsed

theorem Stream.tokens_ofTokens {front : List Token} {finish : Token}
    (noEnd : ∀ token ∈ front, token.kind ≠ .eof) (isEnd : finish.kind = .eof) :
    (Stream.ofTokens (front ++ [finish])).tokens = front := by
  rw [GoFront.Stream.tokens_eq_takeWhile, List.takeWhile_append_of_pos (by simpa using noEnd)]
  simp [isEnd]

/-- The tokens of an accepted source text are nested but for its receivers, so they are nested if
no receiver has a stray delimiter and only then. -/
theorem parseSource_outlined {source : String} {file : SourceFile}
    (parsed : parseSource source = .ok file) :
    ∃ tokens strays, Lexer.lex source = .ok tokens ∧ Outlined (tokens.map (·.kind)) strays ∧
      (Nested (tokens.map (·.kind)) ↔ strays = []) := by
  unfold parseSource at parsed
  cases lexed : Lexer.lex source with
  | error found => simp [lexed, bind, Except.bind] at parsed
  | ok tokens =>
    simp only [lexed, bind, Except.bind] at parsed
    obtain ⟨front, rfl, noEnd⟩ := Lexer.lex_ended lexed
    obtain ⟨strays, outlined⟩ := outlined_parseStream parsed
    rw [Stream.tokens_ofTokens noEnd rfl] at outlined
    have finish : Nested [.eof] := .plain rfl .nil
    have whole := outlined.append (.nested finish)
    rw [List.append_nil] at whole
    refine ⟨_, strays, rfl, ?_⟩
    rw [List.map_append]
    exact ⟨whole, whole.nested_iff⟩

theorem exists_file (source : String) (accepted : (parseSource source).toOption.isSome = true) :
    ∃ file, parseSource source = .ok file := by
  cases parsed : parseSource source with
  | ok file => exact ⟨file, rfl⟩
  | error found => simp [parsed, Except.toOption] at accepted

theorem parseSource_outlined_stack :
    ∃ file, parseSource "package a\nfunc (s *Stack[T]) Push(v T)\n" = .ok file ∧
      ∃ tokens strays,
        Lexer.lex "package a\nfunc (s *Stack[T]) Push(v T)\n" = .ok tokens ∧
        Outlined (tokens.map (·.kind)) strays ∧
        (Nested (tokens.map (·.kind)) ↔ strays = []) := by
  obtain ⟨file, parsed⟩ :=
    exists_file "package a\nfunc (s *Stack[T]) Push(v T)\n" (by decide +kernel)
  exact ⟨file, parsed, parseSource_outlined parsed⟩

/-- A file is accepted though a bracket in one of its receivers closes nothing. -/
theorem parseSource_accepts_stray :
    ∃ file tokens, parseSource "package p\nfunc (T]) f()\n" = .ok file ∧
      Lexer.lex "package p\nfunc (T]) f()\n" = .ok tokens ∧ ¬Nested (tokens.map (·.kind)) := by
  obtain ⟨file, parsed⟩ := exists_file "package p\nfunc (T]) f()\n" (by decide +kernel)
  have unbalanced : ((Lexer.lex "package p\nfunc (T]) f()\n").toOption.map fun tokens =>
      decide (Nested (tokens.map (·.kind)))) = some false := by decide +kernel
  cases lexed : Lexer.lex "package p\nfunc (T]) f()\n" with
  | error found => simp [lexed, Except.toOption] at unbalanced
  | ok tokens =>
    refine ⟨file, tokens, parsed, rfl, ?_⟩
    simpa [lexed, Except.toOption] using unbalanced

end GoFront.Parser
