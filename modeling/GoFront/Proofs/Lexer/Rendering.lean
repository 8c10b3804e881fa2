import GoFront.Proofs.Lexer.Layout

/-!
Tokens written out again. `lex_render` says that lexing undoes rendering for every sequence of
tokens but floats, with single spaces between them.
-/
namespace GoFront

open Lexer

/-- The name is a word of the language and no keyword. -/
def isIdentifier (name : String) : Bool :=
  match name.toList with
  | [] => false
  | first :: rest => isWordStart first && rest.all isWordChar && (Keyword.ofSpelling? name).isNone

namespace TokenKind

/-- A character of a quoted literal: the quote, the backslash and the line feed are escaped. -/
def escaped (quote c : Char) : List Char :=
  if c = quote || c = '\\' then ['\\', c] else if c = '\n' then ['\\', 'n'] else [c]

def quoted (quote : Char) (text : List Char) : List Char :=
  quote :: text.flatMap (escaped quote) ++ [quote]

/-- How a token is written. Floats and the end of the file are not. -/
def render : TokenKind → String
  | keyword word => word.spelling
  | operator sign => sign.spelling
  | punctuation sign => sign.spelling
  | ident name => name
  | int value => value.toNat.repr
  | rune value => String.ofList (quoted '\'' [value])
  | string value => String.ofList (quoted '"' value.toList)
  | float _ | imaginary _ | eof => ""

/-- The token can be written: it is no float, and its name, if it has one, is an identifier. -/
def renderable : TokenKind → Bool
  | ident name => isIdentifier name
  | float _ | imaginary _ | eof => false
  | _ => true

end TokenKind

namespace Lexer

/-! ### Words -/

theorem not_isDigitOf_of_isWordStart {c : Char} (start : isWordStart c) :
    isDigitOf 10 c = false := by
  have bounds : (decide (65 ≤ c.val ∧ c.val ≤ 90) || (decide (97 ≤ c.val) && decide (c.val ≤ 122))
      || decide (c = '_')) = true := start
  simp only [Bool.or_eq_true, Bool.and_eq_true, decide_eq_true_eq, UInt32.le_iff_toNat_le] at bounds
  rcases bounds with letter | rfl
  · simp only [isDigitOf, Char.toNat]
    grind
  · decide

theorem scan_word {c : Char} (start : isWordStart c) (rest : List Char) :
    scan c rest = ⟨c :: rest.takeWhile isWordChar,
      .ok (.token (wordKind (c :: rest.takeWhile isWordChar)))⟩ := by
  have ne : ∀ other, isWordStart other = false → c ≠ other := by
    rintro other noStart rfl
    simp [noStart] at start
  simp [scan, start, not_isDigitOf_of_isWordStart start, ne ' ' (by decide), ne '\t' (by decide),
    ne '\r' (by decide), ne '\n' (by decide), ne '/' (by decide), ne '.' (by decide),
    ne '"' (by decide), ne backQuote (by decide), ne '\'' (by decide)]

/-- A word before text that does not go on with it. -/
theorem pieces_word {c : Char} {rest after : List Char} (start : isWordStart c)
    (run : ∀ c ∈ rest, isWordChar c) (ends : ∀ next ∈ after.head?, isWordChar next = false) :
    pieces (c :: rest ++ after) =
      ⟨c :: rest, .ok (.token (wordKind (c :: rest)))⟩ :: pieces after := by
  have isRun : (rest ++ after).takeWhile isWordChar = rest := by
    rw [List.takeWhile_append_of_pos run]
    cases after with
    | nil => simp
    | cons next after => simp [ends next rfl]
  have isWord := scan_word start (rest ++ after)
  rw [isRun] at isWord
  have split : c :: (rest ++ after) = (scan c (rest ++ after)).text ++ after := by
    rw [isWord, List.cons_append]
  rw [List.cons_append, pieces_cons split, isWord]

theorem word_of_keyword (keyword : Keyword) :
    ∃ c rest, keyword.spelling.toList = c :: rest ∧ isWordStart c ∧ (∀ c ∈ rest, isWordChar c) ∧
      wordKind (c :: rest) = .keyword keyword := by
  cases keyword <;> exact ⟨_, _, rfl, by decide, List.all_eq_true.mp (by decide), by decide⟩

theorem word_of_identifier {name : String} (identifier : isIdentifier name) :
    ∃ c rest, name.toList = c :: rest ∧ isWordStart c ∧ (∀ c ∈ rest, isWordChar c) ∧
      wordKind (c :: rest) = .ident name := by
  unfold isIdentifier at identifier
  split at identifier
  next => simp at identifier
  next c rest isName =>
    simp only [Bool.and_eq_true, List.all_eq_true, Option.isNone_iff_eq_none] at identifier
    obtain ⟨⟨start, run⟩, noKeyword⟩ := identifier
    refine ⟨c, rest, isName, start, run, ?_⟩
    rw [wordKind, ← isName, String.ofList_toList, noKeyword]

theorem Reads.identifier {text after : List Char} {name : String}
    (reads : Reads text after (.token (.ident name))) : isIdentifier name := by
  generalize isLexeme : Lexeme.token (.ident name) = lexeme at reads
  cases reads with
  | gap noToken => exact absurd isLexeme.symm (noToken _)
  | word run start =>
    obtain ⟨c, isFirst, start⟩ := start
    obtain ⟨rest, rfl⟩ := List.head?_eq_some_iff.mp isFirst
    have isKind := Lexeme.token.inj isLexeme
    unfold wordKind at isKind
    split at isKind
    next => simp at isKind
    next noKeyword =>
      obtain rfl := TokenKind.ident.inj isKind
      have later : rest.all isWordChar = true :=
        List.all_eq_true.mpr (List.forall_mem_cons.mp run).2
      simp only [isIdentifier, String.toList_ofList, start, later, noKeyword, Option.isNone_none,
        Bool.and_self]
  | sign longest =>
    obtain rfl := Lexeme.token.inj isLexeme
    simpa [signs] using longest.known
  | literal isLiteral =>
    obtain rfl := Lexeme.token.inj isLexeme
    exact absurd isLiteral id

/-- All names in a token stream are identifiers. -/
theorem lex_identifiers {source : String} {found : List Token} (lexed : lex source = .ok found) :
    ∀ token ∈ found, ∀ name, token.kind = .ident name → isIdentifier name := by
  obtain ⟨-, rfl⟩ := lexChars_eq_ok_iff.mp lexed
  obtain ⟨front, stop, -, stems, isEnd, -⟩ := tokens_line 0 false (pieces source.toList)
  rw [isEnd]
  intro token mem name isName
  rcases List.mem_append.mp mem with written | ended
  · rcases stems token written with inserted | ⟨piece, isPiece, result⟩
    · simp [isName] at inserted
    · rw [isName] at result
      obtain ⟨after, reads⟩ := pieces_read _ piece isPiece _ result
      exact reads.identifier
  · rw [List.mem_singleton.mp ended] at isName
    simp at isName

/-! ### Numbers -/

theorem scan_digit {c : Char} (digit : isDigitOf 10 c) (rest : List Char) :
    scan c rest = (scanNumber c rest).token := by
  have ne : ∀ other, isDigitOf 10 other = false → c ≠ other := by
    rintro other noDigit rfl
    simp [noDigit] at digit
  simp [scan, digit, ne ' ' (by decide), ne '\t' (by decide), ne '\r' (by decide),
    ne '\n' (by decide), ne '/' (by decide), ne '.' (by decide), ne '"' (by decide),
    ne backQuote (by decide), ne '\'' (by decide)]

theorem isDigitOf_of_isDigit {c : Char} (digit : c.isDigit) : isDigitOf 10 c := by
  simp only [Char.isDigit, Bool.and_eq_true, decide_eq_true_eq, UInt32.le_iff_toNat_le] at digit
  simp only [isDigitOf, Char.toNat]
  grind

theorem digitValue_of_isDigit {c : Char} (digit : c.isDigit) : digitValue c = c.toNat - 48 := by
  simp only [Char.isDigit, Bool.and_eq_true, decide_eq_true_eq, UInt32.le_iff_toNat_le] at digit
  simp only [digitValue, Char.toNat]
  grind

theorem positional_toDigits (n : Nat) : positional 10 (Nat.toDigits 10 n) = n := by
  have same : ∀ digits : List Char, (∀ c ∈ digits, c.isDigit) → ∀ start,
      digits.foldl (fun value c => value * 10 + digitValue c) start =
        Nat.ofDigitChars 10 digits start := by
    intro digits decimal
    induction digits with
    | nil => simp
    | cons c rest ih =>
      obtain ⟨digit, later⟩ := List.forall_mem_cons.mp decimal
      intro start
      rw [List.foldl_cons, ih later, Nat.ofDigitChars_cons, digitValue_of_isDigit digit,
        Nat.mul_comm start]
      rfl
  rw [positional, same _ fun c => Nat.isDigit_of_mem_toDigits (by decide) (by decide)]
  exact Nat.ofDigitChars_ten_toDigits

/-- A numeral with more than one digit does not start with zero. -/
theorem toDigits_leading {n : Nat} (positive : 0 < n) : '0' ∉ (Nat.toDigits 10 n).head? := by
  induction n using Nat.strong_induction_on with
  | _ n ih =>
    by_cases small : n < 10
    · have single : ∀ n < 10, 0 < n → '0' ∉ [n.digitChar].head? := by decide
      rw [Nat.toDigits_of_lt_base small]
      exact single n small positive
    · rw [Nat.toDigits_of_base_le (by decide) (by omega),
        List.head?_append_of_ne_nil _ Nat.toDigits_ne_nil]
      exact ih (n / 10) (by omega) (by omega)

theorem decimalInteger_toDigits {n : Nat} (fits : n < UInt64.size) :
    decimalInteger (Nat.toDigits 10 n) = ⟨Nat.toDigits 10 n, .ok (.int n.toUInt64)⟩ := by
  have isPlain : plain (Nat.toDigits 10 n) = Nat.toDigits 10 n := by
    rw [plain, List.filter_eq_self]
    rintro c mem
    have : c ≠ '_' := fun same => Nat.underscore_not_in_toDigits (same ▸ mem)
    simpa using this
  have isInteger : integer (Nat.toDigits 10 n) 10 (Nat.toDigits 10 n) =
      ⟨Nat.toDigits 10 n, .ok (.int n.toUInt64)⟩ := by
    rw [integer, positional_toDigits, if_pos fits]
  unfold decimalInteger
  rw [isPlain]
  split
  next d digits isOctal =>
    rcases Nat.eq_zero_or_pos n with rfl | positive
    · simp at isOctal
    · exact absurd (by rw [isOctal]; rfl) (toDigits_leading positive)
  next => exact isInteger

theorem scanNumber_digits (c : Char) {rest : List Char} (digits : ∀ c ∈ rest, c.isDigit) :
    scanNumber c rest = decimalInteger (c :: rest) := by
  have isRun : rest.takeWhile (isNumeral 10) = rest := by
    rw [List.takeWhile_eq_self_iff]
    intro c mem
    simp [isNumeral, isDigitOf_of_isDigit (digits c mem)]
  have unmarked : scanUnmarked c rest = decimalInteger (c :: rest) := by
    rw [scanUnmarked, isRun, List.drop_length, scanDecimal_eq]
    simp [fractionOf, scanExponent, finishDecimal, rejectSuffix, DecimalText.text,
      DecimalText.isFloat]
  rw [scanNumber_eq]
  split
  next mark more =>
    have noMark : markedBase? mark = none := by
      have isDigit := digits mark List.mem_cons_self
      have ne : ∀ other : Char, other.isDigit = false → mark ≠ other := by
        rintro other noDigit rfl
        simp [noDigit] at isDigit
      simp [markedBase?, ne 'x' (by decide), ne 'X' (by decide), ne 'o' (by decide),
        ne 'O' (by decide), ne 'b' (by decide), ne 'B' (by decide)]
    simpa [noMark] using unmarked
  next => exact unmarked

/-! ### Quoted literals -/

theorem elementFindings_of_valid {elements : List Element} (offset : Nat)
    (valid : ∀ element ∈ elements, ∃ value, element.meaning = .ok value) :
    elementFindings offset elements = [] := by
  induction elements generalizing offset with
  | nil => rfl
  | cons element rest ih =>
    obtain ⟨⟨value, meaning⟩, later⟩ := List.forall_mem_cons.mp valid
    simp only [elementFindings, meaning, ih _ later]

open TokenKind

/-- The element that stands for a character. -/
def elementOf (quote c : Char) : Element := ⟨escaped quote c, .ok c⟩

theorem stringBody_escaped (text : List Char) :
    stringBody (text.flatMap (escaped '"') ++ ['"']) =
      ⟨text.map (elementOf '"'), ['"'], true⟩ := by
  induction text with
  | nil => simp [stringBody]
  | cons c rest ih =>
    rw [List.flatMap_cons, List.append_assoc]
    by_cases quote : c = '"' ∨ c = '\\'
    · rcases quote with rfl | rfl <;>
        simp [escaped, elementOf, stringBody, escape, simpleEscape?, ih]
    rw [not_or] at quote
    by_cases feed : c = '\n'
    · subst feed
      simp [escaped, elementOf, stringBody, escape, simpleEscape?, ih]
    · have plain : escaped '"' c = [c] := by simp [escaped, quote, feed]
      rw [plain, List.singleton_append, stringBody, ih]
      · simp [elementOf, plain]
      all_goals simp_all

theorem scan_quoted_string (text : List Char) :
    scan '"' (text.flatMap (escaped '"') ++ ['"']) =
      ⟨quoted '"' text, .ok (.token (.string (String.ofList text)))⟩ := by
  have clean : elementFindings 1 (text.map (elementOf '"')) = [] := by
    apply elementFindings_of_valid
    intro element mem
    obtain ⟨c, -, rfl⟩ := List.mem_map.mp mem
    exact ⟨c, rfl⟩
  have isMeaning : meanings (text.map (elementOf '"')) = text := by
    rw [meanings, List.filterMap_map]
    exact List.filterMap_some
  change (scanString _).token = _
  simp only [scanString, stringBody_escaped, clean, isMeaning, if_true, List.append_nil]
  rw [List.flatMap_map]
  rfl

theorem scan_quoted_rune (c : Char) :
    scan '\'' (escaped '\'' c ++ ['\'']) = ⟨quoted '\'' [c], .ok (.token (.rune c))⟩ := by
  change (scanRune _).token = _
  by_cases quote : c = '\'' ∨ c = '\\'
  · rcases quote with rfl | rfl <;>
      simp [escaped, quoted, scanRune, escape, simpleEscape?, closeRune, Piece.token, Except.map]
  rw [not_or] at quote
  by_cases feed : c = '\n'
  · subst feed
    simp [escaped, quoted, scanRune, escape, simpleEscape?, closeRune, Piece.token, Except.map]
  · have plain : escaped '\'' c = [c] := by simp [escaped, quote, feed]
    rw [plain, List.singleton_append, scanRune]
    · simp [quoted, plain, closeRune, Piece.token, Except.map]
    all_goals simp_all

/-! ### Signs -/

/-- A delimiter is a token whatever follows it. -/
theorem pieces_delimiter {c : Char} {kind : TokenKind} (known : ([c], kind) ∈ signs)
    (alone : ∀ entry ∈ signs, entry.1.head? = some c → entry.1.length ≤ 1)
    (chosen : scan c = scanSign c) (after : List Char) :
    pieces (c :: after) = ⟨[c], .ok (.token kind)⟩ :: pieces after := by
  have longest : LongestSign (c :: after) [c] kind := by
    refine ⟨known, by simp, fun other kindOther knownOther front => ?_⟩
    obtain ⟨first, rest, rfl⟩ := List.exists_cons_of_ne_nil (ne_nil_of_mem_signs knownOther)
    obtain ⟨rfl, -⟩ := List.cons_prefix_cons.mp front
    exact alone _ knownOther rfl
  have isSign : scan c after = ⟨[c], .ok (.token kind)⟩ := by
    rw [chosen, scanSign_eq, longest.found]
  have split : c :: after = (scan c after).text ++ after := by rw [isSign, List.singleton_append]
  rw [pieces_cons split, isSign]

theorem scan_operator (sign : Operator) :
    ∃ c rest, sign.spelling.toList = c :: rest ∧
      scan c rest = ⟨c :: rest, .ok (.token (.operator sign))⟩ := by
  cases sign <;> exact ⟨_, _, rfl, rfl⟩

theorem scan_punctuation (sign : Punctuation) :
    ∃ c rest, sign.spelling.toList = c :: rest ∧
      scan c rest = ⟨c :: rest, .ok (.token (.punctuation sign))⟩ := by
  cases sign with
  | opening delimiter => cases delimiter <;> exact ⟨_, _, rfl, rfl⟩
  | closing delimiter => cases delimiter <;> exact ⟨_, _, rfl, rfl⟩
  | _ => exact ⟨_, _, rfl, rfl⟩

/-! ### Rendered tokens -/

/-- Text behind a token that does not go on with it. -/
def Ends : TokenKind → List Char → Prop
  | .keyword _, after | .ident _, after => ∀ next ∈ after.head?, isWordChar next = false
  | .punctuation (.opening _), _ | .punctuation (.closing _), _ => True
  | _, after => ∀ next ∈ after.head?, next ∈ blanks

theorem ends_nil (kind : TokenKind) : Ends kind [] := by
  unfold Ends
  split <;> simp

theorem ends_space (kind : TokenKind) (after : List Char) : Ends kind (' ' :: after) := by
  unfold Ends
  split <;> simp [isWordChar, blanks]

/-- What is a token on its own is one before white space. -/
theorem pieces_alone {c : Char} {rest after : List Char} {kind : TokenKind}
    (alone : scan c rest = ⟨c :: rest, .ok (.token kind)⟩)
    (ends : ∀ next ∈ after.head?, next ∈ blanks) :
    pieces (c :: rest ++ after) = ⟨c :: rest, .ok (.token kind)⟩ :: pieces after := by
  have same : scan c (rest ++ after) = ⟨c :: rest, .ok (.token kind)⟩ := by
    cases after with
    | nil => rw [List.append_nil, alone]
    | cons next after =>
      have result : (scan c rest).result = .ok (.token kind) := by rw [alone]
      rw [scan_blank (ends next rfl) result (.inr ⟨kind, rfl⟩), alone]
  have split : c :: (rest ++ after) = (scan c (rest ++ after)).text ++ after := by
    rw [same, List.cons_append]
  rw [List.cons_append, pieces_cons split, same]

theorem scan_int (value : UInt64) :
    ∃ c rest, (TokenKind.int value).render.toList = c :: rest ∧
      scan c rest = ⟨c :: rest, .ok (.token (.int value))⟩ := by
  obtain ⟨c, rest, isDigits⟩ : ∃ c rest, Nat.toDigits 10 value.toNat = c :: rest :=
    List.exists_cons_of_ne_nil Nat.toDigits_ne_nil
  have digits : ∀ d ∈ c :: rest, d.isDigit := fun d mem =>
    Nat.isDigit_of_mem_toDigits (by decide) (by decide) (isDigits ▸ mem)
  obtain ⟨digit, later⟩ := List.forall_mem_cons.mp digits
  have isInteger := decimalInteger_toDigits value.toNat_lt_size
  refine ⟨c, rest, by rw [render, Nat.toList_repr, isDigits], ?_⟩
  rw [scan_digit (isDigitOf_of_isDigit digit), scanNumber_digits c later, ← isDigits, isInteger]
  simp [Piece.token, Except.map]

theorem pieces_render {kind : TokenKind} {after : List Char} (renderable : kind.renderable)
    (ends : Ends kind after) :
    pieces (kind.render.toList ++ after) =
      ⟨kind.render.toList, .ok (.token kind)⟩ :: pieces after := by
  cases kind with
  | keyword word =>
    obtain ⟨c, rest, isSpelling, start, run, isKind⟩ := word_of_keyword word
    rw [render, isSpelling, pieces_word start run ends, isKind]
  | ident name =>
    obtain ⟨c, rest, isName, start, run, isKind⟩ := word_of_identifier renderable
    rw [render, isName, pieces_word start run ends, isKind]
  | operator sign =>
    obtain ⟨c, rest, isSpelling, alone⟩ := scan_operator sign
    rw [render, isSpelling]
    exact pieces_alone alone ends
  | punctuation sign =>
    cases sign with
    | opening delimiter =>
      cases delimiter <;> exact pieces_delimiter (by decide) (by decide) rfl after
    | closing delimiter =>
      cases delimiter <;> exact pieces_delimiter (by decide) (by decide) rfl after
    | _ =>
      obtain ⟨c, rest, isSpelling, alone⟩ := scan_punctuation _
      rw [render, isSpelling]
      exact pieces_alone alone ends
  | int value =>
    obtain ⟨c, rest, isNumeral, alone⟩ := scan_int value
    rw [isNumeral]
    exact pieces_alone alone ends
  | rune value =>
    have isQuoted : quoted '\'' [value] = '\'' :: (escaped '\'' value ++ ['\'']) := by
      simp [quoted]
    rw [render, String.toList_ofList, isQuoted]
    exact pieces_alone (isQuoted ▸ scan_quoted_rune value) ends
  | string value =>
    have alone := scan_quoted_string value.toList
    rw [String.ofList_toList] at alone
    rw [render, String.toList_ofList]
    exact pieces_alone alone ends
  | float => simp [TokenKind.renderable] at renderable
  | imaginary => simp [TokenKind.renderable] at renderable
  | eof => simp [TokenKind.renderable] at renderable

/-! ### Lines of tokens -/

/-- Text that shows the tokens in order, with spaces between them where they would run together. -/
inductive Spaced : List TokenKind → List Char → Prop where
  | nil : Spaced [] []
  | space {kinds : List TokenKind} {text : List Char} (later : Spaced kinds text) :
      Spaced kinds (' ' :: text)
  | token {kind : TokenKind} {kinds : List TokenKind} {text : List Char}
      (renderable : kind.renderable) (ends : Ends kind text) (later : Spaced kinds text) :
      Spaced (kind :: kinds) (kind.render.toList ++ text)

/-- The last of the tokens can end a line; `canEnd` says it of the token before them. -/
def lastEnds (canEnd : Bool) (kinds : List TokenKind) : Bool :=
  (kinds.getLast?.map endsLine).getD canEnd

theorem lastEnds_cons (canEnd : Bool) (kind : TokenKind) (kinds : List TokenKind) :
    lastEnds canEnd (kind :: kinds) = lastEnds kind.endsLine kinds := by
  unfold lastEnds
  rw [List.getLast?_cons]
  cases kinds.getLast? <;> rfl

theorem pieces_space (after : List Char) :
    pieces (' ' :: after) = ⟨[' '], .ok .blank⟩ :: pieces after := by
  have isBlank : scan ' ' after = ⟨[' '], .ok .blank⟩ := rfl
  rw [pieces_cons (by rw [isBlank, List.singleton_append]), isBlank]

namespace Spaced

variable {kinds : List TokenKind} {text : List Char}

theorem accepted (spaced : Spaced kinds text) : ∀ piece ∈ pieces text, piece.Accepted := by
  induction spaced with
  | nil => simp [pieces]
  | space _ ih =>
    rw [pieces_space]
    exact List.forall_mem_cons.mpr ⟨⟨_, rfl⟩, ih⟩
  | token renderable ends _ ih =>
    rw [pieces_render renderable ends]
    exact List.forall_mem_cons.mpr ⟨⟨_, rfl⟩, ih⟩

theorem tokens_eq (spaced : Spaced kinds text) (offset : Nat) (canEnd : Bool) :
    ∃ written stop, stop = offset + Text.byteLength text ∧
      tokens offset canEnd (pieces text) =
        written ++ (lineEnd (lastEnds canEnd kinds) stop ++ [⟨.eof, ⟨stop, stop⟩⟩]) ∧
      written.map (·.kind) = kinds ∧ ∀ token ∈ written, token.span.start < token.span.stop := by
  induction spaced generalizing offset canEnd with
  | nil => exact ⟨[], offset, rfl, by simp [pieces, tokens, lastEnds], rfl, by simp⟩
  | space _ ih =>
    obtain ⟨written, stop, isStop, isTokens, isKinds, covers⟩ := ih (offset + 1) canEnd
    have size : ' '.utf8Size = 1 := by decide
    refine ⟨written, stop, ?_, ?_, isKinds, covers⟩
    · rw [isStop, Text.byteLength_cons, size, Nat.add_assoc]
    · rw [pieces_space]
      exact isTokens
  | @token kind kinds text renderable ends later ih =>
    obtain ⟨written, stop, isStop, isTokens, isKinds, covers⟩ :=
      ih (offset + Text.byteLength kind.render.toList) kind.endsLine
    -- Were the spelling empty, a text would have one piece more than itself.
    have nonempty : kind.render.toList ≠ [] := by
      have cut := pieces_render renderable ends
      intro empty
      rw [empty, List.nil_append] at cut
      simpa using congrArg List.length cut
    have := byteLength_pos nonempty
    refine ⟨⟨kind, ⟨offset, offset + Text.byteLength kind.render.toList⟩⟩ :: written, stop, ?_, ?_,
      ?_, ?_⟩
    · rw [isStop, Text.byteLength_append, Nat.add_assoc]
    · rw [pieces_render renderable ends, lastEnds_cons]
      simp only [tokens, isTokens, List.cons_append]
    · rw [List.map_cons, isKinds]
    · refine List.forall_mem_cons.mpr ⟨?_, covers⟩
      dsimp only
      omega

end Spaced

theorem spaced_intercalate {kinds : List TokenKind}
    (renderable : ∀ kind ∈ kinds, kind.renderable) :
    Spaced kinds ([' '].intercalate (kinds.map fun kind => kind.render.toList)) := by
  induction kinds with
  | nil => exact .nil
  | cons kind kinds ih =>
    obtain ⟨first, others⟩ := List.forall_mem_cons.mp renderable
    cases kinds with
    | nil => simpa using Spaced.token first (ends_nil kind) .nil
    | cons next kinds =>
      have later := Spaced.token first (ends_space kind _) (ih others).space
      simpa using later

/-- The tokens of rendered tokens with single spaces between them are those tokens, a semicolon if
the last of them can end a line, and the end of the file. -/
theorem lex_render {kinds : List TokenKind} (renderable : ∀ kind ∈ kinds, kind.renderable) :
    ∃ written stop, stop = (" ".intercalate (kinds.map render)).utf8ByteSize ∧
      lex (" ".intercalate (kinds.map render)) =
        .ok (written ++ (lineEnd (kinds.getLast?.any endsLine) stop ++ [⟨.eof, ⟨stop, stop⟩⟩])) ∧
      written.map (·.kind) = kinds ∧ ∀ token ∈ written, token.implicit = false := by
  have spaced := spaced_intercalate renderable
  obtain ⟨written, stop, isStop, isTokens, isKinds, covers⟩ := spaced.tokens_eq 0 false
  have isText : (" ".intercalate (kinds.map render)).toList =
      [' '].intercalate (kinds.map fun kind => kind.render.toList) := by
    rw [String.toList_intercalate, List.map_map]
    rfl
  have isLast : lastEnds false kinds = kinds.getLast?.any endsLine := by
    unfold lastEnds
    cases kinds.getLast? <;> rfl
  refine ⟨written, stop, ?_, ?_, isKinds, fun token mem => ?_⟩
  · rw [isStop, Nat.zero_add, ← isText, Text.byteLength_toList]
  · rw [lex, isText, lexChars_eq_ok_iff, ← isLast]
    exact ⟨spaced.accepted, isTokens⟩
  · simp [Token.implicit, (covers token mem).ne]

theorem lex_render_quotes :
    (∀ kind ∈ [TokenKind.string "\\\"\n", .operator .slash, .rune '\'', .int 18],
      kind.renderable) ∧
      ∃ written stop, stop = "\"\\\\\\\"\\n\" / '\\'' 18".utf8ByteSize ∧
        lex "\"\\\\\\\"\\n\" / '\\'' 18" =
          .ok (written ++ (lineEnd true stop ++ [⟨.eof, ⟨stop, stop⟩⟩])) ∧
        written.map (·.kind) = [.string "\\\"\n", .operator .slash, .rune '\'', .int 18] ∧
        ∀ token ∈ written, token.implicit = false := by
  have renderable : ∀ kind ∈ [TokenKind.string "\\\"\n", .operator .slash, .rune '\'', .int 18],
      kind.renderable := by decide
  have isText : " ".intercalate ([TokenKind.string "\\\"\n", .operator .slash, .rune '\'',
      .int 18].map render) = "\"\\\\\\\"\\n\" / '\\'' 18" := by decide +kernel
  have lexed := lex_render renderable
  rw [isText] at lexed
  exact ⟨renderable, lexed⟩

end Lexer

end GoFront
