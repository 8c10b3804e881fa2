import GoFront.Proofs.Lexer.Numeral
import GoFront.Proofs.Lexer.Rendering

/-!
What the quoted literals stand for. The text between double quotes is a string if and only if it is
made of units, each of which stands for one character; the text between single quotes is a rune if
and only if it is one unit. A raw string has no back quote in it and loses its carriage returns.
-/
namespace GoFront.Lexer

/-- The escapes of one letter in a literal with this delimiter, and what they stand for. -/
def letterEscapes (quote : Char) : List (Char × Char) :=
  [('a', '\x07'), ('b', '\x08'), ('f', '\x0c'), ('n', '\n'), ('r', '\r'), ('t', '\t'),
    ('v', '\x0b'), ('\\', '\\'), (quote, quote)]

/-- The letters of the hexadecimal escapes, and the number of digits behind them. -/
def hexEscapes : List (Char × Nat) := [('x', 2), ('u', 4), ('U', 8)]

/-- The text stands for one character in a literal with this delimiter. -/
inductive IsUnit (quote : Char) : List Char → Char → Prop where
  | plain {c : Char} (noQuote : c ≠ quote) (noBackslash : c ≠ '\\') (noFeed : c ≠ '\n') :
      IsUnit quote [c] c
  | letter {c value : Char} (known : (c, value) ∈ letterEscapes quote) :
      IsUnit quote ['\\', c] value
  | octal {digits : List Char} {value : Char} (three : digits.length = 3)
      (isCode : Denotes 8 digits value.toNat) (small : value.toNat ≤ 255) :
      IsUnit quote ('\\' :: digits) value
  | hex {letter : Char} {count : Nat} {digits : List Char} {value : Char}
      (known : (letter, count) ∈ hexEscapes) (full : digits.length = count)
      (isCode : Denotes 16 digits value.toNat) : IsUnit quote ('\\' :: letter :: digits) value

/-- The text is read as one token, which spans all of it; then the line ends, and the file. -/
def LexesAs (source : String) (kind : TokenKind) : Prop :=
  lex source = .ok [⟨kind, ⟨0, source.utf8ByteSize⟩⟩, Token.lineEnd source.utf8ByteSize,
    ⟨.eof, ⟨source.utf8ByteSize, source.utf8ByteSize⟩⟩]

/-! ### Escape sequences -/

section

variable {quote c value : Char} {rest more : List Char} (isQuote : quote ∈ ['"', '\''])

theorem charOfCode?_eq_some_iff {code : Nat} :
    charOfCode? code = some value ↔ value.toNat = code := by
  by_cases valid : code.isValidChar
  · rw [charOfCode?, dif_pos valid, Option.some.injEq]
    constructor
    · rintro rfl
      rfl
    · rintro rfl
      exact Char.toNat_inj.mp rfl
  · rw [charOfCode?, dif_neg valid]
    refine iff_of_false (by simp) ?_
    rintro rfl
    exact valid value.valid

theorem takeWhile_take_append {p : Char → Bool} {digits : List Char} (all : ∀ d ∈ digits, p d)
    (after : List Char) : ((digits ++ after).take digits.length).takeWhile p = digits := by
  rw [List.take_left, List.takeWhile_eq_self_iff]
  exact all

theorem length_digits_le (base count : Nat) (rest : List Char) :
    ((rest.take count).takeWhile (isDigitOf base)).length ≤ count :=
  (List.takeWhile_prefix _).length_le.trans (List.length_take_le count rest)

theorem hexEscapeDigits?_eq_some_iff {count : Nat} :
    hexEscapeDigits? c = some count ↔ (c, count) ∈ hexEscapes := by
  unfold hexEscapeDigits? hexEscapes
  grind

theorem hexEscapeDigits?_of_octal (octal : isDigitOf 8 c) : hexEscapeDigits? c = none := by
  unfold hexEscapeDigits?
  split_ifs <;> simp_all [isDigitOf]

theorem hexEscape_isUnit {count : Nat} (known : (c, count) ∈ hexEscapes)
    (valid : (hexEscape c count rest).meaning = .ok value) :
    IsUnit quote (hexEscape c count rest).text value := by
  unfold hexEscape at valid ⊢
  extract_lets digits meaning at valid
  have most : digits.length ≤ count := length_digits_le 16 count rest
  have hexadecimal : ∀ d ∈ digits, isDigitOf 16 d := fun d mem => List.mem_takeWhile_imp mem
  simp only [meaning] at valid
  split at valid
  next => simp at valid
  next full =>
    split at valid
    next found isChar =>
      obtain rfl := Except.ok.inj valid
      refine .hex known (Nat.le_antisymm most (Nat.not_lt.mp full))
        (denotes_iff.mpr ⟨hexadecimal, ?_⟩)
      exact (charOfCode?_eq_some_iff.mp isChar).symm
    next => simp at valid

theorem hexEscape_of_denotes {digits : List Char} (isCode : Denotes 16 digits value.toNat)
    (after : List Char) :
    hexEscape c digits.length (digits ++ after) = ⟨'\\' :: c :: digits, .ok value⟩ := by
  obtain ⟨hexadecimal, isValue⟩ := denotes_iff.mp isCode
  have isChar := charOfCode?_eq_some_iff.mpr isValue.symm
  simp only [hexEscape, takeWhile_take_append hexadecimal, Nat.lt_irrefl, if_false, isChar]

theorem octalEscape_isUnit (octal : isDigitOf 8 c)
    (valid : (octalEscape c rest).meaning = .ok value) :
    IsUnit quote (octalEscape c rest).text value := by
  unfold octalEscape at valid ⊢
  extract_lets digits code meaning at valid
  have most : digits.length ≤ 3 := Nat.succ_le_succ (length_digits_le 8 2 rest)
  have allOctal : ∀ d ∈ digits, isDigitOf 8 d :=
    List.forall_mem_cons.mpr ⟨octal, fun d mem => List.mem_takeWhile_imp mem⟩
  simp only [meaning] at valid
  split at valid
  next => simp at valid
  next full =>
    split at valid
    next => simp at valid
    next small =>
      obtain rfl := Except.ok.inj valid
      have isValue : (Char.ofNat code).toNat = code := by
        rw [Char.ofNat, dif_pos (.inl (by omega))]
        rfl
      refine .octal (Nat.le_antisymm most (Nat.not_lt.mp full))
        (denotes_iff.mpr ⟨allOctal, isValue.symm⟩) ?_
      rw [isValue]
      exact Nat.not_lt.mp small

theorem octalEscape_of_denotes {digits : List Char} (two : digits.length = 2)
    (isCode : Denotes 8 (c :: digits) value.toNat) (small : value.toNat ≤ 255) (after : List Char) :
    octalEscape c (digits ++ after) = ⟨'\\' :: c :: digits, .ok value⟩ := by
  obtain ⟨octal, isValue⟩ := denotes_iff.mp isCode
  have isDigits : ((digits ++ after).take 2).takeWhile (isDigitOf 8) = digits := by
    rw [← two]
    exact takeWhile_take_append (List.forall_mem_cons.mp octal).2 after
  simp only [octalEscape, isDigits, List.length_cons, two, Nat.lt_irrefl, if_false, isValue,
    Nat.not_lt.mpr small, Char.ofNat_toNat]

include isQuote

theorem simpleEscape?_eq_some_iff :
    simpleEscape? quote c = some value ↔ (c, value) ∈ letterEscapes quote := by
  simp only [letterEscapes, List.mem_cons, List.not_mem_nil, or_false, Prod.mk.injEq] at isQuote ⊢
  constructor
  · intro found
    unfold simpleEscape? at found
    split_ifs at found <;> cases found <;> simp_all
  · intro known
    rcases isQuote with rfl | rfl <;>
      rcases known with ⟨rfl, rfl⟩ | ⟨rfl, rfl⟩ | ⟨rfl, rfl⟩ | ⟨rfl, rfl⟩ | ⟨rfl, rfl⟩ |
        ⟨rfl, rfl⟩ | ⟨rfl, rfl⟩ | ⟨rfl, rfl⟩ | ⟨rfl, rfl⟩ <;> rfl

/-- What starts an escape with digits is no escape of one letter. -/
theorem simpleEscape?_eq_none (numeric : isDigitOf 8 c ∨ (hexEscapeDigits? c).isSome) :
    simpleEscape? quote c = none := by
  rw [Option.eq_none_iff_forall_ne_some]
  intro value found
  have known := (simpleEscape?_eq_some_iff isQuote).mp found
  have apart : (letterEscapes quote).all fun entry =>
      !isDigitOf 8 entry.1 && (hexEscapeDigits? entry.1).isNone := by
    simp only [List.mem_cons, List.not_mem_nil, or_false] at isQuote
    rcases isQuote with rfl | rfl <;> decide
  obtain ⟨noDigit, noHex⟩ : isDigitOf 8 c = false ∧ hexEscapeDigits? c = none := by
    simpa using List.all_eq_true.mp apart _ known
  simp [noDigit, noHex] at numeric

/-- An escape sequence without a fault is a unit. -/
theorem escape_isUnit (valid : (escape quote c rest).meaning = .ok value) :
    IsUnit quote (escape quote c rest).text value := by
  unfold escape at valid ⊢
  split
  next meaning simple =>
    obtain rfl : meaning = value := by simpa [simple] using valid
    exact .letter ((simpleEscape?_eq_some_iff isQuote).mp simple)
  next simple =>
    split
    next count hex =>
      simp only [simple, hex] at valid
      exact hexEscape_isUnit (hexEscapeDigits?_eq_some_iff.mp hex) valid
    next hex =>
      split
      next octal =>
        simp only [simple, hex, octal, if_true] at valid
        exact octalEscape_isUnit octal valid
      next octal => simp [simple, hex, octal] at valid

/-- A unit that starts with a backslash is an escape sequence, whatever follows it. -/
theorem escape_of_isUnit (isUnit : IsUnit quote ('\\' :: c :: more) value) (after : List Char) :
    escape quote c (more ++ after) = ⟨'\\' :: c :: more, .ok value⟩ := by
  unfold escape
  cases isUnit with
  | letter known => rw [(simpleEscape?_eq_some_iff isQuote).mpr known]
  | octal three isCode small =>
    have octal := (denotes_iff.mp isCode).1 c List.mem_cons_self
    have noLetter := simpleEscape?_eq_none isQuote (.inl octal)
    simp only [noLetter, hexEscapeDigits?_of_octal octal, octal, if_true]
    exact octalEscape_of_denotes (Nat.succ.inj three) isCode small after
  | hex known full isCode =>
    have hex := hexEscapeDigits?_eq_some_iff.mpr known
    have noLetter := simpleEscape?_eq_none isQuote (.inr (Option.isSome_of_eq_some hex))
    simp only [noLetter, hex, ← full]
    exact hexEscape_of_denotes isCode after

end

/-! ### Strings, runes and raw strings -/

theorem IsUnit.shape {quote value : Char} {text : List Char} (isUnit : IsUnit quote text value) :
    (text = [value] ∧ value ≠ quote ∧ value ≠ '\\' ∧ value ≠ '\n') ∨
      ∃ c more, text = '\\' :: c :: more := by
  cases isUnit with
  | plain noQuote noBackslash noFeed => exact .inl ⟨rfl, noQuote, noBackslash, noFeed⟩
  | letter known => exact .inr ⟨_, _, rfl⟩
  | @octal digits _ three =>
    cases digits with
    | nil => simp at three
    | cons c more => exact .inr ⟨c, more, rfl⟩
  | hex known => exact .inr ⟨_, _, rfl⟩

def elementOfUnit (unit : List Char × Char) : Element := ⟨unit.1, .ok unit.2⟩

theorem stringBody_units {units : List (List Char × Char)}
    (isUnits : ∀ unit ∈ units, IsUnit '"' unit.1 unit.2) :
    stringBody (units.flatMap Prod.fst ++ ['"']) = ⟨units.map elementOfUnit, ['"'], true⟩ := by
  induction units with
  | nil => simp [stringBody]
  | cons unit rest ih =>
    obtain ⟨text, value⟩ := unit
    obtain ⟨isUnit, later⟩ := List.forall_mem_cons.mp isUnits
    rw [List.flatMap_cons, List.append_assoc]
    dsimp only at isUnit ⊢
    rcases isUnit.shape with ⟨rfl, noQuote, noBackslash, noFeed⟩ | ⟨c, more, rfl⟩
    · rw [List.singleton_append, stringBody, ih later]
      · rfl
      all_goals simp_all
    · rw [List.cons_append, List.cons_append, stringBody, escape_of_isUnit (by decide) isUnit]
      simp [ih later, elementOfUnit]

theorem stringBody_isUnit {text : List Char} {element : Element} {value : Char}
    (mem : element ∈ (stringBody text).elements) (valid : element.meaning = .ok value) :
    IsUnit '"' element.text value := by
  fun_induction stringBody text with
  | case5 c rest element body ih =>
    rcases List.mem_cons.mp mem with rfl | later
    · exact escape_isUnit (by decide) valid
    · exact ih later
  | case6 c rest noFeed noQuote noEnd noEscape body ih =>
    rcases List.mem_cons.mp mem with rfl | later
    · obtain rfl := Except.ok.inj valid
      exact .plain noQuote (ne_backslash noEnd noEscape) noFeed
    · exact ih later
  | _ => simp at mem

theorem exists_units {quote : Char} {elements : List Element}
    (valid : ∀ element ∈ elements, ∃ value, element.meaning = .ok value)
    (isUnit : ∀ element ∈ elements, ∀ value, element.meaning = .ok value →
      IsUnit quote element.text value) :
    ∃ units : List (List Char × Char), (∀ unit ∈ units, IsUnit quote unit.1 unit.2) ∧
      units.map elementOfUnit = elements := by
  induction elements with
  | nil => exact ⟨[], by simp, rfl⟩
  | cons element rest ih =>
    obtain ⟨⟨value, meaning⟩, validLater⟩ := List.forall_mem_cons.mp valid
    obtain ⟨first, later⟩ := List.forall_mem_cons.mp isUnit
    obtain ⟨units, isUnits, rfl⟩ := ih validLater later
    refine ⟨(element.text, value) :: units,
      List.forall_mem_cons.mpr ⟨first value meaning, isUnits⟩, ?_⟩
    rw [List.map_cons, elementOfUnit, ← meaning]

theorem flatMap_elementOfUnit (units : List (List Char × Char)) :
    (units.map elementOfUnit).flatMap (·.text) = units.flatMap Prod.fst := by
  rw [List.flatMap_map]
  rfl

theorem meanings_elementOfUnit (units : List (List Char × Char)) :
    meanings (units.map elementOfUnit) = units.map Prod.snd := by
  rw [meanings, List.filterMap_map, ← List.filterMap_eq_map]
  rfl

theorem scanString_units {units : List (List Char × Char)}
    (isUnits : ∀ unit ∈ units, IsUnit '"' unit.1 unit.2) :
    scanString (units.flatMap Prod.fst ++ ['"']) =
      ⟨'"' :: units.flatMap Prod.fst ++ ['"'],
        .ok (.string (String.ofList (units.map Prod.snd)))⟩ := by
  have clean : elementFindings 1 (units.map elementOfUnit) = [] := by
    apply elementFindings_of_valid
    intro element mem
    obtain ⟨unit, -, rfl⟩ := List.mem_map.mp mem
    exact ⟨unit.2, rfl⟩
  simp only [scanString, stringBody_units isUnits, clean, flatMap_elementOfUnit,
    meanings_elementOfUnit, if_true, List.append_nil]

theorem scanString_text (rest : List Char) :
    (scanString rest).text =
      '"' :: (stringBody rest).elements.flatMap (·.text) ++ (stringBody rest).tail := by
  unfold scanString
  extract_lets body text unterminated
  split <;> rfl

/-- A piece of text is a string if and only if units stand between its quotes. -/
theorem scanString_eq_iff {body : List Char} {value : String} :
    scanString (body ++ ['"']) = ⟨'"' :: body ++ ['"'], .ok (.string value)⟩ ↔
      ∃ units : List (List Char × Char), (∀ unit ∈ units, IsUnit '"' unit.1 unit.2) ∧
        body = units.flatMap Prod.fst ∧ value.toList = units.map Prod.snd := by
  constructor
  · intro scanned
    obtain ⟨closed, valid⟩ := scanString_valid (congrArg Piece.result scanned)
    obtain ⟨units, isUnits, isElements⟩ :=
      exists_units valid fun element mem value meaning => stringBody_isUnit mem meaning
    have isText := congrArg Piece.text scanned
    rw [scanString_text, stringBody_closed closed, ← isElements, flatMap_elementOfUnit] at isText
    obtain rfl : units.flatMap Prod.fst = body := by simpa using isText
    refine ⟨units, isUnits, rfl, ?_⟩
    rw [scanString_units isUnits] at scanned
    have isValue : String.ofList (units.map Prod.snd) = value := by simpa using scanned
    rw [← isValue, String.toList_ofList]
  · rintro ⟨units, isUnits, rfl, isValue⟩
    rw [scanString_units isUnits, ← isValue, String.ofList_toList]

theorem closeRune_eq_iff {element : Element} {rest body : List Char} {value : Char} :
    closeRune element rest = ⟨'\'' :: body ++ ['\''], .ok (.rune value)⟩ ↔
      element = ⟨body, .ok value⟩ ∧ ∃ more, rest = '\'' :: more := by
  obtain ⟨text, meaning⟩ := element
  unfold closeRune
  split
  next more => cases meaning <;> simp
  next other => simpa using fun _ _ => other

/-- A piece of text is a rune if and only if one unit stands between its quotes. -/
theorem scanRune_eq_iff {body : List Char} {value : Char} :
    scanRune (body ++ ['\'']) = ⟨'\'' :: body ++ ['\''], .ok (.rune value)⟩ ↔
      IsUnit '\'' body value := by
  constructor
  · intro scanned
    unfold scanRune at scanned
    split at scanned
    case h_5 c rest split =>
      obtain ⟨isElement, -⟩ := closeRune_eq_iff.mp scanned
      have isUnit := escape_isUnit (by decide) (congrArg Element.meaning isElement)
      rwa [isElement] at isUnit
    case h_6 c rest noQuote noFeed noEnd noEscape split =>
      obtain ⟨isElement, -⟩ := closeRune_eq_iff.mp scanned
      obtain ⟨rfl, isValue⟩ := Element.mk.inj isElement
      obtain rfl := Except.ok.inj isValue
      exact .plain noQuote (ne_backslash noEnd noEscape) noFeed
    all_goals simp at scanned
  · intro isUnit
    rcases isUnit.shape with ⟨rfl, noQuote, noBackslash, noFeed⟩ | ⟨c, more, rfl⟩
    · rw [List.singleton_append, scanRune]
      · exact closeRune_eq_iff.mpr ⟨rfl, [], rfl⟩
      all_goals simp_all
    · rw [List.cons_append, List.cons_append, scanRune, escape_of_isUnit (by decide) isUnit]
      refine closeRune_eq_iff.mpr ⟨rfl, [], ?_⟩
      simp

/-- A piece of text is a raw string if and only if no back quote stands between its quotes. -/
theorem scanRawString_eq_iff {body : List Char} {value : String} :
    scanRawString (body ++ [backQuote]) =
        ⟨backQuote :: body ++ [backQuote], .ok (.string value)⟩ ↔
      backQuote ∉ body ∧ value.toList = body.filter (· ≠ '\r') := by
  have isBody : (body ++ [backQuote]).takeWhile (· ≠ backQuote) = body.takeWhile (· ≠ backQuote) :=
    takeWhile_stop (by simp) body []
  have closes : (body.takeWhile (· ≠ backQuote)).length < (body ++ [backQuote]).length := by
    rw [List.length_append]
    exact Nat.lt_succ_of_le (List.takeWhile_prefix _).length_le
  simp only [scanRawString, isBody, if_pos closes]
  constructor
  · intro scanned
    obtain ⟨isText, isValue⟩ := Piece.mk.inj scanned
    have whole : body.takeWhile (· ≠ backQuote) = body := by simpa using isText
    rw [whole] at isValue
    have isString : String.ofList (body.filter (· ≠ '\r')) = value := by simpa using isValue
    refine ⟨fun mem => ?_, by rw [← isString, String.toList_ofList]⟩
    rw [← whole] at mem
    simpa using List.mem_takeWhile_imp mem
  · rintro ⟨noQuote, isValue⟩
    have whole : body.takeWhile (· ≠ backQuote) = body := by
      rw [List.takeWhile_eq_self_iff]
      intro c mem
      have : c ≠ backQuote := fun same => noQuote (same ▸ mem)
      simpa using this
    rw [whole, ← isValue, String.ofList_toList]

/-! ### Texts that are one token -/

theorem eq_nil_of_byteLength {text : List Char} (empty : Text.byteLength text = 0) : text = [] := by
  by_contra nonempty
  exact absurd (byteLength_pos nonempty) (by omega)

theorem lexesAs_iff {source : String} {c : Char} {rest : List Char} {piece : Piece TokenKind}
    {kind : TokenKind} (isSource : source.toList = c :: rest) (scanned : scan c rest = piece.token)
    (ends : kind.endsLine) : LexesAs source kind ↔ piece = ⟨c :: rest, .ok kind⟩ := by
  obtain ⟨after, split⟩ := (scan_cuts c rest).front
  have length : source.utf8ByteSize = Text.byteLength piece.text + Text.byteLength after := by
    rw [← Text.byteLength_toList, isSource, ← split, scanned, Text.byteLength_append]
    rfl
  have cut : pieces source.toList = piece.token :: pieces after := by
    rw [isSource, pieces_cons split.symm, scanned]
  rw [scanned] at split
  obtain ⟨text, result⟩ := piece
  constructor
  · intro lexed
    obtain ⟨accepted, isTokens⟩ := lexChars_eq_ok_iff.mp lexed
    rw [cut] at accepted isTokens
    obtain ⟨lexeme, isOk⟩ := accepted _ List.mem_cons_self
    cases result with
    | error found => simp [Piece.token, Except.map] at isOk
    | ok found =>
      simp only [tokens, Piece.token, Except.map, List.cons.injEq, Token.mk.injEq, Span.mk.injEq,
        Nat.zero_add, true_and] at isTokens
      obtain ⟨⟨rfl, whole⟩, -⟩ := isTokens
      have noRest : after = [] := eq_nil_of_byteLength (by simp only at length; omega)
      rw [noRest, List.append_nil] at split
      exact congrArg (Piece.mk · (.ok found)) split
  · rintro same
    obtain ⟨rfl, rfl⟩ := Piece.mk.inj same
    have noRest : after = [] := by simpa [Piece.token] using split
    rw [noRest, Text.byteLength_nil, Nat.add_zero] at length
    refine lexChars_eq_ok_iff.mpr ⟨?_, ?_⟩
    · rw [cut, noRest]
      simp [pieces, Piece.Accepted, Piece.token, Except.map]
    · rw [cut, noRest]
      simp [tokens, pieces, Piece.token, Except.map, lineEnd, ends, length]

/-- The number that the digits stand for is the same when it is summed up in 32 bits. -/
def Fits32 (base : Nat) (digits : List Char) : Prop :=
  ∃ code, positional32? base digits = some code ∧ code.toNat = positional base digits

theorem hexEscape_fits {letter : Char} {count : Nat} (known : (letter, count) ∈ hexEscapes)
    (rest : List Char) : Fits32 16 ((rest.take count).takeWhile (isDigitOf 16)) := by
  have most : ∀ entry ∈ hexEscapes, entry.2 ≤ 8 := by decide
  have short := (length_digits_le 16 count rest).trans (most _ known)
  apply positional32?_eq_some fun d mem => List.mem_takeWhile_imp mem
  exact (Nat.pow_le_pow_right (by decide) short).trans (by decide)

theorem octalEscape_fits {first : Char} (octal : isDigitOf 8 first) (rest : List Char) :
    Fits32 8 (first :: (rest.take 2).takeWhile (isDigitOf 8)) := by
  have short := Nat.succ_le_succ (length_digits_le 8 2 rest)
  refine positional32?_eq_some ?_ ?_
  · exact List.forall_mem_cons.mpr ⟨octal, fun d mem => List.mem_takeWhile_imp mem⟩
  · exact (Nat.pow_le_pow_right (by decide) short).trans (by decide)

theorem escape_hex_fits (quote : Char) {letter : Char} (isLetter : letter ∈ ['x', 'u', 'U'])
    (rest : List Char) : Fits32 16 ((escape quote letter rest).text.drop 2) := by
  unfold escape
  split
  next => exact ⟨0, rfl, rfl⟩
  next =>
    split
    next count hex => exact hexEscape_fits (hexEscapeDigits?_eq_some_iff.mp hex) rest
    next noHex =>
      simp only [List.mem_cons, List.not_mem_nil, or_false] at isLetter
      rcases isLetter with rfl | rfl | rfl <;> simp [hexEscapeDigits?] at noHex

theorem escape_octal_fits (quote : Char) {first : Char} (octal : isDigitOf 8 first)
    (rest : List Char) : Fits32 8 ((escape quote first rest).text.drop 1) := by
  unfold escape
  split
  next => exact octalEscape_fits octal []
  next =>
    simp only [hexEscapeDigits?_of_octal octal, octal, if_true]
    exact octalEscape_fits octal rest

/-- A text between double quotes is a string if and only if it is made of units, whose characters
are the value. A text between single quotes is a rune if and only if it is one unit. A text between
back quotes is a raw string if and only if it has none, and its value is the text without carriage
returns. The code of an escape sequence is summed up in 32 bits without an overflow. -/
theorem lex_quoted (body value : String) (c : Char) :
    (LexesAs ("\"" ++ body ++ "\"") (.string value) ↔
      ∃ units : List (List Char × Char), (∀ unit ∈ units, IsUnit '"' unit.1 unit.2) ∧
        body.toList = units.flatMap Prod.fst ∧ value.toList = units.map Prod.snd) ∧
    (LexesAs ("'" ++ body ++ "'") (.rune c) ↔ IsUnit '\'' body.toList c) ∧
    (LexesAs ("\x60" ++ body ++ "\x60") (.string value) ↔
      backQuote ∉ body.toList ∧ value.toList = body.toList.filter (· ≠ '\r')) ∧
    (∀ quote rest, ∀ letter ∈ ['x', 'u', 'U'],
      Fits32 16 ((escape quote letter rest).text.drop 2)) ∧
    ∀ quote rest first, isDigitOf 8 first → Fits32 8 ((escape quote first rest).text.drop 1) := by
  have around : ∀ quote : String, (quote ++ body ++ quote).toList =
      quote.toList ++ body.toList ++ quote.toList := by simp
  refine ⟨?_, ?_, ?_, fun quote rest letter isLetter => escape_hex_fits quote isLetter rest,
    fun quote rest first octal => escape_octal_fits quote octal rest⟩
  · rw [lexesAs_iff (around "\"") rfl rfl]
    exact scanString_eq_iff
  · rw [lexesAs_iff (around "'") rfl rfl]
    exact scanRune_eq_iff
  · rw [lexesAs_iff (around "\x60") rfl rfl]
    exact scanRawString_eq_iff

theorem lex_quoted_escapes :
    LexesAs ("\"" ++ "a\\303\\u00e9" ++ "\"") (.string "aÃé") ∧
      LexesAs ("'" ++ "\\'" ++ "'") (.rune '\'') ∧
      LexesAs ("\x60" ++ "a\r\n\\" ++ "\x60") (.string "a\n\\") ∧
      Fits32 16 ((escape '"' 'U' "FFFFFFFF".toList).text.drop 2) ∧
      Fits32 8 ((escape '"' '7' "77".toList).text.drop 1) := by
  have isUnits : ∀ unit ∈ [(['a'], 'a'), ("\\303".toList, 'Ã'), ("\\u00e9".toList, 'é')],
      IsUnit '"' unit.1 unit.2 := by
    simp only [List.forall_mem_cons, List.not_mem_nil, false_imp_iff, implies_true, and_true]
    refine ⟨.plain (by decide) (by decide) (by decide), ?_, ?_⟩
    · exact .octal rfl (denotes_iff.mpr ⟨List.all_eq_true.mp (by decide), by decide⟩) (by decide)
    · exact .hex (by decide) rfl (denotes_iff.mpr ⟨List.all_eq_true.mp (by decide), by decide⟩)
  obtain ⟨string, -, -, hex, octal⟩ := lex_quoted "a\\303\\u00e9" "aÃé" 'a'
  obtain ⟨-, rune, -⟩ := lex_quoted "\\'" "" '\''
  obtain ⟨-, -, raw, -⟩ := lex_quoted "a\r\n\\" "a\n\\" 'a'
  refine ⟨string.mpr ⟨_, isUnits, by decide, by decide⟩, rune.mpr (.letter (by decide)),
    raw.mpr (by decide), hex _ _ 'U' (by decide), octal _ _ '7' (by decide)⟩

end GoFront.Lexer
