import GoFront.Proofs.Decimal.Numeral
import GoFront.Proofs.Lexer.Integers

/-!
What the scanner of numbers reads as a double. By then the text without its underscores is always a
decimal numeral, so that no float is refused as malformed.
-/
namespace GoFront.Lexer

/-- What becomes of a piece that is read as a double: a float or an imaginary number with the value
of the numeral that is written, and never a malformed float. -/
structure Piece.FloatsRead (piece : Piece Lexeme) : Prop where
  float : ∀ value, piece.result = .ok (.token (.float value)) →
    ∃ n : Numeral, plain piece.text = n.text ∧ n.value = value
  imaginary : ∀ value, piece.result = .ok (.token (.imaginary value)) →
    ∃ (written : List Char) (n : Numeral), piece.text = written ++ ['i'] ∧
      plain written = n.text ∧ n.value = value
  formed : ∀ found, piece.result = .error found → ∀ finding ∈ found, ∀ numeral,
    finding.value ≠ .malformedFloat numeral

/-! ### Pieces that are not read as doubles -/

/-- A lexeme other than a float and an imaginary number. -/
def NoFloat (lexeme : Lexeme) : Prop :=
  ∀ value, lexeme ≠ .token (.float value) ∧ lexeme ≠ .token (.imaginary value)

/-- A fault other than a malformed float. -/
def Formed (fault : Fault) : Prop := ∀ numeral, fault ≠ .malformedFloat numeral

theorem floatsRead_of_ok (text : List Char) {lexeme : Lexeme} (noFloat : NoFloat lexeme) :
    (⟨text, .ok lexeme⟩ : Piece Lexeme).FloatsRead := by
  refine ⟨fun value same => ?_, fun value same => ?_, fun found refused => ?_⟩
  · exact absurd (Except.ok.inj same) (noFloat value).1
  · exact absurd (Except.ok.inj same) (noFloat value).2
  · simp at refused

theorem floatsRead_of_error (text : List Char) {found : List Finding}
    (formed : ∀ finding ∈ found, Formed finding.value) :
    (⟨text, .error found⟩ : Piece Lexeme).FloatsRead := by
  refine ⟨by simp, by simp, fun other refused => ?_⟩
  obtain rfl := Except.error.inj refused
  exact formed

theorem refused_floatsRead (text : List Char) {fault : Fault} (formed : Formed fault) :
    (refused text fault : Piece Lexeme).FloatsRead :=
  floatsRead_of_error text (by simpa using formed)

theorem scanSign_floatsRead (c : Char) (rest : List Char) : (scanSign c rest).FloatsRead := by
  have known : ∀ entry ∈ signs, NoFloat (.token entry.2) := by
    intro entry mem
    rcases List.mem_append.mp mem with operator | punctuation
    · obtain ⟨sign, -, rfl⟩ := List.mem_map.mp operator
      simp [NoFloat]
    · obtain ⟨sign, -, rfl⟩ := List.mem_map.mp punctuation
      simp [NoFloat]
  rw [scanSign_eq]
  split
  next text kind found =>
    exact floatsRead_of_ok text (known _ (LongestSign.of_found found).known)
  next => exact refused_floatsRead [c] (by simp [Formed])

theorem escape_formed {quote c : Char} {rest : List Char} {fault : Fault}
    (isFault : (escape quote c rest).meaning = .error fault) : Formed fault := by
  unfold escape hexEscape octalEscape at isFault
  grind [Formed]

theorem elementFindings_formed {elements : List Element}
    (formed : ∀ element ∈ elements, ∀ fault, element.meaning = .error fault → Formed fault)
    (offset : Nat) : ∀ finding ∈ elementFindings offset elements, Formed finding.value := by
  induction elements generalizing offset with
  | nil => simp [elementFindings]
  | cons element rest ih =>
    obtain ⟨first, later⟩ := List.forall_mem_cons.mp formed
    unfold elementFindings
    cases meaning : element.meaning with
    | ok c => exact ih later _
    | error fault => exact List.forall_mem_cons.mpr ⟨first fault meaning, ih later _⟩

theorem stringBody_formed (text : List Char) :
    ∀ element ∈ (stringBody text).elements, ∀ fault, element.meaning = .error fault →
      Formed fault := by
  fun_induction stringBody text with
  | case5 c rest element body ih =>
    exact List.forall_mem_cons.mpr ⟨fun fault isFault => escape_formed isFault, ih⟩
  | case6 c rest body _ _ _ _ ih => exact List.forall_mem_cons.mpr ⟨by simp, ih⟩
  | _ => simp

theorem scanString_floatsRead (rest : List Char) : (scanString rest).token.FloatsRead := by
  unfold scanString
  extract_lets body text unterminated
  have formed : ∀ finding ∈ elementFindings 1 body.elements ++ unterminated,
      Formed finding.value := by
    refine List.forall_mem_append.mpr ⟨elementFindings_formed (stringBody_formed rest) 1, ?_⟩
    show ∀ finding ∈ (if body.closed then [] else _ : List Finding), Formed finding.value
    split <;> simp [Formed]
  split
  · exact floatsRead_of_ok text (by simp [NoFloat])
  · exact floatsRead_of_error text formed

theorem scanRawString_floatsRead (rest : List Char) : (scanRawString rest).token.FloatsRead := by
  unfold scanRawString
  extract_lets body text
  split
  · exact floatsRead_of_ok _ (by simp [NoFloat])
  · exact floatsRead_of_error text (by simp [Formed])

theorem closeRune_floatsRead {element : Element}
    (formed : ∀ fault, element.meaning = .error fault → Formed fault) (rest : List Char) :
    (closeRune element rest).token.FloatsRead := by
  have found := elementFindings_formed (by simpa using formed : ∀ other ∈ [element], _) 1
  unfold closeRune
  split
  · extract_lets text
    split
    · exact floatsRead_of_ok text (by simp [NoFloat])
    · exact floatsRead_of_error text found
  · refine floatsRead_of_error _ (List.forall_mem_append.mpr ⟨found, ?_⟩)
    simp [Formed]

theorem scanRune_floatsRead (rest : List Char) : (scanRune rest).token.FloatsRead := by
  unfold scanRune
  split
  case h_5 c rest => exact closeRune_floatsRead (fun _ isFault => escape_formed isFault) _
  case h_6 c rest _ _ _ _ => exact closeRune_floatsRead (by simp) rest
  all_goals exact floatsRead_of_error _ (by simp [Formed])

theorem scanSlash_floatsRead (rest : List Char) : (scanSlash rest).FloatsRead := by
  unfold scanSlash
  split
  · exact floatsRead_of_ok _ (by simp [NoFloat])
  · unfold scanComment
    split
    · refine floatsRead_of_ok _ ?_
      split <;> simp [NoFloat]
    · exact refused_floatsRead _ (by simp [Formed])
  · exact scanSign_floatsRead '/' rest

/-! ### Numbers -/

theorem rejectSuffix_floatsRead {accept : Piece TokenKind} (read : accept.token.FloatsRead)
    (text rest : List Char) : (rejectSuffix text rest accept).token.FloatsRead := by
  unfold rejectSuffix
  split
  · exact read
  · exact refused_floatsRead _ (by simp [Formed])

theorem integer_floatsRead (text : List Char) (base : Nat) (digits : List Char) :
    (integer text base digits).token.FloatsRead := by
  unfold integer
  extract_lets value
  split
  · exact floatsRead_of_ok text (by simp [NoFloat])
  · exact refused_floatsRead text (by simp [Formed])

theorem decimalInteger_floatsRead (text : List Char) : (decimalInteger text).token.FloatsRead := by
  unfold decimalInteger
  split
  · split
    · exact refused_floatsRead text (by simp [Formed])
    · exact integer_floatsRead text 8 _
  · exact integer_floatsRead text 10 _

theorem scanMarked_floatsRead (mark : Char) (base : Nat) (rest : List Char) :
    (scanMarked mark base rest).token.FloatsRead := by
  apply rejectSuffix_floatsRead
  split
  · exact refused_floatsRead _ (by simp [Formed])
  · exact integer_floatsRead _ base _

theorem floatToken_numeral (text : List Char) {written : List Char} {n : Numeral}
    (isNumeral : plain written = n.text) (token : Binary64 → TokenKind) :
    floatToken text written token = ⟨text, .ok (token n.value)⟩ := by
  simp [floatToken, isNumeral, Binary64.ofText?_text]

theorem float_floatsRead {text : List Char} {n : Numeral} (isNumeral : plain text = n.text) :
    (floatToken text text .float).token.FloatsRead := by
  rw [floatToken_numeral text isNumeral]
  refine ⟨fun value same => ⟨n, isNumeral, ?_⟩, fun value same => ?_, fun found refused => ?_⟩
  · simpa [Piece.token, Except.map] using same
  · simp [Piece.token, Except.map] at same
  · simp [Piece.token, Except.map] at refused

theorem imaginary_floatsRead {written : List Char} {n : Numeral}
    (isNumeral : plain written = n.text) :
    (floatToken (written ++ ['i']) written .imaginary).token.FloatsRead := by
  rw [floatToken_numeral _ isNumeral]
  refine ⟨fun value same => ?_, fun value same => ⟨written, n, rfl, isNumeral, ?_⟩,
    fun found refused => ?_⟩
  · simp [Piece.token, Except.map] at same
  · simpa [Piece.token, Except.map] using same
  · simp [Piece.token, Except.map] at refused

theorem finishDecimal_floatsRead {d : DecimalText} {n : Numeral} (isNumeral : plain d.text = n.text)
    (rest : List Char) : (finishDecimal d rest).token.FloatsRead := by
  unfold finishDecimal
  split
  next rest => exact rejectSuffix_floatsRead (imaginary_floatsRead isNumeral) _ rest
  next =>
    apply rejectSuffix_floatsRead
    split
    · exact float_floatsRead isNumeral
    · exact decimalInteger_floatsRead d.text

/-! ### The text that is read -/

theorem isDigit_of_isDigitOf {c : Char} (digit : isDigitOf 10 c) : c.isDigit := by
  unfold isDigitOf at digit
  simp only [Char.isDigit, Bool.and_eq_true, decide_eq_true_eq, UInt32.le_iff_toNat_le]
  grind [Char.toNat]

theorem plain_append (front rest : List Char) : plain (front ++ rest) = plain front ++ plain rest :=
  List.filter_append ..

theorem allDigits_plain {run : List Char} (all : ∀ c ∈ run, isNumeral 10 c) :
    (plain run).all Char.isDigit :=
  List.all_eq_true.mpr fun c mem => isDigit_of_isDigitOf (isDigitOf_of_mem_plain all c mem)

theorem mem_plain_of_digit {text : List Char} {c : Char} (mem : c ∈ text) (digit : isDigitOf 10 c) :
    c ∈ plain text := by
  refine mem_plain.mpr ⟨mem, ?_⟩
  rintro rfl
  simp [isDigitOf] at digit

theorem takeWhile_numeral (text : List Char) :
    ∀ c ∈ text.takeWhile (isNumeral 10), isNumeral 10 c :=
  fun _ mem => List.mem_takeWhile_imp mem

theorem fractionOf_plain (rest : List Char) :
    ∃ decimals : Option (List Char), (decimals.getD []).all Char.isDigit ∧
      plain (fractionOf rest) = decimals.elim [] ('.' :: ·) := by
  unfold fractionOf
  split
  next more =>
    exact ⟨some (plain (more.takeWhile (isNumeral 10))), allDigits_plain (takeWhile_numeral more),
      rfl⟩
  next => exact ⟨none, rfl, rfl⟩

theorem plain_run_ne_nil {digit : Char} (isDigit : isDigitOf 10 digit) (more : List Char) :
    plain ((digit :: more).takeWhile (isNumeral 10)) ≠ [] := by
  have first : digit ∈ (digit :: more).takeWhile (isNumeral 10) := by
    simp [isNumeral, isDigit]
  exact List.ne_nil_of_mem (mem_plain_of_digit first isDigit)

/-- A letter and a sign with digits after them are an exponent. -/
theorem exponent_of_digits {letter digit : Char} {sign : List Char} (isDigit : isDigitOf 10 digit)
    (isLetter : letter = 'e' ∨ letter = 'E') (isSign : sign = [] ∨ sign = ['+'] ∨ sign = ['-'])
    (more : List Char) :
    ∃ e : Exponent, plain (letter :: (sign ++ (digit :: more).takeWhile (isNumeral 10))) = e.text := by
  refine ⟨⟨letter, sign, plain ((digit :: more).takeWhile (isNumeral 10)), isLetter, isSign,
    allDigits_plain (takeWhile_numeral _), plain_run_ne_nil isDigit more⟩, ?_⟩
  have kept : plain (letter :: sign) = letter :: sign := by
    rcases isLetter with rfl | rfl <;> rcases isSign with rfl | rfl | rfl <;> rfl
  rw [← List.cons_append, plain_append, kept]
  rfl

/-- There is no exponent, or its digits are missing, or they follow a letter and perhaps a sign. -/
theorem scanExponent_cases (rest : List Char) :
    scanExponent rest = ([], []) ∨
      (scanExponent rest).1 ≠ [] ∧ (scanExponent rest).2 = [] ∨
      ∃ letter sign digit more, (letter = 'e' ∨ letter = 'E') ∧
        (sign = [] ∨ sign = ['+'] ∨ sign = ['-']) ∧ isDigitOf 10 digit ∧
        scanExponent rest = (letter :: sign, (digit :: more).takeWhile (isNumeral 10)) := by
  unfold scanExponent
  split
  next letter rest =>
    split
    next isLetter =>
      have letters : letter = 'e' ∨ letter = 'E' := by simpa using isLetter
      split
      rename_i mark tail isMark
      have marks : ∃ sign, (sign = [] ∨ sign = ['+'] ∨ sign = ['-']) ∧ mark = letter :: sign := by
        split at isMark
        next sign more =>
          split at isMark
          next isSign =>
            obtain ⟨rfl, -⟩ := Prod.mk.inj isMark
            exact ⟨[sign], .inr (by simpa using isSign), rfl⟩
          next => exact ⟨[], .inl rfl, (Prod.mk.inj isMark).1.symm⟩
        next => exact ⟨[], .inl rfl, (Prod.mk.inj isMark).1.symm⟩
      obtain ⟨sign, isSign, rfl⟩ := marks
      split
      · split
        next digit more isDigit =>
          exact .inr (.inr ⟨letter, sign, digit, more, letters, isSign, isDigit, rfl⟩)
        · exact .inr (.inl ⟨by simp, rfl⟩)
      · exact .inr (.inl ⟨by simp, rfl⟩)
    · exact .inl rfl
  · exact .inl rfl

/-- The exponent that is scanned is one, unless the digits are missing after its letter. -/
theorem scanExponent_plain (rest : List Char)
    (complete : ¬((scanExponent rest).1 ≠ [] ∧ (scanExponent rest).2 = [])) :
    ∃ exponent : Option Exponent,
      plain ((scanExponent rest).1 ++ (scanExponent rest).2) = exponent.elim [] Exponent.text := by
  rcases scanExponent_cases rest with nothing | missing | scanned
  · exact ⟨none, by rw [nothing]; rfl⟩
  · exact absurd missing complete
  · obtain ⟨letter, sign, digit, more, isLetter, isSign, isDigit, same⟩ := scanned
    obtain ⟨e, isText⟩ := exponent_of_digits isDigit isLetter isSign more
    exact ⟨some e, by rw [same]; exact isText⟩

theorem scanDecimal_floatsRead {whole rest : List Char} (run : ∀ c ∈ whole, isNumeral 10 c)
    (hasDigit : ∃ c ∈ whole ++ fractionOf rest, isDigitOf 10 c) :
    (scanDecimal whole rest).token.FloatsRead := by
  rw [scanDecimal_eq]
  extract_lets more exponent number
  split
  next => exact refused_floatsRead _ (by simp [Formed])
  next complete =>
    obtain ⟨decimals, areDigits, isFraction⟩ := fractionOf_plain rest
    obtain ⟨power, isPower⟩ := scanExponent_plain more complete
    have allDigits : (plain whole ++ decimals.getD []).all Char.isDigit := by
      rw [List.all_append, allDigits_plain run, areDigits]
      rfl
    have someDigit : plain whole ++ decimals.getD [] ≠ [] := by
      obtain ⟨c, mem, digit⟩ := hasDigit
      have kept := mem_plain_of_digit mem digit
      rw [plain_append, isFraction] at kept
      intro empty
      obtain ⟨noWhole, noDecimals⟩ := List.append_eq_nil_iff.mp empty
      cases decimals with
      | none => simp [noWhole] at kept
      | some decimals =>
        obtain rfl : decimals = [] := noDecimals
        obtain rfl : c = '.' := by simpa [noWhole] using kept
        simp [isDigitOf] at digit
    have isNumeral : plain number.text =
        (⟨plain whole, decimals, power, allDigits, someDigit⟩ : Numeral).text := by
      show plain (whole ++ fractionOf rest ++ (exponent.1 ++ exponent.2)) = _
      rw [plain_append, plain_append, isFraction, isPower, List.append_assoc]
      rfl
    exact finishDecimal_floatsRead isNumeral _

theorem scanNumber_floatsRead {first : Char} (digit : isDigitOf 10 first) (rest : List Char) :
    (scanNumber first rest).token.FloatsRead := by
  have unmarked : (scanUnmarked first rest).token.FloatsRead := by
    apply scanDecimal_floatsRead
    · exact List.forall_mem_cons.mpr ⟨by simp [isNumeral, digit], takeWhile_numeral rest⟩
    · exact ⟨first, List.mem_cons_self, digit⟩
  rw [scanNumber_eq]
  split
  · split
    · exact scanMarked_floatsRead _ _ _
    · exact unmarked
  · exact unmarked

theorem scanDot_floatsRead (rest : List Char) : (scanDot rest).FloatsRead := by
  unfold scanDot
  split
  next digit more =>
    split
    next isDigit =>
      apply scanDecimal_floatsRead (by simp)
      exact ⟨digit, by simp [fractionOf, isNumeral, isDigit], isDigit⟩
    next => exact scanSign_floatsRead '.' _
  next => exact scanSign_floatsRead '.' []

/-! ### The pieces of a text -/

theorem wordKind_noFloat (word : List Char) : NoFloat (.token (wordKind word)) := by
  unfold wordKind
  split <;> simp [NoFloat]

theorem scan_floatsRead (c : Char) (rest : List Char) : (scan c rest).FloatsRead := by
  have chosen := scan_chooses c
  generalize scan c = scanner at chosen ⊢
  cases chosen with
  | space | feed => exact floatsRead_of_ok [c] (by simp [NoFloat])
  | slash => exact scanSlash_floatsRead rest
  | dot => exact scanDot_floatsRead rest
  | string => exact scanString_floatsRead rest
  | rawString => exact scanRawString_floatsRead rest
  | rune => exact scanRune_floatsRead rest
  | number isDigit => exact scanNumber_floatsRead isDigit rest
  | word => exact floatsRead_of_ok _ (wordKind_noFloat _)
  | sign => exact scanSign_floatsRead c rest

theorem pieces_floatsRead (text : List Char) : ∀ piece ∈ pieces text, piece.FloatsRead := by
  induction text using pieces_induction with
  | nil => simp [pieces]
  | cons c rest after split ih =>
    rw [pieces_cons split]
    exact List.forall_mem_cons.mpr ⟨scan_floatsRead c rest, ih⟩

theorem findings_formed {cut : List (Piece Lexeme)} (read : ∀ piece ∈ cut, piece.FloatsRead)
    (offset : Nat) : ∀ finding ∈ findings offset cut, Formed finding.value := by
  induction cut generalizing offset with
  | nil => simp [findings]
  | cons piece rest ih =>
    obtain ⟨first, later⟩ := List.forall_mem_cons.mp read
    unfold findings
    extract_lets behind
    cases result : piece.result with
    | ok lexeme => exact ih later _
    | error found =>
      refine List.forall_mem_append.mpr ⟨?_, ih later _⟩
      intro finding mem
      obtain ⟨original, isOriginal, rfl⟩ := List.mem_map.mp mem
      exact first.formed found result original isOriginal

/-- No source text has a malformed float in it. Whatever is read as a double, be it a float or an
imaginary number, is a decimal numeral when its underscores are dropped, and the value of that
numeral is the value of the token. -/
theorem lex_floats (source : String) :
    (∀ found, lex source = .error found → ∀ finding ∈ found, ∀ numeral,
      finding.value ≠ .malformedFloat numeral) ∧
    ∀ piece ∈ pieces source.toList, piece.FloatsRead := by
  have read := pieces_floatsRead source.toList
  refine ⟨fun found refused => ?_, read⟩
  have formed := findings_formed read 0
  unfold lex lexChars at refused
  split at refused
  · simp at refused
  · obtain rfl := Except.error.inj refused
    exact formed

/-- Underscores around the point and before the suffix. -/
theorem lex_floats_underscores :
    (∃ found, lex "1_._2e+3_i" = .ok found) ∧
    ∃ piece ∈ pieces "1_._2e+3_i".toList, ∃ n : Numeral, n.text = "1.2e+3".toList ∧
      piece.result = .ok (.token (.imaginary n.value)) := by
  have scanned : ∃ piece ∈ pieces "1_._2e+3_i".toList, piece.text = "1_._2e+3_i".toList ∧
      piece.result = .ok (.token (.imaginary ⟨0x4092C00000000000⟩)) := by decide +kernel
  obtain ⟨piece, mem, isText, accepted⟩ := scanned
  obtain ⟨written, n, split, isNumeral, value⟩ :=
    ((lex_floats "1_._2e+3_i").2 piece mem).imaginary _ accepted
  have isWritten : "1_._2e+3_".toList = written :=
    List.append_cancel_right (isText.symm.trans split)
  refine ⟨⟨[⟨.imaginary ⟨0x4092C00000000000⟩, ⟨0, 10⟩⟩, .lineEnd 10, ⟨.eof, ⟨10, 10⟩⟩],
    by decide +kernel⟩, piece, mem, n, ?_, value ▸ accepted⟩
  rw [← isNumeral, ← isWritten]
  rfl

end GoFront.Lexer
