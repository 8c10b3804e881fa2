import GoFront.Proofs.Lexer.Decoding

/-!
What the integer literals stand for. A literal without a fault is the number that its digits denote
in its base, and it has to fit into 64 bits; word characters that are glued to a literal make it one
fault.
-/
namespace GoFront.Lexer

/-- The marks that may follow a leading zero, and the bases they stand for. -/
def baseMarks : List (Char × Nat) :=
  [('x', 16), ('X', 16), ('o', 8), ('O', 8), ('b', 2), ('B', 2)]

/-- The base of an integer without a mark. More digits behind a leading zero are octal. -/
def unmarkedBase (digits : List Char) : Nat :=
  if 1 < digits.length ∧ digits.head? = some '0' then 8 else 10

/-- The text is written as an integer: a run of digits of the base `scanned`, with underscores among
them. Without the underscores its `digits` are a numeral in `base`, or nothing. -/
inductive IntegerText : List Char → Nat → Nat → List Char → Prop where
  | unmarked {first : Char} {rest digits : List Char} (start : ∃ value, IsDigit 10 first value)
      (run : ∀ c ∈ rest, c = '_' ∨ ∃ value, IsDigit 10 c value)
      (isDigits : digits = (first :: rest).filter (· ≠ '_')) :
      IntegerText (first :: rest) 10 (unmarkedBase digits) digits
  | marked {mark : Char} {base : Nat} {rest digits : List Char} (known : (mark, base) ∈ baseMarks)
      (run : ∀ c ∈ rest, c = '_' ∨ ∃ value, IsDigit base c value)
      (isDigits : digits = rest.filter (· ≠ '_')) :
      IntegerText ('0' :: mark :: rest) base base digits

/-- Word characters that do not go on with the integer before them: the first one is no digit of the
base that is scanned, and starts no exponent, suffix or base mark. -/
structure Glued (integer : List Char) (scanned : Nat) (glued : List Char) : Prop where
  nonempty : glued ≠ []
  run : ∀ c ∈ glued, c.isAlphanum ∨ c = '_'
  noDigit : ∀ c ∈ glued.head?, c ≠ '_' ∧ ∀ value, ¬IsDigit scanned c value
  noSuffix : scanned = 10 → ∀ c ∈ glued.head?, c ∉ ['e', 'E', 'i']
  noMark : integer = ['0'] → ∀ c ∈ glued.head?, ∀ base, (c, base) ∉ baseMarks

/-! ### Characters -/

theorem isNumeral_iff {base : Nat} {c : Char} :
    isNumeral base c ↔ c = '_' ∨ ∃ value, IsDigit base c value := by
  simp only [isNumeral, Bool.or_eq_true, decide_eq_true_eq, isDigit_iff, exists_and_left,
    exists_eq', and_true]
  exact or_comm

theorem markedBase?_eq_some_iff {c : Char} {base : Nat} :
    markedBase? c = some base ↔ (c, base) ∈ baseMarks := by
  unfold markedBase? baseMarks
  grind

theorem markedBase?_of_isNumeral {c : Char} (numeral : isNumeral 10 c) : markedBase? c = none := by
  rw [Option.eq_none_iff_forall_ne_some]
  intro base marked
  have letters : ∀ entry ∈ baseMarks, isNumeral 10 entry.1 = false := by decide
  simp [letters _ (markedBase?_eq_some_iff.mp marked)] at numeral

theorem isWordChar_iff {c : Char} : isWordChar c ↔ c.isAlphanum ∨ c = '_' := by
  simp [isWordChar]

theorem mem_plain {numeral : List Char} {c : Char} : c ∈ plain numeral ↔ c ∈ numeral ∧ c ≠ '_' := by
  simp [plain]

theorem isDigitOf_of_mem_plain {base : Nat} {numeral : List Char}
    (run : ∀ c ∈ numeral, isNumeral base c) : ∀ c ∈ plain numeral, isDigitOf base c := by
  intro c mem
  obtain ⟨inside, notUnderscore⟩ := mem_plain.mp mem
  simpa [isNumeral, notUnderscore] using run c inside

theorem takeWhile_run {p : Char → Bool} {run after : List Char} (all : ∀ c ∈ run, p c)
    (ends : ∀ next ∈ after.head?, p next = false) : (run ++ after).takeWhile p = run := by
  rw [List.takeWhile_append_of_pos all]
  cases after with
  | nil => simp
  | cons next after => simp [ends next rfl]

/-! ### The scanners -/

section

variable {run after : List Char}

theorem scanMarked_run (mark : Char) {base : Nat} (all : ∀ c ∈ run, isNumeral base c)
    (ends : ∀ next ∈ after.head?, isNumeral base next = false) :
    scanMarked mark base (run ++ after) = rejectSuffix ('0' :: mark :: run) after
      (if plain run = [] then refused ('0' :: mark :: run) (.noDigits base)
        else integer ('0' :: mark :: run) base (plain run)) := by
  simp only [scanMarked, takeWhile_run all ends, List.drop_left]

/-- Digits before text that no fraction, exponent or suffix starts with. -/
theorem scanDecimal_whole (whole : List Char)
    (ends : ∀ next ∈ after.head?, next ∉ ['.', 'e', 'E', 'i']) :
    scanDecimal whole after = rejectSuffix whole after (decimalInteger whole) := by
  cases after with
  | nil =>
    simp [scanDecimal_eq, fractionOf, scanExponent, finishDecimal, DecimalText.text,
      DecimalText.isFloat]
  | cons next after =>
    have stops := ends next rfl
    simp only [List.mem_cons, List.not_mem_nil, or_false, not_or] at stops
    obtain ⟨noPoint, noLower, noUpper, noSuffix⟩ := stops
    have noFraction : fractionOf (next :: after) = [] := by
      unfold fractionOf
      grind
    have noExponent : scanExponent (next :: after) = ([], []) := by
      simp [scanExponent, noLower, noUpper]
    rw [scanDecimal_eq]
    simp only [noFraction, List.length_nil, List.drop_zero, noExponent, ne_eq, not_true_eq_false,
      false_and, if_false, List.append_nil]
    rw [finishDecimal]
    · simp [DecimalText.text, DecimalText.isFloat]
    · rintro more same
      exact noSuffix (List.cons.inj same).1

theorem scanUnmarked_run (first : Char) (all : ∀ c ∈ run, isNumeral 10 c)
    (ends : ∀ next ∈ after.head?, isNumeral 10 next = false ∧ next ∉ ['.', 'e', 'E', 'i']) :
    scanUnmarked first (run ++ after) =
      rejectSuffix (first :: run) after (decimalInteger (first :: run)) := by
  rw [scanUnmarked, takeWhile_run all fun next isNext => (ends next isNext).1, List.drop_left]
  exact scanDecimal_whole _ fun next isNext => (ends next isNext).2

theorem scanNumber_unmarked {first : Char} {rest : List Char}
    (noMark : first = '0' → ∀ mark ∈ rest.head?, markedBase? mark = none) :
    scanNumber first rest = scanUnmarked first rest := by
  rw [scanNumber_eq]
  split
  next mark more =>
    by_cases zero : first = '0'
    · simp [zero, noMark zero mark rfl]
    · simp [zero]
  next => rfl

theorem scanNumber_marked {mark : Char} {base : Nat} (marked : markedBase? mark = some base)
    (rest : List Char) : scanNumber '0' (mark :: rest) = scanMarked mark base rest := by
  simp [scanNumber_eq, marked]

theorem rejectSuffix_glued {text glued : List Char} {accept : Piece TokenKind}
    (nonempty : glued ≠ []) (word : ∀ c ∈ glued, isWordChar c) :
    rejectSuffix text glued accept =
      refused (text ++ glued) (.numberSuffix (String.ofList (text ++ glued))) := by
  have whole : glued.takeWhile isWordChar = glued := List.takeWhile_eq_self_iff.mpr word
  unfold rejectSuffix
  split
  next none => exact absurd (whole.symm.trans none) nonempty
  next => rw [whole]

end

/-! ### Values -/

/-- The piece is an integer or one fault, either of them over the whole text. -/
def WholeInteger (text : List Char) (piece : Piece TokenKind) : Prop :=
  (∃ value, piece = ⟨text, .ok (.int value)⟩) ∨ ∃ fault, piece = refused text fault

theorem refused_ne_ok {text : List Char} {fault : Fault} {kind : TokenKind} :
    refused text fault ≠ ⟨text, .ok kind⟩ := by
  simp [refused]

theorem integer_whole (text digits : List Char) (base : Nat) :
    WholeInteger text (integer text base digits) := by
  unfold integer
  dsimp only
  split
  · exact .inl ⟨_, rfl⟩
  · exact .inr ⟨_, rfl⟩

theorem integer_eq_iff {text digits : List Char} {base : Nat} {value : UInt64} :
    integer text base digits = ⟨text, .ok (.int value)⟩ ↔
      positional base digits = value.toNat := by
  unfold integer
  dsimp only
  split
  next fits =>
    have isValue : (positional base digits).toUInt64.toNat = positional base digits :=
      Nat.mod_eq_of_lt fits
    rw [Piece.mk.injEq, Except.ok.injEq, TokenKind.int.injEq, ← UInt64.toNat_inj, isValue]
    exact and_iff_right rfl
  next large =>
    refine iff_of_false refused_ne_ok fun same => large ?_
    rw [same]
    exact value.toNat_lt

theorem positional_zero (base : Nat) (digits : List Char) :
    positional base ('0' :: digits) = positional base digits := by
  have zero : 0 * base + digitValue '0' = 0 := by simp [digitValue]
  rw [positional, List.foldl_cons, zero, positional]

theorem isDigitOf_eight_iff {c : Char} (decimal : isDigitOf 10 c) :
    isDigitOf 8 c ↔ c ≠ '8' ∧ c ≠ '9' := by
  have low : c.toNat < 58 := by
    unfold isDigitOf at decimal
    grind
  have table : ∀ n < 58, isDigitOf 10 (Char.ofNat n) →
      (isDigitOf 8 (Char.ofNat n) ↔ Char.ofNat n ≠ '8' ∧ Char.ofNat n ≠ '9') := by decide
  simpa [Char.ofNat_toNat, decimal] using table c.toNat low

theorem decimalInteger_whole (text : List Char) : WholeInteger text (decimalInteger text) := by
  unfold decimalInteger
  split
  · split
    · exact .inr ⟨_, rfl⟩
    · exact integer_whole _ _ _
  · exact integer_whole _ _ _

theorem decimalInteger_eq_iff {text : List Char} {value : UInt64}
    (decimal : ∀ c ∈ plain text, isDigitOf 10 c) :
    decimalInteger text = ⟨text, .ok (.int value)⟩ ↔
      Denotes (unmarkedBase (plain text)) (plain text) value.toNat := by
  rw [denotes_iff]
  unfold decimalInteger
  split
  next d digits isPlain =>
    have isBase : unmarkedBase (plain text) = 8 := by simp [unmarkedBase, isPlain]
    rw [isPlain] at decimal ⊢
    rw [isPlain] at isBase
    rw [isBase, positional_zero, List.forall_mem_cons]
    obtain ⟨-, decimal⟩ := List.forall_mem_cons.mp decimal
    split
    next bad =>
      refine iff_of_false refused_ne_ok fun ⟨⟨_, octal⟩, _⟩ => ?_
      obtain ⟨c, mem, isBad⟩ := List.any_eq_true.mp bad
      have := (isDigitOf_eight_iff (decimal c mem)).mp (octal c mem)
      grind
    next good =>
      have octal : ∀ c ∈ d :: digits, isDigitOf 8 c := by
        intro c mem
        rw [isDigitOf_eight_iff (decimal c mem)]
        have := fun isBad => good (List.any_eq_true.mpr ⟨c, mem, isBad⟩)
        simpa [not_or] using this
      rw [integer_eq_iff]
      exact (and_iff_right ⟨by decide, octal⟩).symm
  next noOctal =>
    have isBase : unmarkedBase (plain text) = 10 := by
      unfold unmarkedBase
      rw [if_neg]
      rintro ⟨long, zero⟩
      obtain ⟨rest, isPlain⟩ := List.head?_eq_some_iff.mp zero
      cases rest with
      | nil => simp [isPlain] at long
      | cons d digits => exact noOctal d digits isPlain
    rw [isBase, integer_eq_iff]
    exact (and_iff_right decimal).symm

/-! ### Texts -/

/-- How the text of an integer is scanned: `accept` is its piece if no word character follows. -/
structure Scans (text : List Char) (scanned : Nat) (accept : Piece TokenKind) : Prop where
  alone : ∃ c rest, text = c :: rest ∧ scan c rest = accept.token
  glued : ∀ glued, Glued text scanned glued → ∃ c rest, text = c :: rest ∧
    scan c (rest ++ glued) = (rejectSuffix text glued accept).token

theorem Glued.no_point {text glued : List Char} {scanned : Nat}
    (isGlued : Glued text scanned glued) :
    '.' ∉ glued.head? := by
  intro point
  have := isGlued.run '.' (List.mem_of_mem_head? point)
  revert this
  decide

theorem Glued.noNumeral {text glued : List Char} {scanned : Nat}
    (isGlued : Glued text scanned glued) :
    ∀ next ∈ glued.head?, isNumeral scanned next = false := by
  intro next isNext
  obtain ⟨notUnderscore, noDigit⟩ := isGlued.noDigit next isNext
  rw [Bool.eq_false_iff, ne_eq, isNumeral_iff, not_or]
  exact ⟨notUnderscore, not_exists.mpr noDigit⟩

theorem scans_marked {mark : Char} {base : Nat} {rest : List Char}
    (marked : markedBase? mark = some base) (run : ∀ c ∈ rest, isNumeral base c) :
    Scans ('0' :: mark :: rest) base
      (if plain rest = [] then refused ('0' :: mark :: rest) (.noDigits base)
        else integer ('0' :: mark :: rest) base (plain rest)) := by
  have scanned : ∀ after, scan '0' (mark :: after) = (scanMarked mark base after).token := by
    intro after
    rw [scan_digit (by decide), scanNumber_marked marked]
  constructor
  · refine ⟨'0', mark :: rest, rfl, ?_⟩
    rw [scanned, ← List.append_nil rest, scanMarked_run mark run (by simp), rejectSuffix]
    simp
  · intro glued isGlued
    refine ⟨'0', mark :: rest, rfl, ?_⟩
    rw [List.cons_append, scanned, scanMarked_run mark run isGlued.noNumeral]

theorem scans_unmarked {first : Char} {rest : List Char} (start : isDigitOf 10 first)
    (run : ∀ c ∈ rest, isNumeral 10 c) :
    Scans (first :: rest) 10 (decimalInteger (first :: rest)) := by
  constructor
  · refine ⟨first, rest, rfl, ?_⟩
    have whole : scanUnmarked first (rest ++ []) = _ := scanUnmarked_run first run (by simp)
    rw [List.append_nil] at whole
    rw [scan_digit start, scanNumber_unmarked, whole, rejectSuffix]
    · rfl
    · exact fun _ mark isMark => markedBase?_of_isNumeral (run mark (List.mem_of_mem_head? isMark))
  · intro glued isGlued
    refine ⟨first, rest, rfl, ?_⟩
    rw [scan_digit start, scanNumber_unmarked, scanUnmarked_run first run]
    · intro next isNext
      have noPoint : next ≠ '.' := by
        rintro rfl
        exact isGlued.no_point isNext
      exact ⟨isGlued.noNumeral next isNext,
        List.not_mem_cons_of_ne_of_not_mem noPoint (isGlued.noSuffix rfl next isNext)⟩
    · rintro rfl mark isMark
      cases rest with
      | nil =>
        rw [Option.eq_none_iff_forall_ne_some]
        intro base marked
        exact isGlued.noMark rfl mark isMark base (markedBase?_eq_some_iff.mp marked)
      | cons c rest =>
        obtain rfl : c = mark := by simpa using isMark
        exact markedBase?_of_isNumeral (run c List.mem_cons_self)

theorem IntegerText.scans {text digits : List Char} {scanned base : Nat}
    (written : IntegerText text scanned base digits) :
    ∃ accept, Scans text scanned accept ∧ WholeInteger text accept ∧
      ∀ value : UInt64, accept = ⟨text, .ok (.int value)⟩ ↔
        digits ≠ [] ∧ Denotes base digits value.toNat := by
  cases written with
  | @unmarked first rest digits start run isDigits =>
    obtain ⟨_, digit⟩ := start
    have isDigit := (isDigit_iff.mp digit).1
    have numerals : ∀ c ∈ first :: rest, isNumeral 10 c :=
      List.forall_mem_cons.mpr
        ⟨by simp [isNumeral, isDigit], fun c mem => isNumeral_iff.mpr (run c mem)⟩
    obtain rfl : digits = plain (first :: rest) := isDigits
    have nonempty : plain (first :: rest) ≠ [] := by
      have notUnderscore : first ≠ '_' := by
        rintro rfl
        revert isDigit
        decide
      exact List.ne_nil_of_mem (mem_plain.mpr ⟨List.mem_cons_self, notUnderscore⟩)
    refine ⟨_, scans_unmarked isDigit (List.forall_mem_cons.mp numerals).2,
      decimalInteger_whole _, fun value => ?_⟩
    rw [decimalInteger_eq_iff (isDigitOf_of_mem_plain numerals)]
    exact (and_iff_right nonempty).symm
  | @marked mark _ rest digits known run isDigits =>
    have numerals : ∀ c ∈ rest, isNumeral scanned c := fun c mem => isNumeral_iff.mpr (run c mem)
    obtain rfl : digits = plain rest := isDigits
    refine ⟨_, scans_marked (markedBase?_eq_some_iff.mpr known) numerals, ?_, fun value => ?_⟩
    · split
      · exact .inr ⟨_, rfl⟩
      · exact integer_whole _ _ _
    · split
      next empty => exact iff_of_false refused_ne_ok fun both => both.1 empty
      next nonempty =>
        rw [integer_eq_iff, denotes_iff]
        exact ⟨fun same => ⟨nonempty, isDigitOf_of_mem_plain numerals, same⟩, fun both => both.2.2⟩

theorem lex_refused {source : String} {c : Char} {rest : List Char} {fault : Fault}
    (isSource : source.toList = c :: rest)
    (scanned : scan c rest = (refused (c :: rest) fault : Piece TokenKind).token) :
    lex source = .error [⟨fault, ⟨0, source.utf8ByteSize⟩⟩] := by
  have split : c :: rest = (scan c rest).text ++ [] := by
    rw [scanned, List.append_nil]
    rfl
  have cut : pieces source.toList = [(refused (c :: rest) fault : Piece TokenKind).token] := by
    rw [isSource, pieces_cons split, scanned, pieces]
  have found : findings 0 (pieces source.toList) = [⟨fault, ⟨0, source.utf8ByteSize⟩⟩] := by
    rw [cut, ← Text.byteLength_toList, isSource]
    simp [findings, Piece.token, refused, Except.map]
  simp only [lex, lexChars, found]

/-- An integer literal is read as the number that its digits denote in its base, if it has digits
and the number fits into 64 bits; otherwise it is refused. Word characters glued to it are refused
together with it, as one fault. -/
theorem lex_integer {source : String} {scanned base : Nat} {digits : List Char}
    (written : IntegerText source.toList scanned base digits) :
    (∀ value : UInt64, LexesAs source (.int value) ↔
      digits ≠ [] ∧ Denotes base digits value.toNat) ∧
    ((∀ n < 2 ^ 64, ¬(digits ≠ [] ∧ Denotes base digits n)) → ∃ found, lex source = .error found) ∧
    ∀ glued : String, Glued source.toList scanned glued.toList →
      ∃ fault, lex (source ++ glued) = .error [⟨fault, ⟨0, (source ++ glued).utf8ByteSize⟩⟩] := by
  obtain ⟨accept, ⟨⟨c, rest, isSource, scanned⟩, scansGlued⟩, whole, accepts⟩ := written.scans
  refine ⟨fun value => ?_, fun noValue => ?_, fun glued isGlued => ?_⟩
  · rw [← accepts, isSource]
    exact lexesAs_iff isSource scanned rfl
  · rcases whole with ⟨value, isValue⟩ | ⟨fault, rfl⟩
    · exact absurd ((accepts value).mp isValue) (noValue _ value.toNat_lt)
    · rw [isSource] at scanned
      exact ⟨_, lex_refused isSource scanned⟩
  · obtain ⟨first, later, isText, scanned⟩ := scansGlued _ isGlued
    have word : ∀ c ∈ glued.toList, isWordChar c := fun c mem =>
      isWordChar_iff.mpr (isGlued.run c mem)
    rw [rejectSuffix_glued isGlued.nonempty word, isText, List.cons_append] at scanned
    exact ⟨_, lex_refused (by rw [String.toList_append, isText, List.cons_append]) scanned⟩

theorem lex_integer_bases :
    LexesAs "0_17" (.int 15) ∧ LexesAs "0x_fF" (.int 255) ∧
      (∃ found, lex "0b_" = .error found) ∧
      ∃ fault, lex ("0x_fF" ++ "g_1") = .error [⟨fault, ⟨0, ("0x_fF" ++ "g_1").utf8ByteSize⟩⟩] := by
  have octal : IntegerText ['0', '_', '1', '7'] 10 8 ['0', '1', '7'] :=
    .unmarked ⟨0, isDigit_iff.mpr (by decide)⟩
      (fun c mem => isNumeral_iff.mp (List.all_eq_true.mp rfl c mem)) rfl
  have hex : IntegerText ['0', 'x', '_', 'f', 'F'] 16 16 ['f', 'F'] :=
    .marked (by decide) (fun c mem => isNumeral_iff.mp (List.all_eq_true.mp rfl c mem)) rfl
  have empty : IntegerText ['0', 'b', '_'] 2 2 [] := .marked (by decide) (by simp) rfl
  have glued : Glued ['0', 'x', '_', 'f', 'F'] 16 ['g', '_', '1'] := by
    refine ⟨by simp, List.forall_mem_cons.mpr (by simp), ?_, by simp, by simp⟩
    rintro c isFirst
    obtain rfl : 'g' = c := by simpa using isFirst
    exact ⟨by decide, fun value isDigit => absurd (isDigit_iff.mp isDigit).1 (by decide)⟩
  have isOctal : Denotes 8 ['0', '1', '7'] 15 :=
    denotes_iff.mpr ⟨List.all_eq_true.mp (by decide), by decide⟩
  have isHex : Denotes 16 ['f', 'F'] 255 :=
    denotes_iff.mpr ⟨List.all_eq_true.mp (by decide), by decide⟩
  obtain ⟨reads, -, refuses⟩ := @lex_integer "0x_fF" _ _ _ hex
  refine ⟨((@lex_integer "0_17" _ _ _ octal).1 15).mpr ⟨by simp, isOctal⟩,
    (reads 255).mpr ⟨by simp, isHex⟩, (@lex_integer "0b_" _ _ _ empty).2.1 (by simp),
    refuses "g_1" glued⟩

end GoFront.Lexer
