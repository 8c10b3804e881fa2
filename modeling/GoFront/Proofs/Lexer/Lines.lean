import GoFront.Proofs.Lexer.Cut

/-!
Nothing but the last token of a line crosses the line break after it: a text without faults, a line
feed and another text have the tokens of the first and those of the second, moved to the right.
-/
namespace GoFront

/-- The token, `n` bytes further to the right. -/
def Token.shift (n : Nat) (t : Token) : Token := ⟨t.kind, t.span.shift n⟩

/-- The value, `n` bytes further to the right. -/
def Spanned.shift {α : Type} (n : Nat) (a : Spanned α) : Spanned α := ⟨a.value, a.span.shift n⟩

namespace Lexer

/-! ### Numbers and signs end before white space -/

theorem takeWhile_stop {p : Char → Bool} {stop : Char} (stops : p stop = false)
    (text more : List Char) : (text ++ stop :: more).takeWhile p = text.takeWhile p := by
  induction text with
  | nil => simp [stops]
  | cons c rest ih => simp [List.takeWhile_cons, ih]

theorem drop_front {front text : List Char} (isFront : front <+: text) (more : List Char) :
    (text ++ more).drop front.length = text.drop front.length ++ more :=
  List.drop_append_of_le_length isFront.length_le

section Blank

variable {blank : Char} (isBlank : blank ∈ blanks)
include isBlank

theorem blank_cases : blank = ' ' ∨ blank = '\t' ∨ blank = '\r' ∨ blank = '\n' := by
  simpa [blanks] using isBlank

/-- White space goes on no number: it is neither a digit nor one of the marks in a number. -/
theorem blank_ends_number :
    isWordChar blank = false ∧ isDigitOf 10 blank = false ∧ markedBase? blank = none ∧
      blank ∉ ['.', 'e', 'E', '+', '-', 'i'] := by
  rcases blank_cases isBlank with rfl | rfl | rfl | rfl <;> decide

theorem isNumeral_blank (base : Nat) : isNumeral base blank = false := by
  rcases blank_cases isBlank with rfl | rfl | rfl | rfl <;> simp [isNumeral, isDigitOf]

theorem rejectSuffix_blank (text rest more : List Char) (accept : Piece TokenKind) :
    rejectSuffix text (rest ++ blank :: more) accept = rejectSuffix text rest accept := by
  unfold rejectSuffix
  rw [takeWhile_stop (blank_ends_number isBlank).1]

theorem scanMarked_blank (mark : Char) (base : Nat) (rest more : List Char) :
    scanMarked mark base (rest ++ blank :: more) = scanMarked mark base rest := by
  simp only [scanMarked, takeWhile_stop (isNumeral_blank isBlank base),
    drop_front (List.takeWhile_prefix _), rejectSuffix_blank isBlank]

theorem fractionOf_blank (rest more : List Char) :
    fractionOf (rest ++ blank :: more) = fractionOf rest := by
  cases rest with
  | nil =>
    have noDot : blank ≠ '.' := by
      rintro rfl
      simpa using (blank_ends_number isBlank).2.2.2
    simp [fractionOf, noDot]
  | cons c rest =>
    by_cases dot : c = '.'
    · simp [fractionOf, dot, takeWhile_stop (isNumeral_blank isBlank 10)]
    · simp [fractionOf, dot]

theorem scanExponent_blank (rest more : List Char) :
    scanExponent (rest ++ blank :: more) = scanExponent rest := by
  obtain ⟨-, noDigit, -, noMark⟩ := blank_ends_number isBlank
  simp only [List.mem_cons, List.not_mem_nil, or_false, not_or] at noMark
  have run := takeWhile_stop (isNumeral_blank isBlank 10)
  rcases rest with _ | ⟨letter, rest⟩
  · simp [scanExponent, noMark]
  by_cases isLetter : (letter = 'e' || letter = 'E') = true
  swap
  · simp only [scanExponent, List.cons_append, if_neg isLetter]
  rcases rest with _ | ⟨sign, rest⟩
  · simp [scanExponent, noDigit, noMark]
  by_cases isSign : (sign = '+' || sign = '-') = true
  · rcases rest with _ | ⟨digit, rest⟩
    · simp [scanExponent, isLetter, isSign, noDigit]
    · simp [scanExponent, isLetter, isSign, List.takeWhile_cons, run]
  · simp [scanExponent, isLetter, isSign, List.takeWhile_cons, run]

theorem finishDecimal_blank (d : DecimalText) (rest more : List Char) :
    finishDecimal d (rest ++ blank :: more) = finishDecimal d rest := by
  cases rest with
  | nil =>
    have noSuffix : blank ≠ 'i' := by
      rintro rfl
      simpa using (blank_ends_number isBlank).2.2.2
    simpa [finishDecimal, noSuffix] using rejectSuffix_blank isBlank d.text [] more _
  | cons c rest =>
    by_cases suffix : c = 'i'
    · simp only [finishDecimal, suffix, List.cons_append, rejectSuffix_blank isBlank]
    · have plain := rejectSuffix_blank isBlank d.text (c :: rest) more
      rw [List.cons_append] at plain
      simp [finishDecimal, suffix, plain]

theorem scanDecimal_blank (whole rest more : List Char) :
    scanDecimal whole (rest ++ blank :: more) = scanDecimal whole rest := by
  simp only [scanDecimal_eq, fractionOf_blank isBlank, drop_front (fractionOf_front rest),
    scanExponent_blank isBlank, drop_front (scanExponent_front _), finishDecimal_blank isBlank]

theorem scanUnmarked_blank (first : Char) (rest more : List Char) :
    scanUnmarked first (rest ++ blank :: more) = scanUnmarked first rest := by
  simp only [scanUnmarked, takeWhile_stop (isNumeral_blank isBlank 10),
    drop_front (List.takeWhile_prefix _), scanDecimal_blank isBlank]

theorem scanNumber_blank (first : Char) (rest more : List Char) :
    scanNumber first (rest ++ blank :: more) = scanNumber first rest := by
  have unmarked := scanUnmarked_blank isBlank first rest more
  cases rest with
  | nil => simpa [scanNumber_eq, (blank_ends_number isBlank).2.2.1] using unmarked
  | cons mark rest =>
    rw [List.cons_append] at unmarked
    simp only [scanNumber_eq, List.cons_append, scanMarked_blank isBlank, unmarked]

omit isBlank in
theorem prefix_stop_iff {front : List Char} {stop : Char} (absent : stop ∉ front)
    (text more : List Char) : front <+: text ++ stop :: more ↔ front <+: text := by
  refine ⟨fun isFront => ?_, fun isFront => isFront.trans (List.prefix_append _ _)⟩
  by_cases fits : front.length ≤ text.length
  · exact List.prefix_of_prefix_length_le isFront (List.prefix_append _ _) fits
  · have longer : text ++ [stop] <+: front := by
      refine List.prefix_of_prefix_length_le (by simp) isFront ?_
      rw [List.length_append, List.length_singleton]
      omega
    exact absurd (longer.subset (by simp)) absent

theorem LongestSign.before_blank {text sign : List Char} {kind : TokenKind} (more : List Char) :
    LongestSign (text ++ blank :: more) sign kind ↔ LongestSign text sign kind := by
  have front : ∀ other kind, (other, kind) ∈ signs →
      (other <+: text ++ blank :: more ↔ other <+: text) := by
    intro other kind known
    exact prefix_stop_iff (fun mem => ((shape_of_mem_signs known).2 _ mem).2 isBlank) text more
  constructor
  · rintro ⟨known, isFront, longest⟩
    exact ⟨known, (front _ _ known).mp isFront, fun other kind knownOther frontOther =>
      longest other kind knownOther ((front _ _ knownOther).mpr frontOther)⟩
  · rintro ⟨known, isFront, longest⟩
    exact ⟨known, (front _ _ known).mpr isFront, fun other kind knownOther frontOther =>
      longest other kind knownOther ((front _ _ knownOther).mp frontOther)⟩

theorem scanSign_blank (c : Char) (rest more : List Char) :
    scanSign c (rest ++ blank :: more) = scanSign c rest := by
  have same : longestSign? (c :: rest ++ blank :: more) = longestSign? (c :: rest) := by
    ext ⟨sign, kind⟩
    simp only [longestSign?_eq_some_iff, LongestSign.before_blank isBlank]
  rw [scanSign_eq, scanSign_eq, ← List.cons_append, same]

theorem scanDot_blank (rest more : List Char) :
    scanDot (rest ++ blank :: more) = scanDot rest := by
  have sign := scanSign_blank isBlank '.' rest more
  have number := scanDecimal_blank isBlank [] ('.' :: rest) more
  cases rest with
  | nil => simpa [scanDot, (blank_ends_number isBlank).2.1] using sign
  | cons c rest =>
    rw [List.cons_append] at number
    simp only [scanDot]
    rw [List.cons_append] at sign ⊢
    simp only [sign, List.cons_append] at number ⊢
    rw [number]

end Blank

/-! ### Closed literals and comments ignore what follows -/

theorem take_append_of_full {p : Char → Bool} {count : Nat} {rest : List Char}
    (full : count ≤ ((rest.take count).takeWhile p).length) (more : List Char) :
    (rest ++ more).take count = rest.take count := by
  have bound := (List.takeWhile_prefix p (l := rest.take count)).length_le
  rw [List.length_take] at bound
  exact List.take_append_of_le_length (by omega)

theorem escape_append {quote c : Char} {rest : List Char} {value : Char}
    (valid : (escape quote c rest).meaning = .ok value) (more : List Char) :
    escape quote c (rest ++ more) = escape quote c rest := by
  unfold escape at valid ⊢
  split
  next => rfl
  next simple =>
    split
    next count hex =>
      have full : ¬((rest.take count).takeWhile (isDigitOf 16)).length < count := by
        intro short
        simp [simple, hex, hexEscape, short] at valid
      simp only [hexEscape, take_append_of_full (Nat.not_lt.mp full)]
    next hex =>
      split
      next octal =>
        have full : ¬((rest.take 2).takeWhile (isDigitOf 8)).length < 2 := by
          intro short
          simp [simple, hex, octal, octalEscape, Nat.add_lt_add_right short 1] at valid
        simp only [octalEscape, take_append_of_full (Nat.not_lt.mp full)]
      next => rfl

theorem elementFindings_eq_nil {offset : Nat} {elements : List Element}
    (clean : elementFindings offset elements = []) :
    ∀ element ∈ elements, ∃ value, element.meaning = .ok value := by
  induction elements generalizing offset with
  | nil => simp
  | cons element rest ih =>
    cases meaning : element.meaning with
    | error fault => simp [elementFindings, meaning] at clean
    | ok value =>
      simp only [elementFindings, meaning] at clean
      exact List.forall_mem_cons.mpr ⟨⟨value, meaning⟩, ih clean⟩

theorem ne_backslash {c : Char} {rest : List Char} (noEnd : c = '\\' → rest = [] → False)
    (noEscape : ∀ next later, c = '\\' → rest = next :: later → False) : c ≠ '\\' := by
  intro backslash
  cases rest with
  | nil => exact noEnd backslash rfl
  | cons next later => exact noEscape next later backslash rfl

theorem stringBody_append {text : List Char} (closed : (stringBody text).closed)
    (valid : ∀ element ∈ (stringBody text).elements, ∃ value, element.meaning = .ok value)
    (more : List Char) : stringBody (text ++ more) = stringBody text := by
  fun_induction stringBody text with
  | case1 => simp at closed
  | case2 => simp at closed
  | case3 => simp [stringBody]
  | case4 => simp at closed
  | case5 c rest element body ih =>
    obtain ⟨⟨value, meaning⟩, validLater⟩ := List.forall_mem_cons.mp valid
    rw [List.cons_append, List.cons_append, stringBody, escape_append meaning,
      List.drop_append_of_le_length (escape_length '"' c rest), ih closed validLater]
  | case6 c rest noFeed noQuote noEnd noEscape body ih =>
    have validLater := (List.forall_mem_cons.mp valid).2
    have noBackslash := ne_backslash noEnd noEscape
    rw [List.cons_append, stringBody, ih closed validLater]
    all_goals grind

/-- An accepted string is closed, and none of its elements is faulty. -/
theorem scanString_valid {rest : List Char} {kind : TokenKind}
    (accepted : (scanString rest).result = .ok kind) :
    (stringBody rest).closed ∧
      ∀ element ∈ (stringBody rest).elements, ∃ value, element.meaning = .ok value := by
  unfold scanString at accepted
  extract_lets body text unterminated at accepted
  split at accepted
  next clean =>
    obtain ⟨noFault, ended⟩ := List.append_eq_nil_iff.mp clean
    refine ⟨?_, elementFindings_eq_nil noFault⟩
    by_contra notClosed
    simp [unterminated, body, notClosed] at ended
  next => simp at accepted

theorem scanString_append {rest : List Char} {kind : TokenKind}
    (accepted : (scanString rest).result = .ok kind) (more : List Char) :
    scanString (rest ++ more) = scanString rest := by
  obtain ⟨closed, valid⟩ := scanString_valid accepted
  rw [scanString, stringBody_append closed valid, scanString]

theorem scanRawString_append {rest : List Char} {kind : TokenKind}
    (accepted : (scanRawString rest).result = .ok kind) (more : List Char) :
    scanRawString (rest ++ more) = scanRawString rest := by
  unfold scanRawString at accepted
  extract_lets body text at accepted
  split at accepted
  next closed =>
    have same : (rest ++ more).takeWhile (· ≠ backQuote) = rest.takeWhile (· ≠ backQuote) := by
      rw [List.takeWhile_append, if_neg (Nat.ne_of_lt closed)]
    have longer : body.length < (rest ++ more).length := by
      rw [List.length_append]
      exact Nat.lt_add_right _ closed
    simp only [scanRawString, same]
    rw [if_pos closed, if_pos longer]
  next => simp at accepted

theorem closeRune_append {element : Element} {rest : List Char} {kind : TokenKind}
    (accepted : (closeRune element rest).result = .ok kind) (more : List Char) :
    closeRune element (rest ++ more) = closeRune element rest := by
  unfold closeRune at accepted ⊢
  split at accepted
  next => rfl
  next => simp at accepted

theorem closeRune_meaning {element : Element} {rest : List Char} {kind : TokenKind}
    (accepted : (closeRune element rest).result = .ok kind) :
    ∃ value, element.meaning = .ok value := by
  cases meaning : element.meaning with
  | ok value => exact ⟨value, rfl⟩
  | error fault =>
    unfold closeRune at accepted
    split at accepted <;> simp [meaning] at accepted

theorem scanRune_append {rest : List Char} {kind : TokenKind}
    (accepted : (scanRune rest).result = .ok kind) (more : List Char) :
    scanRune (rest ++ more) = scanRune rest := by
  unfold scanRune at accepted
  split at accepted
  case h_5 c rest =>
    obtain ⟨value, meaning⟩ := closeRune_meaning accepted
    rw [List.cons_append, List.cons_append, scanRune, scanRune, escape_append meaning,
      List.drop_append_of_le_length (escape_length '\'' c rest), closeRune_append accepted]
  case h_6 c rest noQuote noFeed noEnd noEscape =>
    have noBackslash := ne_backslash noEnd noEscape
    rw [List.cons_append, scanRune, closeRune_append accepted, scanRune]
    all_goals grind
  all_goals simp at accepted

theorem commentBody?_append {rest body : List Char} (found : commentBody? rest = some body)
    (more : List Char) : commentBody? (rest ++ more) = some body := by
  fun_induction commentBody? rest generalizing body with
  | case1 => simp at found
  | case2 => simpa [commentBody?] using found
  | case3 c rest notEnd ih =>
    obtain ⟨later, isLater, rfl⟩ := Option.map_eq_some_iff.mp found
    rw [List.cons_append, commentBody?, ih isLater]
    · rfl
    · intro after star slash
      cases rest with
      | nil => simp [commentBody?] at isLater
      | cons next rest => exact notEnd rest star (by simp_all)

theorem scanComment_append {rest : List Char} {lexeme : Lexeme}
    (accepted : (scanComment rest).result = .ok lexeme) (more : List Char) :
    scanComment (rest ++ more) = scanComment rest := by
  unfold scanComment at accepted ⊢
  split at accepted
  next body found => rw [commentBody?_append found]
  next => simp [refused] at accepted

/-! ### The step -/

theorem scanSlash_blank {blank : Char} {rest : List Char} {lexeme : Lexeme}
    (isBlank : blank ∈ blanks) (accepted : (scanSlash rest).result = .ok lexeme)
    (ends : blank = '\n' ∨ ∃ kind, lexeme = .token kind) (more : List Char) :
    scanSlash (rest ++ blank :: more) = scanSlash rest := by
  have sign := scanSign_blank isBlank '/' rest more
  unfold scanSlash at accepted ⊢
  split at accepted
  next comment =>
    obtain rfl := Except.ok.inj accepted
    obtain rfl : blank = '\n' := by simpa using ends
    have stops : decide ('\n' ≠ '\n') = false := by decide
    have same := takeWhile_stop (p := (· ≠ '\n')) stops ('/' :: '/' :: comment) more
    simp only [List.cons_append] at same ⊢
    rw [same]
  next body => exact scanComment_append accepted _
  next noLine noBlock =>
    cases rest with
    | nil =>
      have noMark : blank ≠ '/' ∧ blank ≠ '*' := by
        rcases blank_cases isBlank with rfl | rfl | rfl | rfl <;> decide
      simpa [noMark] using sign
    | cons c rest =>
      have noSlash : c ≠ '/' := fun slash => noLine rest (slash ▸ rfl)
      have noStar : c ≠ '*' := fun star => noBlock rest (star ▸ rfl)
      simpa [noSlash, noStar] using sign

theorem token_accepted {piece : Piece TokenKind} {lexeme : Lexeme}
    (accepted : piece.token.result = .ok lexeme) : ∃ kind, piece.result = .ok kind := by
  cases result : piece.result with
  | ok kind => exact ⟨kind, rfl⟩
  | error found => simp [Piece.token, result, Except.map] at accepted

/-- An accepted piece is the same when white space follows the text. What follows a comment within
a line may only be a line feed. -/
theorem scan_blank {blank c : Char} {rest : List Char} {lexeme : Lexeme} (isBlank : blank ∈ blanks)
    (accepted : (scan c rest).result = .ok lexeme)
    (ends : blank = '\n' ∨ ∃ kind, lexeme = .token kind) (more : List Char) :
    scan c (rest ++ blank :: more) = scan c rest := by
  have chosen := scan_chooses c
  generalize scan c = scanner at chosen accepted ⊢
  cases chosen with
  | space => rfl
  | feed => rfl
  | slash => exact scanSlash_blank isBlank accepted ends more
  | dot => exact scanDot_blank isBlank rest more
  | string =>
    obtain ⟨kind, valid⟩ := token_accepted accepted
    exact congrArg Piece.token (scanString_append valid _)
  | rawString =>
    obtain ⟨kind, valid⟩ := token_accepted accepted
    exact congrArg Piece.token (scanRawString_append valid _)
  | rune =>
    obtain ⟨kind, valid⟩ := token_accepted accepted
    exact congrArg Piece.token (scanRune_append valid _)
  | number => exact congrArg Piece.token (scanNumber_blank isBlank c rest more)
  | word => simp only [takeWhile_stop (blank_ends_number isBlank).1]
  | sign => exact scanSign_blank isBlank c rest more

/-! ### The loop -/

theorem pieces_lineFeed (more : List Char) :
    pieces ('\n' :: more) = ⟨['\n'], .ok .lineBreak⟩ :: pieces more := by
  have isBreak : scan '\n' more = ⟨['\n'], .ok .lineBreak⟩ := rfl
  rw [pieces_cons (by rw [isBreak, List.singleton_append]), isBreak]

theorem pieces_feed {text : List Char} (accepted : ∀ piece ∈ pieces text, piece.Accepted)
    (more : List Char) :
    pieces (text ++ '\n' :: more) = pieces text ++ ⟨['\n'], .ok .lineBreak⟩ :: pieces more := by
  induction text using pieces_induction with
  | nil => rw [List.nil_append, pieces_lineFeed, pieces, List.nil_append]
  | cons c rest after split ih =>
    rw [pieces_cons split, List.forall_mem_cons] at accepted
    obtain ⟨lexeme, result⟩ := accepted.1
    have same := scan_blank (by decide : '\n' ∈ blanks) result (.inl rfl) more
    have splitFeed : c :: (rest ++ '\n' :: more) =
        (scan c (rest ++ '\n' :: more)).text ++ (after ++ '\n' :: more) := by
      rw [same, ← List.append_assoc, ← split, List.cons_append]
    rw [List.cons_append, pieces_cons splitFeed, pieces_cons split, same, ih accepted.2,
      List.cons_append]

theorem findings_append (offset : Nat) (first second : List (Piece Lexeme)) :
    findings offset (first ++ second) =
      findings offset first ++
        findings (offset + Text.byteLength (first.flatMap (·.text))) second := by
  induction first generalizing offset with
  | nil => simp [findings]
  | cons piece rest ih =>
    simp only [List.cons_append, findings, ih, List.flatMap_cons, Text.byteLength_append]
    cases piece.result <;> simp [Nat.add_assoc]

theorem findings_shift (n offset : Nat) (cut : List (Piece Lexeme)) :
    findings (n + offset) cut = (findings offset cut).map (Spanned.shift n) := by
  induction cut generalizing offset with
  | nil => rfl
  | cons piece rest ih =>
    simp only [findings, Nat.add_assoc, ih]
    cases piece.result with
    | ok lexeme => rfl
    | error found => simp [Spanned.shift]

theorem tokens_shift (n offset : Nat) (canEnd : Bool) (cut : List (Piece Lexeme)) :
    tokens (n + offset) canEnd cut = (tokens offset canEnd cut).map (Token.shift n) := by
  have line : ∀ canEnd offset, lineEnd canEnd (n + offset) =
      (lineEnd canEnd offset).map (Token.shift n) := by
    intro canEnd offset
    cases canEnd <;> rfl
  induction cut generalizing offset canEnd with
  | nil => simp [tokens, line, Token.shift, Span.shift]
  | cons piece rest ih =>
    simp only [tokens, Nat.add_assoc, ih, line]
    split <;> simp [Token.shift, Span.shift]

theorem tokens_cons (offset : Nat) (canEnd : Bool) (piece : Piece Lexeme) :
    ∃ own canEndNext,
      (∀ token ∈ own,
        token.kind = .punctuation .semicolon ∨ piece.result = .ok (.token token.kind)) ∧
      ∀ rest, tokens offset canEnd (piece :: rest) =
        own ++ tokens (offset + Text.byteLength piece.text) canEndNext rest := by
  cases result : piece.result with
  | error found => exact ⟨[], canEnd, by simp, fun rest => by simp [tokens, result]⟩
  | ok lexeme =>
    cases lexeme with
    | blank => exact ⟨[], canEnd, by simp, fun rest => by simp [tokens, result]⟩
    | lineBreak =>
      refine ⟨lineEnd canEnd offset, false, fun token mem => .inl ?_, fun rest => ?_⟩
      · cases canEnd <;> simp_all [lineEnd, Token.lineEnd]
      · simp [tokens, result]
    | token kind =>
      refine ⟨[⟨kind, ⟨offset, offset + Text.byteLength piece.text⟩⟩], kind.endsLine,
        fun token mem => .inr ?_, fun rest => ?_⟩
      · rw [List.mem_singleton.mp mem]
      · simp [tokens, result]

/-- The pieces of a text have the same tokens before the end of the file and before a line break. -/
theorem tokens_line (offset : Nat) (canEnd : Bool) (cut : List (Piece Lexeme)) :
    ∃ front stop, stop = offset + Text.byteLength (cut.flatMap (·.text)) ∧
      (∀ token ∈ front, token.kind = .punctuation .semicolon ∨
        ∃ piece ∈ cut, piece.result = .ok (.token token.kind)) ∧
      tokens offset canEnd cut = front ++ [⟨.eof, ⟨stop, stop⟩⟩] ∧
      ∀ later, tokens offset canEnd (cut ++ ⟨['\n'], .ok .lineBreak⟩ :: later) =
        front ++ tokens (stop + 1) false later := by
  induction cut generalizing offset canEnd with
  | nil =>
    refine ⟨lineEnd canEnd offset, offset, rfl, fun token mem => .inl ?_, rfl, fun later => rfl⟩
    cases canEnd <;> simp_all [lineEnd, Token.lineEnd]
  | cons piece rest ih =>
    obtain ⟨own, canEndNext, given, unfolded⟩ := tokens_cons offset canEnd piece
    obtain ⟨front, stop, isStop, stems, isEnd, line⟩ :=
      ih (offset + Text.byteLength piece.text) canEndNext
    refine ⟨own ++ front, stop, ?_, ?_, ?_, fun later => ?_⟩
    · rw [isStop, List.flatMap_cons, Text.byteLength_append, Nat.add_assoc]
    · intro token mem
      rcases List.mem_append.mp mem with now | after
      · exact (given token now).imp_right fun result => ⟨piece, List.mem_cons_self, result⟩
      · exact (stems token after).imp_right fun ⟨source, mem, result⟩ =>
          ⟨source, List.mem_cons_of_mem _ mem, result⟩
    · rw [unfolded, isEnd, List.append_assoc]
    · rw [List.cons_append, unfolded, line, List.append_assoc]

/-- A text without faults, a line feed and another text: the tokens of the first up to the end of
the file, then the tokens or the faults of the second as they stand behind the line feed. -/
theorem lex_append_line {first : String} {found : List Token} (lexed : lex first = .ok found)
    (second : String) :
    ∃ front, found = front ++ [⟨.eof, ⟨first.utf8ByteSize, first.utf8ByteSize⟩⟩] ∧
      lex (first ++ "\n" ++ second) =
        match lex second with
        | .ok later => .ok (front ++ later.map (Token.shift (first.utf8ByteSize + 1)))
        | .error faults => .error (faults.map (Spanned.shift (first.utf8ByteSize + 1))) := by
  obtain ⟨accepted, rfl⟩ := lexChars_eq_ok_iff.mp lexed
  obtain ⟨front, stop, isStop, -, isEnd, line⟩ := tokens_line 0 false (pieces first.toList)
  rw [flatMap_pieces, Text.byteLength_toList, Nat.zero_add] at isStop
  refine ⟨front, isStop ▸ isEnd, ?_⟩
  have cut : pieces (first ++ "\n" ++ second).toList =
      pieces first.toList ++ ⟨['\n'], .ok .lineBreak⟩ :: pieces second.toList := by
    rw [String.toList_append, String.toList_append, List.append_assoc]
    exact pieces_feed accepted second.toList
  have noFault := (findings_eq_nil_iff (pieces_blamed first.toList) 0).mpr accepted
  have faults : findings 0 (pieces (first ++ "\n" ++ second).toList) =
      (findings 0 (pieces second.toList)).map (Spanned.shift (first.utf8ByteSize + 1)) := by
    rw [cut, findings_append, noFault, flatMap_pieces, Text.byteLength_toList, ← findings_shift]
    simp only [findings, Nat.zero_add, List.nil_append]
    rfl
  have found : tokens 0 false (pieces (first ++ "\n" ++ second).toList) =
      front ++ (tokens 0 false (pieces second.toList)).map
        (Token.shift (first.utf8ByteSize + 1)) := by
    rw [cut, line, isStop, ← tokens_shift]
  simp only [lex, lexChars, faults, found]
  cases findings 0 (pieces second.toList) <;> simp

theorem lex_append_line_comment :
    lex "x // é" = .ok [⟨.ident "x", ⟨0, 1⟩⟩, Token.lineEnd 7, ⟨.eof, ⟨7, 7⟩⟩] ∧
      ∃ front, [⟨.ident "x", ⟨0, 1⟩⟩, Token.lineEnd 7, ⟨.eof, ⟨7, 7⟩⟩] =
          front ++ [⟨.eof, ⟨"x // é".utf8ByteSize, "x // é".utf8ByteSize⟩⟩] ∧
        lex ("x // é" ++ "\n" ++ "y '") =
          match lex "y '" with
          | .ok later => .ok (front ++ later.map (Token.shift ("x // é".utf8ByteSize + 1)))
          | .error faults => .error (faults.map (Spanned.shift ("x // é".utf8ByteSize + 1))) := by
  have lexed : lex "x // é" = .ok [⟨.ident "x", ⟨0, 1⟩⟩, Token.lineEnd 7, ⟨.eof, ⟨7, 7⟩⟩] := by
    decide +kernel
  exact ⟨lexed, lex_append_line lexed "y '"⟩

end Lexer

end GoFront
