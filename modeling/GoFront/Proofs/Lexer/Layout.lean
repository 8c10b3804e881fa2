import GoFront.Proofs.Lexer.Lines
import Mathlib.Data.List.TakeWhile

/-!
The token stream of a text without faults says everything about the text but its white space and
comments: each token stands where its span says and is the longest one that can start there, and
only gaps stand between the tokens.
-/
namespace GoFront

/-- The token is written in the source: it is neither an inserted semicolon nor the end of the
file. -/
def Token.written (t : Token) : Bool := !t.implicit && t.kind ≠ .eof

theorem Keyword.mem_all (keyword : Keyword) : keyword ∈ all := by
  cases keyword <;> decide

theorem Operator.mem_all (sign : Operator) : sign ∈ all := by
  cases sign <;> decide

theorem Punctuation.mem_all (sign : Punctuation) : sign ∈ all := by
  cases sign with
  | opening delimiter => cases delimiter <;> decide
  | closing delimiter => cases delimiter <;> decide
  | _ => decide

namespace Lexer

/-! ### What stands in a text -/

/-- White space and comments as they stand before `after`. A line comment runs to the end of its
line, a block comment to its first closing mark. -/
inductive Gap : List Char → List Char → Prop where
  | nil (after : List Char) : Gap [] after
  | space {c : Char} {gap after : List Char} (isSpace : c ∈ [' ', '\t', '\r', '\n'])
      (rest : Gap gap after) : Gap (c :: gap) after
  | lineComment {body gap after : List Char} (oneLine : '\n' ∉ body)
      (ends : ∀ next ∈ (gap ++ after).head?, next = '\n') (rest : Gap gap after) :
      Gap ('/' :: '/' :: body ++ gap) after
  | blockComment {body gap after : List Char} (first : ¬['*', '/'] <:+: body ++ ['*'])
      (rest : Gap gap after) : Gap ('/' :: '*' :: body ++ '*' :: '/' :: gap) after

/-- The word between the two texts is a whole run of word characters. -/
structure WholeWord (before word after : List Char) : Prop where
  run : ∀ c ∈ word, isWordChar c
  left : ∀ c ∈ before.getLast?, ¬isWordChar c
  right : ∀ c ∈ after.head?, ¬isWordChar c

/-- The word before `after` is at least as long as every sign that could stand in its place. -/
structure LongestMatch (word after : List Char) : Prop where
  operators : ∀ sign : Operator, sign.spelling.toList <+: word ++ after →
    sign.spelling.toList.length ≤ word.length
  punctuation : ∀ sign : Punctuation, sign.spelling.toList <+: word ++ after →
    sign.spelling.toList.length ≤ word.length

/-- The word between the two texts is how a token of this kind is written there. -/
def Spelled (before word after : List Char) : TokenKind → Prop
  | .ident name =>
    WholeWord before word after ∧ word = name.toList ∧ ∀ keyword : Keyword, keyword.spelling ≠ name
  | .keyword keyword => WholeWord before word after ∧ word = keyword.spelling.toList
  | .operator sign => word = sign.spelling.toList ∧ LongestMatch word after
  | .punctuation sign => word = sign.spelling.toList ∧ LongestMatch word after
  | .int _ | .float _ | .imaginary _ | .rune _ | .string _ => True
  | .eof => False

/-- The tokens make up the text behind `before`, in order and with nothing but gaps around them,
and their spans say where they stand. -/
inductive Laid : List Char → List Token → List Char → Prop where
  | done {before gap : List Char} (isGap : Gap gap []) : Laid before [] gap
  | token {before gap word after : List Char} {kind : TokenKind} {rest : List Token}
      (isGap : Gap gap (word ++ after)) (nonempty : word ≠ [])
      (spelled : Spelled (before ++ gap) word after kind)
      (later : Laid (before ++ gap ++ word) rest after) :
      Laid before
        (⟨kind, ⟨Text.byteLength (before ++ gap), Text.byteLength (before ++ gap ++ word)⟩⟩ :: rest)
        (gap ++ (word ++ after))

/-! ### Literals -/

/-- The token is a literal. -/
def IsLiteral : TokenKind → Prop
  | .int _ | .float _ | .imaginary _ | .rune _ | .string _ => True
  | _ => False

/-- If the piece is accepted, it is a literal. -/
def Piece.Literal (piece : Piece TokenKind) : Prop :=
  ∀ kind, piece.result = .ok kind → IsLiteral kind

theorem integer_literal (text digits : List Char) (base : Nat) :
    (integer text base digits).Literal := by
  unfold integer Piece.Literal IsLiteral refused
  grind

theorem decimalInteger_literal (text : List Char) : (decimalInteger text).Literal := by
  have octal := fun digits => integer_literal text digits 8
  have decimal := fun digits => integer_literal text digits 10
  unfold decimalInteger Piece.Literal refused at *
  grind

theorem rejectSuffix_literal {accept : Piece TokenKind} (literal : accept.Literal)
    (text rest : List Char) : (rejectSuffix text rest accept).Literal := by
  unfold rejectSuffix
  split
  · exact literal
  · simp [Piece.Literal, refused]

theorem scanMarked_literal (mark : Char) (base : Nat) (rest : List Char) :
    (scanMarked mark base rest).Literal := by
  apply rejectSuffix_literal
  split
  · simp [Piece.Literal, refused]
  · exact integer_literal _ _ _

theorem floatToken_literal {token : Binary64 → TokenKind}
    (literal : ∀ value, IsLiteral (token value)) (text written : List Char) :
    (floatToken text written token).Literal := by
  unfold floatToken Piece.Literal refused
  grind

theorem scanDecimal_literal (whole rest : List Char) : (scanDecimal whole rest).Literal := by
  rw [scanDecimal_eq]
  extract_lets more exponent number
  split
  · simp [Piece.Literal, refused]
  · unfold finishDecimal
    split
    · exact rejectSuffix_literal (floatToken_literal (by simp [IsLiteral]) _ _) _ _
    · apply rejectSuffix_literal
      split
      · exact floatToken_literal (by simp [IsLiteral]) _ _
      · exact decimalInteger_literal _

theorem scanNumber_literal (first : Char) (rest : List Char) : (scanNumber first rest).Literal := by
  rw [scanNumber_eq]
  split
  · split
    · exact scanMarked_literal _ _ _
    · exact scanDecimal_literal _ _
  · exact scanDecimal_literal _ _

theorem scanString_literal (rest : List Char) : (scanString rest).Literal := by
  unfold scanString Piece.Literal
  grind [IsLiteral]

theorem scanRawString_literal (rest : List Char) : (scanRawString rest).Literal := by
  unfold scanRawString Piece.Literal
  grind [IsLiteral]

theorem scanRune_literal (rest : List Char) : (scanRune rest).Literal := by
  unfold scanRune closeRune Piece.Literal
  grind [IsLiteral]

/-! ### The step -/

/-- The text and any gap that `after` starts with are one gap. -/
def Joins (text after : List Char) : Prop :=
  ∀ gap later, after = gap ++ later → Gap gap later → Gap (text ++ gap) later

/-- What an accepted piece is, where `after` is the text behind it. -/
inductive Reads (text after : List Char) : Lexeme → Prop where
  | gap {lexeme : Lexeme} (noToken : ∀ kind, lexeme ≠ .token kind) (joins : Joins text after) :
      Reads text after lexeme
  | word (run : ∀ c ∈ text, isWordChar c) (start : ∃ c ∈ text.head?, isWordStart c) :
      Reads text after (.token (wordKind text))
  | sign {kind : TokenKind} (longest : LongestSign (text ++ after) text kind) :
      Reads text after (.token kind)
  | literal {kind : TokenKind} (isLiteral : IsLiteral kind) : Reads text after (.token kind)

/-- An accepted piece is what it reads. -/
def Piece.Reading (piece : Piece Lexeme) (text : List Char) : Prop :=
  ∀ lexeme after, piece.result = .ok lexeme → text = piece.text ++ after →
    Reads piece.text after lexeme

theorem Piece.Literal.reading {piece : Piece TokenKind} (literal : piece.Literal)
    (text : List Char) : piece.token.Reading text := by
  intro lexeme after accepted _
  cases result : piece.result with
  | error found => simp [Piece.token, result, Except.map] at accepted
  | ok kind =>
    simp only [Piece.token, result, Except.map, Except.ok.injEq] at accepted
    exact accepted ▸ .literal (literal kind result)

theorem scanSign_reading (c : Char) (rest : List Char) : (scanSign c rest).Reading (c :: rest) := by
  rw [scanSign_eq]
  split
  next text kind found =>
    intro lexeme after accepted split
    obtain rfl := Except.ok.inj accepted
    rw [split] at found
    exact .sign (LongestSign.of_found found)
  next =>
    intro lexeme after accepted
    simp [refused] at accepted

theorem space_reading {c : Char} {lexeme : Lexeme} (rest : List Char)
    (isSpace : c ∈ [' ', '\t', '\r', '\n']) (noToken : ∀ kind, lexeme ≠ .token kind) :
    (⟨[c], .ok lexeme⟩ : Piece Lexeme).Reading (c :: rest) := by
  intro found after accepted _
  obtain rfl := Except.ok.inj accepted
  exact .gap noToken fun gap later _ isGap => .space isSpace isGap

theorem lineComment_reading (rest : List Char) :
    (⟨('/' :: '/' :: rest).takeWhile (· ≠ '\n'), .ok .blank⟩ : Piece Lexeme).Reading
      ('/' :: '/' :: rest) := by
  intro lexeme after accepted split
  obtain rfl := Except.ok.inj accepted
  refine .gap (by simp) fun gap later isAfter isGap => ?_
  have isText : ('/' :: '/' :: rest).takeWhile (· ≠ '\n') =
      '/' :: '/' :: rest.takeWhile (· ≠ '\n') := rfl
  dsimp only at split ⊢
  have ends := takeWhile_next split
  rw [isAfter] at ends
  rw [isText]
  refine .lineComment (fun feed => ?_) (fun next isNext => by simpa using ends next isNext) isGap
  simpa using List.mem_takeWhile_imp feed

theorem scanComment_reading (rest : List Char) :
    (scanComment rest).Reading ('/' :: '*' :: rest) := by
  intro lexeme after accepted split
  unfold scanComment at accepted split ⊢
  split at accepted
  next body found =>
    obtain ⟨inside, rfl, first, -⟩ := commentBody?_front found
    obtain rfl := Except.ok.inj accepted
    refine .gap (fun kind => by split <;> simp) fun gap later _ isGap => ?_
    simpa [found] using Gap.blockComment first isGap
  next => simp [refused] at accepted

theorem scanSlash_reading (rest : List Char) : (scanSlash rest).Reading ('/' :: rest) := by
  unfold scanSlash
  split
  next comment => exact lineComment_reading comment
  next body => exact scanComment_reading body
  next => exact scanSign_reading '/' rest

theorem scanDot_reading (rest : List Char) : (scanDot rest).Reading ('.' :: rest) := by
  unfold scanDot
  split
  next digit more =>
    split
    · exact (scanDecimal_literal [] _).reading _
    · exact scanSign_reading '.' _
  next => exact scanSign_reading '.' []

theorem scan_reading (c : Char) (rest : List Char) : (scan c rest).Reading (c :: rest) := by
  have chosen := scan_chooses c
  generalize scan c = scanner at chosen ⊢
  cases chosen with
  | space isSpace =>
    have inGap : c ∈ [' ', '\t', '\r'] ++ ['\n'] := List.mem_append_left _ isSpace
    exact space_reading rest inGap (by simp)
  | feed isFeed => exact space_reading rest (by simp [isFeed]) (by simp)
  | slash isSlash => exact isSlash ▸ scanSlash_reading rest
  | dot isDot => exact isDot ▸ scanDot_reading rest
  | string => exact (scanString_literal rest).reading _
  | rawString => exact (scanRawString_literal rest).reading _
  | rune => exact (scanRune_literal rest).reading _
  | number => exact (scanNumber_literal c rest).reading _
  | word isWord =>
    intro lexeme after accepted _
    obtain rfl := Except.ok.inj accepted
    refine .word (List.forall_mem_cons.mpr ⟨isWordChar_of_isWordStart isWord, ?_⟩) ?_
    · exact fun next later => List.mem_takeWhile_imp later
    · exact ⟨c, rfl, isWord⟩
  | sign => exact scanSign_reading c rest

/-! ### Tokens -/

theorem ofSpelling?_eq_some {word : String} {keyword : Keyword}
    (found : Keyword.ofSpelling? word = some keyword) : keyword.spelling = word := by
  simpa using List.find?_some found

theorem ofSpelling?_eq_none {word : String} (missed : Keyword.ofSpelling? word = none)
    (keyword : Keyword) : keyword.spelling ≠ word := by
  simpa using List.find?_eq_none.mp missed keyword (Keyword.mem_all keyword)

theorem spelled_wordKind {before word after : List Char} (whole : WholeWord before word after) :
    Spelled before word after (wordKind word) := by
  unfold wordKind
  split
  next keyword found =>
    refine ⟨whole, ?_⟩
    rw [ofSpelling?_eq_some found, String.toList_ofList]
  next missed => exact ⟨whole, String.toList_ofList.symm, ofSpelling?_eq_none missed⟩

theorem LongestSign.spelled {word after : List Char} {kind : TokenKind}
    (longest : LongestSign (word ++ after) word kind) (before : List Char) :
    Spelled before word after kind := by
  obtain ⟨known, -, isLongest⟩ := longest
  have isMatch : LongestMatch word after := by
    constructor
    · intro sign
      apply isLongest _ (.operator sign)
      exact List.mem_append_left _ (List.mem_map_of_mem (Operator.mem_all sign))
    · intro sign
      apply isLongest _ (.punctuation sign)
      exact List.mem_append_right _ (List.mem_map_of_mem (Punctuation.mem_all sign))
  rcases List.mem_append.mp known with operator | punctuation
  · obtain ⟨sign, -, same⟩ := List.mem_map.mp operator
    obtain ⟨rfl, rfl⟩ := Prod.mk.inj same
    exact ⟨rfl, isMatch⟩
  · obtain ⟨sign, -, same⟩ := List.mem_map.mp punctuation
    obtain ⟨rfl, rfl⟩ := Prod.mk.inj same
    exact ⟨rfl, isMatch⟩

theorem IsLiteral.spelled {kind : TokenKind} (literal : IsLiteral kind)
    (before word after : List Char) : Spelled before word after kind := by
  cases kind <;> trivial

theorem WholeWord.of_parted {before word after : List Char} (nonempty : word ≠ [])
    (run : ∀ c ∈ word, isWordChar c) (left : Parted before (word ++ after))
    (right : Parted word after) : WholeWord before word after := by
  refine ⟨run, fun c isLast => ?_, fun c isHead => ?_⟩
  · intro isWord
    obtain ⟨first, rest, rfl⟩ := List.exists_cons_of_ne_nil nonempty
    exact left c isLast first rfl isWord (run first List.mem_cons_self)
  · exact right _ (List.getLast_mem_getLast? nonempty) c isHead (run _ (List.getLast_mem nonempty))

theorem Reads.spelled {before text after : List Char} {kind : TokenKind} (nonempty : text ≠ [])
    (left : Parted before (text ++ after)) (right : Parted text after)
    (reads : Reads text after (.token kind)) : Spelled before text after kind := by
  cases reads with
  | gap noToken => exact absurd rfl (noToken kind)
  | word run => exact spelled_wordKind (.of_parted nonempty run left right)
  | sign longest => exact longest.spelled before
  | literal isLiteral => exact isLiteral.spelled before text after

/-! ### The loop -/

theorem byteLength_pos {text : List Char} (nonempty : text ≠ []) : 0 < Text.byteLength text := by
  obtain ⟨c, rest, rfl⟩ := List.exists_cons_of_ne_nil nonempty
  have := c.utf8Size_pos
  rw [Text.byteLength_cons]
  omega

theorem filter_written_lineEnd (canEnd : Bool) (offset : Nat) :
    (lineEnd canEnd offset).filter Token.written = [] := by
  cases canEnd <;> simp [lineEnd, Token.lineEnd, Token.written, Token.implicit]

theorem written_of_spelled {before word after : List Char} {kind : TokenKind} (nonempty : word ≠ [])
    (spelled : Spelled before word after kind) :
    Token.written
      ⟨kind, ⟨Text.byteLength before, Text.byteLength before + Text.byteLength word⟩⟩ := by
  have := byteLength_pos nonempty
  have noEnd : kind ≠ .eof := by
    rintro rfl
    exact spelled
  simp only [Token.written, Token.implicit]
  grind

/-- A gap in front of tokens and their text belongs to the text. -/
theorem Laid.after_gap {before text after : List Char} {found : List Token}
    (joins : Joins text after) (laid : Laid (before ++ text) found after) :
    Laid before found (text ++ after) := by
  generalize isBefore : before ++ text = start at laid
  cases laid with
  | done isGap => exact .done (joins _ [] (List.append_nil _).symm isGap)
  | @token _ gap word rest _ _ isGap nonempty spelled later =>
    have joined := joins gap (word ++ rest) rfl isGap
    subst isBefore
    rw [List.append_assoc before text gap] at spelled later
    have whole := Laid.token joined nonempty spelled later
    simpa using whole

/-- The tokens of a text without faults that stands behind `before`. -/
theorem laid_tokens {before text : List Char} (canEnd : Bool)
    (accepted : ∀ piece ∈ pieces text, piece.Accepted) (parted : Parted before text) :
    Laid before ((tokens (Text.byteLength before) canEnd (pieces text)).filter Token.written)
      text := by
  -- That no word runs on from `before` is what makes the next word whole on its left.
  induction text using pieces_induction generalizing before canEnd with
  | nil =>
    have none : (tokens (Text.byteLength before) canEnd (pieces [])).filter Token.written = [] := by
      simp [pieces, tokens, filter_written_lineEnd, Token.written]
    exact none ▸ .done (.nil [])
  | cons c rest after split ih =>
    rw [pieces_cons split, List.forall_mem_cons] at accepted
    obtain ⟨⟨lexeme, result⟩, acceptedLater⟩ := accepted
    have cuts := scan_cuts c rest
    have right := cuts.parted lexeme after result split
    have reads := scan_reading c rest lexeme after result split
    have next : Text.byteLength before + Text.byteLength (scan c rest).text =
        Text.byteLength (before ++ (scan c rest).text) := (Text.byteLength_append _ _).symm
    have partedLater := right.append before cuts.nonempty
    rw [pieces_cons split, split]
    cases lexeme with
    | blank =>
      cases reads with
      | gap _ joins =>
        simp only [tokens, result, next]
        exact (ih canEnd acceptedLater partedLater).after_gap joins
    | lineBreak =>
      cases reads with
      | gap _ joins =>
        simp only [tokens, result, next, List.filter_append, filter_written_lineEnd,
          List.nil_append]
        exact (ih false acceptedLater partedLater).after_gap joins
    | token kind =>
      have spelled := reads.spelled cuts.nonempty (split ▸ parted) right
      have written := written_of_spelled cuts.nonempty spelled
      simp only [tokens, result]
      rw [List.filter_cons_of_pos written, next]
      have noGap : Gap [] ((scan c rest).text ++ after) := .nil _
      rw [← List.append_nil before] at spelled
      have later := ih kind.endsLine acceptedLater partedLater
      rw [← List.append_nil before] at later
      simpa using Laid.token noGap cuts.nonempty spelled later

/-! ### The token stream -/

theorem Reads.ne_eof {text after : List Char} {kind : TokenKind}
    (reads : Reads text after (.token kind)) : kind ≠ .eof := by
  cases reads with
  | gap noToken => exact absurd rfl (noToken kind)
  | word run =>
    unfold wordKind
    split <;> simp
  | sign longest =>
    rintro rfl
    exact longest.spelled []
  | literal isLiteral =>
    rintro rfl
    exact isLiteral

theorem pieces_read (text : List Char) : ∀ piece ∈ pieces text, ∀ lexeme,
    piece.result = .ok lexeme → ∃ after, Reads piece.text after lexeme := by
  induction text using pieces_induction with
  | nil => simp [pieces]
  | cons c rest after split ih =>
    rw [pieces_cons split]
    refine List.forall_mem_cons.mpr ⟨fun lexeme result => ?_, ih⟩
    exact ⟨after, scan_reading c rest lexeme after result split⟩

/-- The token stream of a text ends with the end of the file, which stands nowhere else in it. -/
theorem lex_ended {source : String} {found : List Token} (lexed : lex source = .ok found) :
    ∃ front, found = front ++ [⟨.eof, ⟨source.utf8ByteSize, source.utf8ByteSize⟩⟩] ∧
      ∀ token ∈ front, token.kind ≠ .eof := by
  obtain ⟨-, rfl⟩ := lexChars_eq_ok_iff.mp lexed
  obtain ⟨front, stop, isStop, stems, isEnd, -⟩ := tokens_line 0 false (pieces source.toList)
  rw [flatMap_pieces, Text.byteLength_toList, Nat.zero_add] at isStop
  refine ⟨front, isStop ▸ isEnd, fun token mem isEof => ?_⟩
  rcases stems token mem with inserted | ⟨piece, isPiece, result⟩
  · simp [isEof] at inserted
  · obtain ⟨after, reads⟩ := pieces_read _ piece isPiece _ result
    exact reads.ne_eof isEof

/-- Where the tokens stand that make up a text. -/
theorem Laid.placed {before text : List Char} {found : List Token} (laid : Laid before found text) :
    ∀ token ∈ found, ∃ front word after, before ++ text = front ++ word ++ after ∧ word ≠ [] ∧
      token.span = ⟨Text.byteLength front, Text.byteLength (front ++ word)⟩ ∧
      Spelled front word after token.kind := by
  induction laid with
  | done => simp
  | @token before gap word after kind rest isGap nonempty spelled later ih =>
    refine List.forall_mem_cons.mpr ⟨?_, fun token mem => ?_⟩
    · exact ⟨before ++ gap, word, after, by simp, nonempty, rfl, spelled⟩
    · simpa using ih token mem

theorem Laid.after_start {before text : List Char} {found : List Token}
    (laid : Laid before found text) :
    ∀ token ∈ found, Text.byteLength before ≤ token.span.start := by
  induction laid with
  | done => simp
  | @token before gap word after kind rest isGap nonempty spelled later ih =>
    refine List.forall_mem_cons.mpr ⟨by simp, fun token mem => ?_⟩
    have := ih token mem
    simp only [Text.byteLength_append] at this
    omega

theorem Laid.ordered {before text : List Char} {found : List Token}
    (laid : Laid before found text) :
    found.Pairwise fun earlier later => earlier.span.stop ≤ later.span.start := by
  induction laid with
  | done => exact .nil
  | token isGap nonempty spelled later ih => exact .cons later.after_start ih

/-- The tokens stand one behind the other between two offsets. Some cover no text, but no two start
at the same place. -/
structure Ordered (start stop : Nat) (found : List Token) : Prop where
  bounded : ∀ token ∈ found, start ≤ token.span.start ∧ token.span.start ≤ token.span.stop ∧
    token.span.stop ≤ stop
  increasing : found.Pairwise fun earlier later =>
    earlier.span.start < later.span.start ∧ earlier.span.stop ≤ later.span.start

theorem Ordered.sublist {start stop : Nat} {found part : List Token}
    (ordered : Ordered start stop found) (sublist : part.Sublist found) : Ordered start stop part :=
  ⟨fun token mem => ordered.bounded token (sublist.mem mem), ordered.increasing.sublist sublist⟩

/-- At most one token stems from a piece of text, and it starts where the piece does. -/
theorem tokens_piece (offset : Nat) (canEnd : Bool) (piece : Piece Lexeme) :
    ∃ own canEndNext, own.length ≤ 1 ∧
      (∀ token ∈ own, token.span.start = offset ∧ offset ≤ token.span.stop ∧
        token.span.stop ≤ offset + Text.byteLength piece.text) ∧
      ∀ rest, tokens offset canEnd (piece :: rest) =
        own ++ tokens (offset + Text.byteLength piece.text) canEndNext rest := by
  cases result : piece.result with
  | error found => exact ⟨[], canEnd, by simp, by simp, fun rest => by simp [tokens, result]⟩
  | ok lexeme =>
    cases lexeme with
    | blank => exact ⟨[], canEnd, by simp, by simp, fun rest => by simp [tokens, result]⟩
    | lineBreak =>
      refine ⟨lineEnd canEnd offset, false, ?_, ?_, fun rest => by simp [tokens, result]⟩
      · cases canEnd <;> simp [lineEnd]
      · cases canEnd <;> simp [lineEnd, Token.lineEnd]
    | token kind =>
      refine ⟨[⟨kind, ⟨offset, offset + Text.byteLength piece.text⟩⟩], kind.endsLine, ?_, ?_,
        fun rest => by simp [tokens, result]⟩
      · simp
      · simp

theorem tokens_ordered (text : List Char) (offset : Nat) (canEnd : Bool) :
    ∃ front stop, tokens offset canEnd (pieces text) = front ++ [⟨.eof, ⟨stop, stop⟩⟩] ∧
      stop = offset + Text.byteLength text ∧ Ordered offset stop front := by
  induction text using pieces_induction generalizing offset canEnd with
  | nil =>
    refine ⟨lineEnd canEnd offset, offset, by rw [pieces]; rfl, rfl, ?_⟩
    cases canEnd with
    | false => exact ⟨by simp [lineEnd], .nil⟩
    | true => exact ⟨by simp [lineEnd, Token.lineEnd], .cons (by simp) .nil⟩
  | cons c rest after split ih =>
    have longer := byteLength_pos (scan_cuts c rest).nonempty
    have length := congrArg Text.byteLength split
    rw [Text.byteLength_append] at length
    obtain ⟨own, canEndNext, atMostOne, placed, unfolded⟩ :=
      tokens_piece offset canEnd (scan c rest)
    obtain ⟨front, stop, isEnd, isStop, ordered⟩ :=
      ih (offset + Text.byteLength (scan c rest).text) canEndNext
    refine ⟨own ++ front, stop, ?_, by omega, fun token mem => ?_, ?_⟩
    · rw [pieces_cons split, unfolded, isEnd, List.append_assoc]
    · rcases List.mem_append.mp mem with isOwn | isLater
      · have := placed token isOwn
        omega
      · have := ordered.bounded token isLater
        omega
    · refine List.pairwise_append.mpr ⟨?_, ordered.increasing, fun token isOwn later isLater => ?_⟩
      · cases own with
        | nil => exact .nil
        | cons first others =>
          obtain rfl : others = [] := by simpa using atMostOne
          exact List.pairwise_singleton _ first
      · have := placed token isOwn
        have := ordered.bounded later isLater
        omega

/-- The tokens before the end of the file stand in the order of the text. -/
theorem ordered_of_lex {source : String} {front : List Token} {finish : Token}
    (lexed : lex source = .ok (front ++ [finish])) : Ordered 0 source.utf8ByteSize front := by
  obtain ⟨-, isTokens⟩ := lexChars_eq_ok_iff.mp lexed
  obtain ⟨found, stop, isEnd, isStop, ordered⟩ := tokens_ordered source.toList 0 false
  rw [Text.byteLength_toList, Nat.zero_add] at isStop
  obtain ⟨rfl, -⟩ := List.append_inj' (isEnd.symm.trans isTokens) rfl
  exact isStop ▸ ordered

/-- The tokens are those of the source text. -/
structure Faithful (source : String) (found : List Token) : Prop where
  /-- The end of the file is the last token, and no other. -/
  ended : ∃ front, found = front ++ [⟨.eof, ⟨source.utf8ByteSize, source.utf8ByteSize⟩⟩] ∧
    ∀ token ∈ front, token.kind ≠ .eof
  /-- The written tokens and the gaps around them make up the source. -/
  laid : Laid [] (found.filter Token.written) source.toList
  /-- Every written token covers whole characters of the source, at least one, and is spelled as
  its kind is there. -/
  placed : ∀ token ∈ found.filter Token.written, ∃ before word after : List Char,
    source.toList = before ++ word ++ after ∧ word ≠ [] ∧
    token.span = ⟨Text.byteLength before, Text.byteLength (before ++ word)⟩ ∧
    Spelled before word after token.kind
  bounded : ∀ token ∈ found.filter Token.written,
    token.span.start < token.span.stop ∧ token.span.stop ≤ source.utf8ByteSize
  ordered : (found.filter Token.written).Pairwise fun earlier later =>
    earlier.span.stop ≤ later.span.start

/-- The tokens of a text without faults are faithful to it. -/
theorem lex_faithful {source : String} {found : List Token} (lexed : lex source = .ok found) :
    Faithful source found := by
  have laid : Laid [] (found.filter Token.written) source.toList := by
    obtain ⟨accepted, rfl⟩ := lexChars_eq_ok_iff.mp lexed
    exact laid_tokens false accepted (parted_nil _)
  have placed := laid.placed
  rw [List.nil_append] at placed
  refine ⟨lex_ended lexed, laid, placed, fun token mem => ?_, laid.ordered⟩
  obtain ⟨before, word, after, split, nonempty, span, -⟩ := placed token mem
  have := byteLength_pos nonempty
  rw [← Text.byteLength_toList, split, span]
  simp only [Text.byteLength_append]
  omega

theorem lex_faithful_munch :
    ∃ found, lex "a&^=b // c" = .ok found ∧ Faithful "a&^=b // c" found :=
  ⟨[⟨.ident "a", ⟨0, 1⟩⟩, ⟨.operator .ampCaretEq, ⟨1, 4⟩⟩, ⟨.ident "b", ⟨4, 5⟩⟩, .lineEnd 10,
    ⟨.eof, ⟨10, 10⟩⟩], by decide +kernel, lex_faithful (by decide +kernel)⟩

end Lexer

end GoFront
