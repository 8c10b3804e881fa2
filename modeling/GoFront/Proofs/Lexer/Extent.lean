import GoFront.Proofs.Lexer.Lines
import Mathlib.Data.List.TakeWhile

/-!
How far a fault reaches. A comment or a raw string without an end is reported over all its lines.
Any other fault stays on its line, but for one case: a backslash at the end of a line within a
string or a rune takes the line feed for the second character of an escape sequence. The sequence
is reported as unknown, and the literal goes on behind it.
-/
namespace GoFront

/-- The fault is that of a comment or a raw string without an end. -/
def Fault.runsOn (fault : Fault) : Bool :=
  fault = .unterminatedComment || fault = .unterminatedRawString

namespace Lexer

open Text (byteLength)

/-- Each line feed of the text, which starts at byte `offset`, is the second character of an escape
sequence in the text that `found` reports as unknown. -/
def FeedsReported (found : List Finding) (offset : Nat) (text : List Char) : Prop :=
  ∀ front more, text = front ++ '\n' :: more → ∃ opening, front = opening ++ ['\\'] ∧
    ⟨.unknownEscape, ⟨offset + byteLength opening, offset + byteLength opening + 2⟩⟩ ∈ found

/-- The finding is about a part of the text, which starts at byte `offset`. Unless it is about a
comment or a raw string without an end, that part has only line feeds that are reported. -/
def Confined (found : List Finding) (offset : Nat) (text : List Char) (finding : Finding) : Prop :=
  ∃ before mark after, text = before ++ mark ++ after ∧
    finding.span = ⟨offset + byteLength before, offset + byteLength (before ++ mark)⟩ ∧
    (finding.value.runsOn ∨ FeedsReported found (offset + byteLength before) mark)

section

variable {found more : List Finding} {offset : Nat} {text later : List Char} {finding : Finding}

namespace FeedsReported

theorem of_not_mem (noFeed : '\n' ∉ text) : FeedsReported found offset text := by
  rintro front more rfl
  simp at noFeed

theorem append (first : FeedsReported found offset text)
    (second : FeedsReported found (offset + byteLength text) later) :
    FeedsReported found offset (text ++ later) := by
  intro front more split
  rcases List.append_eq_append_iff.mp split with ⟨between, rfl, isLater⟩ | ⟨between, isText, isMore⟩
  · obtain ⟨opening, rfl, reported⟩ := second between more isLater
    refine ⟨text ++ opening, by simp, ?_⟩
    rwa [Text.byteLength_append, ← Nat.add_assoc]
  · cases between with
    | nil =>
      obtain ⟨opening, empty, -⟩ := second [] more isMore.symm
      simp at empty
    | cons c between =>
      obtain ⟨rfl, -⟩ := List.cons.inj isMore
      exact first front between isText

theorem mono (reported : FeedsReported found offset text) (kept : found ⊆ more) :
    FeedsReported more offset text := by
  intro front rest split
  obtain ⟨opening, isFront, mem⟩ := reported front rest split
  exact ⟨opening, isFront, kept mem⟩

theorem shift (reported : FeedsReported found offset text) (n : Nat) :
    FeedsReported (found.map (Spanned.shift n)) (n + offset) text := by
  intro front rest split
  obtain ⟨opening, isFront, mem⟩ := reported front rest split
  refine ⟨opening, isFront, List.mem_map.mpr ⟨_, mem, ?_⟩⟩
  simp [Spanned.shift, Span.shift, Nat.add_assoc]

end FeedsReported

namespace Confined

theorem whole {fault : Fault} (reported : fault.runsOn ∨ FeedsReported found offset text) :
    Confined found offset text ⟨fault, offset, offset + byteLength text⟩ :=
  ⟨[], text, [], by simp, by simp, by simpa using reported⟩

theorem all {fault : Fault} (reported : fault.runsOn ∨ FeedsReported found 0 text) :
    Confined found 0 text ⟨fault, 0, byteLength text⟩ := by
  have confined := whole reported
  rwa [Nat.zero_add] at confined

theorem mono (confined : Confined found offset text finding) (kept : found ⊆ more) :
    Confined more offset text finding := by
  obtain ⟨before, mark, after, split, span, reported⟩ := confined
  exact ⟨before, mark, after, split, span, reported.imp_right (·.mono kept)⟩

theorem append (confined : Confined found offset text finding) (later : List Char) :
    Confined found offset (text ++ later) finding := by
  obtain ⟨before, mark, after, rfl, span, reported⟩ := confined
  exact ⟨before, mark, after ++ later, by simp, span, reported⟩

theorem behind (confined : Confined found (offset + byteLength text) later finding) :
    Confined found offset (text ++ later) finding := by
  obtain ⟨before, mark, after, rfl, span, reported⟩ := confined
  refine ⟨text ++ before, mark, after, by simp, ?_, ?_⟩
  · simp [span, Nat.add_assoc]
  · rwa [Text.byteLength_append, ← Nat.add_assoc]

theorem shift (confined : Confined found offset text finding) (n : Nat) :
    Confined (found.map (Spanned.shift n)) (n + offset) text (finding.shift n) := by
  obtain ⟨before, mark, after, split, span, reported⟩ := confined
  refine ⟨before, mark, after, split, ?_, reported.imp_right fun feeds => ?_⟩
  · simp [Spanned.shift, Span.shift, span, Nat.add_assoc]
  · rw [Nat.add_assoc]
    exact feeds.shift n

end Confined

end

/-- What a refused piece reports: the line feeds in it, unless it has no end, and each finding about
a part of it. -/
def Piece.KeepsLine {α : Type} (piece : Piece α) : Prop :=
  ∀ found, piece.result = .error found →
    ((∃ finding ∈ found, finding.value.runsOn) ∨ FeedsReported found 0 piece.text) ∧
      ∀ finding ∈ found, Confined found 0 piece.text finding

theorem keepsLine_of_ok {α : Type} (text : List Char) (value : α) :
    Piece.KeepsLine ⟨text, .ok value⟩ := by
  intro found refused
  simp at refused

theorem token_refused {piece : Piece TokenKind} {found : List Finding}
    (refused : piece.token.result = .error found) : piece.result = .error found := by
  cases result : piece.result with
  | ok kind => simp [Piece.token, result, Except.map] at refused
  | error errors => simpa [Piece.token, result, Except.map] using refused

theorem Piece.KeepsLine.token {piece : Piece TokenKind} (keeps : piece.KeepsLine) :
    piece.token.KeepsLine := by
  intro found refused
  exact keeps found (token_refused refused)

/-- If the piece is refused, it has one fault that covers all of it. -/
def Piece.FaultyWhole {α : Type} (piece : Piece α) : Prop :=
  ∀ found, piece.result = .error found → ∃ fault, found = [⟨fault, 0, byteLength piece.text⟩]

theorem Piece.FaultyWhole.keepsLine {α : Type} {piece : Piece α} (faulty : piece.FaultyWhole)
    (noFeed : '\n' ∉ piece.text) : piece.KeepsLine := by
  intro found refused
  obtain ⟨fault, rfl⟩ := faulty found refused
  have reported : FeedsReported [⟨fault, 0, byteLength piece.text⟩] 0 piece.text :=
    .of_not_mem noFeed
  refine ⟨.inr reported, fun finding mem => ?_⟩
  rw [List.mem_singleton.mp mem]
  exact .all (.inr reported)

theorem keepsLine_of_runsOn {α : Type} (text : List Char) {fault : Fault} (runsOn : fault.runsOn) :
    (refused text fault : Piece α).KeepsLine := by
  intro found isRefused
  obtain rfl := Except.error.inj isRefused
  refine ⟨.inl ⟨_, List.mem_singleton_self _, runsOn⟩, fun finding mem => ?_⟩
  rw [List.mem_singleton.mp mem]
  exact .all (.inl runsOn)

/-! ### Numbers and signs -/

/-- A scanner that a line feed stops takes no line feed. -/
theorem feed_not_mem_text {α : Type} {scanner : List Char → Piece α} {c : Char} (noFeed : c ≠ '\n')
    (cuts : ∀ rest, (scanner rest).Cuts (c :: rest))
    (stops : ∀ rest more, scanner (rest ++ '\n' :: more) = scanner rest) (rest : List Char) :
    '\n' ∉ (scanner rest).text := by
  by_cases feed : '\n' ∈ rest
  · obtain ⟨line, more, rfl, oneLine⟩ := List.eq_append_cons_of_mem feed
    rw [stops]
    intro mem
    simpa [Ne.symm noFeed, oneLine] using (cuts line).front.subset mem
  · intro mem
    simpa [Ne.symm noFeed, feed] using (cuts rest).front.subset mem

theorem refused_faultyWhole {α : Type} (text : List Char) (fault : Fault) :
    (refused text fault : Piece α).FaultyWhole := by
  intro found isRefused
  exact ⟨fault, (Except.error.inj isRefused).symm⟩

theorem faultyWhole_of_ok {α : Type} (text : List Char) (value : α) :
    Piece.FaultyWhole ⟨text, .ok value⟩ := by
  intro found refused
  simp at refused

theorem Piece.FaultyWhole.token {piece : Piece TokenKind} (faulty : piece.FaultyWhole) :
    piece.token.FaultyWhole := by
  intro found refused
  exact faulty found (token_refused refused)

theorem integer_faultyWhole (text digits : List Char) (base : Nat) :
    (integer text base digits).FaultyWhole := by
  unfold integer
  extract_lets value
  split
  · exact faultyWhole_of_ok _ _
  · exact refused_faultyWhole _ _

theorem decimalInteger_faultyWhole (text : List Char) : (decimalInteger text).FaultyWhole := by
  unfold decimalInteger
  split
  · split
    · exact refused_faultyWhole _ _
    · exact integer_faultyWhole _ _ _
  · exact integer_faultyWhole _ _ _

theorem rejectSuffix_faultyWhole {accept : Piece TokenKind} (faulty : accept.FaultyWhole)
    (text rest : List Char) : (rejectSuffix text rest accept).FaultyWhole := by
  unfold rejectSuffix
  split
  · exact faulty
  · exact refused_faultyWhole _ _

theorem scanMarked_faultyWhole (mark : Char) (base : Nat) (rest : List Char) :
    (scanMarked mark base rest).FaultyWhole := by
  apply rejectSuffix_faultyWhole
  split
  · exact refused_faultyWhole _ _
  · exact integer_faultyWhole _ _ _

theorem floatToken_faultyWhole (text written : List Char) (token : Binary64 → TokenKind) :
    (floatToken text written token).FaultyWhole := by
  unfold floatToken
  extract_lets numeral
  split
  · exact faultyWhole_of_ok _ _
  · exact refused_faultyWhole _ _

theorem finishDecimal_faultyWhole (d : DecimalText) (rest : List Char) :
    (finishDecimal d rest).FaultyWhole := by
  unfold finishDecimal
  split
  · exact rejectSuffix_faultyWhole (floatToken_faultyWhole _ _ _) _ _
  · apply rejectSuffix_faultyWhole
    split
    · exact floatToken_faultyWhole _ _ _
    · exact decimalInteger_faultyWhole _

theorem scanDecimal_faultyWhole (whole rest : List Char) :
    (scanDecimal whole rest).FaultyWhole := by
  rw [scanDecimal_eq]
  extract_lets more exponent number
  split
  · exact refused_faultyWhole _ _
  · exact finishDecimal_faultyWhole _ _

theorem scanNumber_faultyWhole (first : Char) (rest : List Char) :
    (scanNumber first rest).FaultyWhole := by
  rw [scanNumber_eq]
  split
  · split
    · exact scanMarked_faultyWhole _ _ _
    · exact scanDecimal_faultyWhole _ _
  · exact scanDecimal_faultyWhole _ _

theorem scanSign_faultyWhole (c : Char) (rest : List Char) : (scanSign c rest).FaultyWhole := by
  rw [scanSign_eq]
  split
  · exact faultyWhole_of_ok _ _
  · exact refused_faultyWhole _ _

theorem scanDot_faultyWhole (rest : List Char) : (scanDot rest).FaultyWhole := by
  unfold scanDot
  split
  · split
    · exact (scanDecimal_faultyWhole _ _).token
    · exact scanSign_faultyWhole _ _
  · exact scanSign_faultyWhole _ _

theorem scanNumber_keepsLine {first : Char} (noFeed : first ≠ '\n') (rest : List Char) :
    (scanNumber first rest).KeepsLine :=
  (scanNumber_faultyWhole first rest).keepsLine
    (feed_not_mem_text noFeed (scanNumber_cuts first) (scanNumber_blank (by decide) first) rest)

theorem scanSign_keepsLine {c : Char} (noFeed : c ≠ '\n') (rest : List Char) :
    (scanSign c rest).KeepsLine :=
  (scanSign_faultyWhole c rest).keepsLine
    (feed_not_mem_text noFeed (scanSign_cuts c) (scanSign_blank (by decide) c) rest)

theorem scanDot_keepsLine (rest : List Char) : (scanDot rest).KeepsLine :=
  (scanDot_faultyWhole rest).keepsLine
    (feed_not_mem_text (by decide) scanDot_cuts (scanDot_blank (by decide)) rest)

/-! ### Strings and runes -/

/-- The element has no line feed, or it is a backslash at the end of a line. -/
def Element.KeepsLine (element : Element) : Prop :=
  '\n' ∉ element.text ∨ element = ⟨['\\', '\n'], .error .unknownEscape⟩

theorem feed_not_mem_digits {base : Nat} (digitless : isDigitOf base '\n' = false)
    (text : List Char) : '\n' ∉ text.takeWhile (isDigitOf base) := by
  intro mem
  have digit := List.mem_takeWhile_imp mem
  simp [digitless] at digit

theorem escape_keepsLine {quote : Char} (isQuote : quote ≠ '\n') (c : Char) (rest : List Char) :
    (escape quote c rest).KeepsLine := by
  by_cases feed : c = '\n'
  · subst feed
    right
    have noSimple : simpleEscape? quote '\n' = none := by simp [simpleEscape?, Ne.symm isQuote]
    have noHex : hexEscapeDigits? '\n' = none := rfl
    simp only [escape, noSimple, noHex]
    rfl
  · left
    have hex := feed_not_mem_digits (by decide : isDigitOf 16 '\n' = false)
    have octal := feed_not_mem_digits (by decide : isDigitOf 8 '\n' = false)
    unfold escape
    split
    next => simp [Ne.symm feed]
    next =>
      split
      next count _ => simp [hexEscape, Ne.symm feed, hex]
      next =>
        split
        · simp [octalEscape, Ne.symm feed, octal]
        · simp [Ne.symm feed]

theorem stringBody_keepsLine (text : List Char) :
    (∀ element ∈ (stringBody text).elements, element.KeepsLine) ∧
      '\n' ∉ (stringBody text).tail := by
  fun_induction stringBody text with
  | case5 c rest element body ih =>
    exact ⟨List.forall_mem_cons.mpr ⟨escape_keepsLine (by decide) c rest, ih.1⟩, ih.2⟩
  | case6 c rest noFeed _ _ _ body ih =>
    refine ⟨List.forall_mem_cons.mpr ⟨.inl ?_, ih.1⟩, ih.2⟩
    simpa using Ne.symm noFeed
  | _ => simp

theorem elementFindings_cons_subset (offset : Nat) (element : Element) (rest : List Element) :
    elementFindings (offset + byteLength element.text) rest ⊆
      elementFindings offset (element :: rest) := by
  intro finding mem
  rw [elementFindings]
  cases element.meaning with
  | ok value => exact mem
  | error fault => exact List.mem_cons_of_mem _ mem

theorem Element.KeepsLine.feedsReported {element : Element} (keeps : element.KeepsLine)
    (offset : Nat) (rest : List Element) :
    FeedsReported (elementFindings offset (element :: rest)) offset element.text := by
  rcases keeps with noFeed | rfl
  · exact .of_not_mem noFeed
  · intro front more split
    obtain rfl : front = ['\\'] := by
      rcases front with _ | ⟨first, _ | ⟨second, rest⟩⟩
      · simp at split
      · simpa using (List.cons.inj split).1.symm
      · simp at split
    exact ⟨[], rfl, List.mem_cons_self⟩

/-- The line feeds of the elements are reported with their faults. -/
theorem elements_feedsReported {elements : List Element}
    (keep : ∀ element ∈ elements, element.KeepsLine) (offset : Nat) :
    FeedsReported (elementFindings offset elements) offset (elements.flatMap (·.text)) := by
  induction elements generalizing offset with
  | nil => exact .of_not_mem (by simp)
  | cons element rest ih =>
    obtain ⟨first, later⟩ := List.forall_mem_cons.mp keep
    rw [List.flatMap_cons]
    exact (first.feedsReported offset rest).append
      ((ih later _).mono (elementFindings_cons_subset offset element rest))

theorem elementFindings_confined {elements : List Element}
    (keep : ∀ element ∈ elements, element.KeepsLine) (offset : Nat) :
    ∀ finding ∈ elementFindings offset elements,
      Confined (elementFindings offset elements) offset (elements.flatMap (·.text)) finding := by
  induction elements generalizing offset with
  | nil => simp [elementFindings]
  | cons element rest ih =>
    obtain ⟨first, later⟩ := List.forall_mem_cons.mp keep
    have reported := first.feedsReported offset rest
    have behind : ∀ finding ∈ elementFindings (offset + byteLength element.text) rest,
        Confined (elementFindings offset (element :: rest)) offset
          ((element :: rest).flatMap (·.text)) finding := by
      intro finding mem
      rw [List.flatMap_cons]
      exact ((ih later _ finding mem).mono (elementFindings_cons_subset offset element rest)).behind
    intro finding mem
    rw [elementFindings] at mem
    cases meaning : element.meaning with
    | ok value =>
      rw [meaning] at mem
      exact behind finding mem
    | error fault =>
      rw [meaning] at mem
      rcases List.mem_cons.mp mem with rfl | mem
      · rw [List.flatMap_cons]
        exact (Confined.whole (.inr reported)).append _
      · exact behind finding mem

/-- A literal that opens with a quote, where `tail` is the text after its elements: the faults of
the elements and of the literal as a whole. -/
theorem literal_keepsLine {elements : List Element}
    (keep : ∀ element ∈ elements, element.KeepsLine) {quote : Char} (isQuote : quote ∈ ['"', '\''])
    {tail : List Char} (noFeed : '\n' ∉ tail) {result : Except (List Finding) TokenKind}
    (faults : ∀ found, result = .error found → ∃ more, found = elementFindings 1 elements ++ more ∧
      ∀ finding ∈ more, finding.span =
        ⟨0, byteLength (quote :: elements.flatMap (·.text) ++ tail)⟩) :
    Piece.KeepsLine ⟨quote :: elements.flatMap (·.text) ++ tail, result⟩ := by
  intro found refused
  obtain ⟨more, rfl, covers⟩ := faults found refused
  have opens : byteLength [quote] = 1 ∧ '\n' ∉ [quote] := by
    simp only [List.mem_cons, List.not_mem_nil, or_false] at isQuote
    rcases isQuote with rfl | rfl <;> decide
  have kept : elementFindings 1 elements ⊆ elementFindings 1 elements ++ more :=
    List.subset_append_left _ _
  have inside := (elements_feedsReported keep 1).mono kept
  have reported : FeedsReported (elementFindings 1 elements ++ more) 0
      (quote :: elements.flatMap (·.text) ++ tail) := by
    have front : FeedsReported (elementFindings 1 elements ++ more) 0
        ([quote] ++ elements.flatMap (·.text)) :=
      .append (.of_not_mem opens.2) (by rwa [opens.1])
    exact front.append (.of_not_mem noFeed)
  refine ⟨.inr reported, fun finding mem => ?_⟩
  rcases List.mem_append.mp mem with element | whole
  · have confined := (elementFindings_confined keep 1 finding element).mono kept
    have behind : Confined (elementFindings 1 elements ++ more) 0
        ([quote] ++ elements.flatMap (·.text)) finding :=
      .behind (by rwa [opens.1])
    exact behind.append tail
  · have isWhole : finding = ⟨finding.value, 0, byteLength
        (quote :: elements.flatMap (·.text) ++ tail)⟩ := by
      rw [← covers finding whole]
    rw [isWhole]
    exact .all (.inr reported)

theorem scanString_keepsLine (rest : List Char) : (scanString rest).KeepsLine := by
  obtain ⟨keep, noFeed⟩ := stringBody_keepsLine rest
  unfold scanString
  extract_lets body text unterminated
  split
  · exact keepsLine_of_ok _ _
  · refine literal_keepsLine keep (by decide) noFeed fun found isFound =>
      ⟨unterminated, (Except.error.inj isFound).symm, fun finding mem => ?_⟩
    simp only [unterminated] at mem
    split at mem
    · simp at mem
    · rw [List.mem_singleton.mp mem]

theorem feed_not_mem_toRuneEnd (text : List Char) : '\n' ∉ toRuneEnd text := by
  fun_induction toRuneEnd text <;> simp_all [eq_comm]

theorem closeRune_keepsLine {element : Element} (keeps : element.KeepsLine) (rest : List Char) :
    (closeRune element rest).KeepsLine := by
  have keep : ∀ other ∈ [element], other.KeepsLine := by simpa using keeps
  have isText : [element].flatMap (·.text) = element.text := by simp
  unfold closeRune
  split
  next =>
    split
    next => exact keepsLine_of_ok _ _
    next =>
      rw [← isText]
      refine literal_keepsLine keep (by decide) (by decide) fun found isFound => ⟨[], ?_, by simp⟩
      rw [List.append_nil]
      exact (Except.error.inj isFound).symm
  next =>
    rw [← isText]
    refine literal_keepsLine keep (by decide) (feed_not_mem_toRuneEnd rest) fun found isFound =>
      ⟨_, (Except.error.inj isFound).symm, fun finding mem => ?_⟩
    rw [List.mem_singleton.mp mem]

theorem scanRune_keepsLine (rest : List Char) : (scanRune rest).KeepsLine := by
  unfold scanRune
  split
  case h_5 c rest => exact closeRune_keepsLine (escape_keepsLine (by decide) c rest) _
  case h_6 c rest _ noFeed _ _ =>
    refine closeRune_keepsLine (.inl ?_) rest
    simpa using Ne.symm noFeed
  all_goals exact (refused_faultyWhole _ _).keepsLine (by decide)

theorem scanRawString_keepsLine (rest : List Char) : (scanRawString rest).KeepsLine := by
  unfold scanRawString
  extract_lets body text
  split
  · exact keepsLine_of_ok _ _
  · exact keepsLine_of_runsOn text rfl

/-! ### The step and the loop -/

theorem scanSlash_keepsLine (rest : List Char) : (scanSlash rest).KeepsLine := by
  unfold scanSlash
  split
  next => exact keepsLine_of_ok _ _
  next body =>
    unfold scanComment
    split
    · exact keepsLine_of_ok _ _
    · exact keepsLine_of_runsOn _ rfl
  next => exact scanSign_keepsLine (by decide) rest

theorem scan_keepsLine (c : Char) (rest : List Char) : (scan c rest).KeepsLine := by
  by_cases feed : c = '\n'
  · subst feed
    exact keepsLine_of_ok ['\n'] Lexeme.lineBreak
  have chosen := scan_chooses c
  generalize scan c = scanner at chosen ⊢
  cases chosen with
  | space | feed | word => exact keepsLine_of_ok _ _
  | slash => exact scanSlash_keepsLine rest
  | dot => exact scanDot_keepsLine rest
  | string => exact (scanString_keepsLine rest).token
  | rawString => exact (scanRawString_keepsLine rest).token
  | rune => exact (scanRune_keepsLine rest).token
  | number => exact (scanNumber_keepsLine feed rest).token
  | sign => exact scanSign_keepsLine feed rest

theorem pieces_keepLine (text : List Char) : ∀ piece ∈ pieces text, piece.KeepsLine := by
  induction text using pieces_induction with
  | nil => simp [pieces]
  | cons c rest after split ih =>
    rw [pieces_cons split]
    exact List.forall_mem_cons.mpr ⟨scan_keepsLine c rest, ih⟩

theorem findings_confined {cut : List (Piece Lexeme)} (keep : ∀ piece ∈ cut, piece.KeepsLine)
    (offset : Nat) : ∀ finding ∈ findings offset cut,
      Confined (findings offset cut) offset (cut.flatMap (·.text)) finding := by
  induction cut generalizing offset with
  | nil => simp [findings]
  | cons piece rest ih =>
    obtain ⟨first, later⟩ := List.forall_mem_cons.mp keep
    have behind := ih later (offset + byteLength piece.text)
    intro finding mem
    rw [List.flatMap_cons]
    cases result : piece.result with
    | ok lexeme =>
      simp only [findings, result] at mem ⊢
      exact (behind finding mem).behind
    | error errors =>
      simp only [findings, result] at mem ⊢
      rcases List.mem_append.mp mem with own | other
      · obtain ⟨inPiece, isOwn, rfl⟩ := List.mem_map.mp own
        have confined := ((first errors result).2 inPiece isOwn).shift offset
        exact (confined.mono (List.subset_append_left _ _)).append _
      · exact (behind finding other).behind.mono (List.subset_append_right _ _)

/-- Each fault of a text is reported at a part of the text and, unless it is that of a comment or a
raw string without an end, over no line feed but those that are reported as the second character of
an unknown escape sequence. Nor is any other line feed in a piece of text that is refused. -/
theorem lex_faults_on_line {source : String} {found : List Finding}
    (refused : lex source = .error found) :
    (∀ finding ∈ found, Confined found 0 source.toList finding) ∧
    ∀ piece ∈ pieces source.toList, ∀ errors, piece.result = .error errors →
      (∃ finding ∈ errors, finding.value.runsOn) ∨ FeedsReported errors 0 piece.text := by
  have keep := pieces_keepLine source.toList
  refine ⟨?_, fun piece mem errors result => (keep piece mem errors result).1⟩
  obtain rfl : findings 0 (pieces source.toList) = found := by
    simp only [lex, lexChars] at refused
    split at refused
    · simp at refused
    · exact Except.error.inj refused
  have confined := findings_confined keep 0
  rwa [flatMap_pieces] at confined

theorem lex_faults_on_line_rune :
    ∃ found, lex "x := '\\\n+'; 08" = .error found ∧
      (∀ finding ∈ found, Confined found 0 "x := '\\\n+'; 08".toList finding) ∧
      ∀ piece ∈ pieces "x := '\\\n+'; 08".toList, ∀ errors, piece.result = .error errors →
        (∃ finding ∈ errors, finding.value.runsOn) ∨ FeedsReported errors 0 piece.text := by
  have refused : lex "x := '\\\n+'; 08" = .error [⟨.unknownEscape, ⟨6, 8⟩⟩,
      ⟨.unterminatedRune, ⟨5, 10⟩⟩, ⟨.invalidOctalDigit "08", ⟨12, 14⟩⟩] := by
    decide +kernel
  exact ⟨_, refused, lex_faults_on_line refused⟩

/-- A string whose line ends in a backslash is reported over the line feed and the next line. -/
theorem string_fault_over_lines :
    ∃ found finding before mark after, lex "\"a\\\nb\n" = .error found ∧ finding ∈ found ∧
      finding.value = .unterminatedString ∧ "\"a\\\nb\n".toList = before ++ mark ++ after ∧
      finding.span = ⟨byteLength before, byteLength (before ++ mark)⟩ ∧ '\n' ∈ mark :=
  ⟨[⟨.unknownEscape, ⟨2, 4⟩⟩, ⟨.unterminatedString, ⟨0, 5⟩⟩], ⟨.unterminatedString, ⟨0, 5⟩⟩, [],
    ['"', 'a', '\\', '\n', 'b'], ['\n'], by decide +kernel, by decide, rfl, by decide +kernel,
    by decide, by decide⟩

end Lexer

end GoFront
