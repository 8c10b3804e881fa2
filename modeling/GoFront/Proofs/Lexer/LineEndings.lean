import GoFront.Proofs.Lexer.Layout
import Mathlib.Data.List.Forall2

/-!
Texts whose lines end in a carriage return and a line feed. A scanner either cuts the same piece off
both texts, with the line ends in it changed, or refuses both; only a comment up to the end of a
line takes the carriage return with it. So the tokens are the same and stand at the same places.
-/
namespace GoFront.Lexer

/-- The text with a carriage return before every line feed. -/
def crlf (text : List Char) : List Char := text.flatMap fun c => if c = '\n' then ['\r', c] else [c]

@[simp] theorem crlf_nil : crlf [] = [] := rfl

@[simp] theorem crlf_append (a b : List Char) : crlf (a ++ b) = crlf a ++ crlf b :=
  List.flatMap_append

theorem crlf_feed (rest : List Char) : crlf ('\n' :: rest) = '\r' :: '\n' :: crlf rest := rfl

theorem crlf_cons {c : Char} (noFeed : c ≠ '\n') (rest : List Char) :
    crlf (c :: rest) = c :: crlf rest := by
  simp [crlf, noFeed]

theorem crlf_front {front text : List Char} (isFront : front <+: text) :
    crlf front <+: crlf text := by
  obtain ⟨after, rfl⟩ := isFront
  exact ⟨crlf after, (crlf_append front after).symm⟩

theorem crlf_eq_self {text : List Char} (noFeed : '\n' ∉ text) : crlf text = text := by
  induction text with
  | nil => rfl
  | cons c rest ih =>
    rw [List.mem_cons, not_or] at noFeed
    rw [crlf_cons (Ne.symm noFeed.1), ih noFeed.2]

/-- Both texts have the same first line. -/
theorem crlf_line (text : List Char) :
    crlf text = text ∨ ∃ line more, '\n' ∉ line ∧ text = line ++ '\n' :: more ∧
      crlf text = line ++ '\r' :: '\n' :: crlf more := by
  by_cases feed : '\n' ∈ text
  · obtain ⟨line, more, rfl, noFeed⟩ := List.eq_append_cons_of_mem feed
    refine .inr ⟨line, more, noFeed, rfl, ?_⟩
    rw [crlf_append, crlf_feed, crlf_eq_self noFeed]
  · exact .inl (crlf_eq_self feed)

/-- A common front of both texts is within the first line. -/
theorem feed_not_mem_front {front text : List Char} (isFront : front <+: text)
    (isFrontToo : front <+: crlf text) : '\n' ∉ front := by
  induction front generalizing text with
  | nil => simp
  | cons c front ih =>
    obtain ⟨after, rfl⟩ := isFront
    have noFeed : c ≠ '\n' := by
      rintro rfl
      simp [crlf_feed] at isFrontToo
    rw [List.cons_append, crlf_cons noFeed, List.cons_prefix_cons] at isFrontToo
    rw [List.mem_cons, not_or]
    exact ⟨Ne.symm noFeed, ih (List.prefix_append _ _) isFrontToo.2⟩

theorem takeWhile_crlf {p : Char → Bool} (stops : p '\n' = false) (stopsToo : p '\r' = false)
    (text : List Char) : (crlf text).takeWhile p = text.takeWhile p := by
  rcases crlf_line text with same | ⟨line, more, -, rfl, isCrlf⟩
  · rw [same]
  · rw [isCrlf, takeWhile_stop stopsToo, takeWhile_stop stops]

/-- Pieces of the two texts: the same one with the line ends in it changed, or both refused. -/
inductive Kin {α : Type} : Piece α → Piece α → Prop where
  | accepted (text : List Char) (value : α) : Kin ⟨text, .ok value⟩ ⟨crlf text, .ok value⟩
  | refused (text text' : List Char) (found found' : List Finding) :
      Kin ⟨text, .error found⟩ ⟨text', .error found'⟩

theorem Kin.token {piece piece' : Piece TokenKind} (kin : Kin piece piece') :
    Kin piece.token piece'.token := by
  cases kin with
  | accepted text value => exact .accepted text (Lexeme.token value)
  | refused text text' found found' => exact .refused text text' found found'

def Piece.Refused {α : Type} (piece : Piece α) : Prop := ∃ found, piece.result = .error found

theorem Kin.of_refused {α : Type} {piece piece' : Piece α} (isRefused : piece.Refused)
    (isRefusedToo : piece'.Refused) : Kin piece piece' := by
  obtain ⟨text, result⟩ := piece
  obtain ⟨text', result'⟩ := piece'
  obtain ⟨found, rfl⟩ : ∃ found, result = .error found := isRefused
  obtain ⟨found', rfl⟩ : ∃ found, result' = .error found := isRefusedToo
  exact .refused text text' found found'

theorem Kin.both {α : Type} {piece piece' : Piece α} (kin : Kin piece piece') :
    (∃ value, piece.result = .ok value ∧ piece' = ⟨crlf piece.text, .ok value⟩) ∨
      piece.Refused ∧ piece'.Refused := by
  cases kin with
  | accepted text value => exact .inl ⟨value, rfl, rfl⟩
  | refused text text' found found' => exact .inr ⟨⟨found, rfl⟩, ⟨found', rfl⟩⟩

theorem Kin.of_eq {α : Type} {piece piece' : Piece α} {text : List Char} (same : piece' = piece)
    (cuts : piece.Cuts text) (cutsToo : piece'.Cuts (crlf text)) : Kin piece piece' := by
  subst same
  have isText := crlf_eq_self (feed_not_mem_front cuts.front cutsToo.front)
  obtain ⟨front, result⟩ := piece'
  cases result with
  | error found => exact .refused front front found found
  | ok value =>
    have kin : Kin ⟨front, .ok value⟩ ⟨crlf front, .ok value⟩ := .accepted front value
    rwa [isText] at kin

/-- A scanner that white space stops sees the first line only. -/
theorem scanner_crlf {α : Type} {scanner : List Char → Piece α}
    (stops : ∀ blank ∈ blanks, ∀ rest more, scanner (rest ++ blank :: more) = scanner rest)
    (rest : List Char) : scanner (crlf rest) = scanner rest := by
  rcases crlf_line rest with same | ⟨line, more, -, rfl, isCrlf⟩
  · rw [same]
  · rw [isCrlf, stops '\r' (by decide), stops '\n' (by decide)]

/-! ### Quoted literals -/

theorem take_takeWhile_crlf {p : Char → Bool} (stops : p '\n' = false) (stopsToo : p '\r' = false)
    (count : Nat) (text : List Char) :
    ((crlf text).take count).takeWhile p = (text.take count).takeWhile p := by
  rcases crlf_line text with same | ⟨line, more, -, rfl, isCrlf⟩
  · rw [same]
  · rw [isCrlf, List.take_append, List.take_append]
    cases count - line.length with
    | zero => simp
    | succ left =>
      rw [List.take_succ_cons, List.take_succ_cons, takeWhile_stop stopsToo, takeWhile_stop stops]

theorem escape_crlf (quote c : Char) (rest : List Char) :
    escape quote c (crlf rest) = escape quote c rest := by
  have hex : isDigitOf 16 '\n' = false ∧ isDigitOf 16 '\r' = false := by decide
  have octal : isDigitOf 8 '\n' = false ∧ isDigitOf 8 '\r' = false := by decide
  unfold escape hexEscape octalEscape
  simp only [take_takeWhile_crlf hex.1 hex.2, take_takeWhile_crlf octal.1 octal.2]

/-- What follows an escape sequence is the same text. -/
theorem drop_escape_crlf (quote c : Char) (rest : List Char) :
    (crlf rest).drop ((escape quote c rest).text.length - 2) =
      crlf (rest.drop ((escape quote c rest).text.length - 2)) := by
  obtain ⟨more, isText, after, rfl⟩ := escape_text quote c rest
  obtain ⟨moreToo, isTextToo, frontToo⟩ := escape_text quote c (crlf (more ++ after))
  rw [escape_crlf, isText] at isTextToo
  obtain rfl : more = moreToo := by simpa using isTextToo
  have isCrlf := crlf_eq_self (feed_not_mem_front (List.prefix_append more after) frontToo)
  rw [isText, crlf_append, isCrlf]
  simp

/-- The literal is closed and none of its elements is faulty. -/
def StringBody.Valid (body : StringBody) : Prop :=
  body.closed ∧ ∀ element ∈ body.elements, ∃ value, element.meaning = .ok value

theorem StringBody.Valid.of_cons {element : Element} {elements : List Element} {tail : List Char}
    {closed : Bool} (valid : StringBody.Valid ⟨element :: elements, tail, closed⟩) :
    StringBody.Valid ⟨elements, tail, closed⟩ :=
  ⟨valid.1, (List.forall_mem_cons.mp valid.2).2⟩

/-- No escape sequence starts with a character that ends a line. -/
theorem escape_lineEnd {quote c : Char} (isQuote : quote ∈ ['"', '\'']) (ends : c ∈ ['\r', '\n'])
    (rest : List Char) : (escape quote c rest).meaning = .error .unknownEscape := by
  simp only [List.mem_cons, List.not_mem_nil, or_false] at isQuote ends
  rcases isQuote with rfl | rfl <;> rcases ends with rfl | rfl <;> rfl

theorem stringBody_crlf (text : List Char) :
    stringBody (crlf text) = stringBody text ∨
      ¬(stringBody text).Valid ∧ ¬(stringBody (crlf text)).Valid := by
  fun_induction stringBody text with
  | case1 => exact .inl (by simp [stringBody])
  | case2 rest =>
    refine .inr ⟨fun valid => by simpa using valid.1, fun valid => ?_⟩
    simpa [crlf_feed, stringBody] using valid.1
  | case3 rest =>
    refine .inl ?_
    rw [crlf_cons (by decide), stringBody]
  | case4 =>
    refine .inl ?_
    rw [crlf_cons (by decide), crlf_nil, stringBody]
  | case5 c rest element body ih =>
    by_cases feed : c = '\n'
    · subst feed
      -- A backslash before the line end is faulty in both texts, for a different character.
      have faulty : ∀ c ∈ ['\r', '\n'], ∀ rest, ¬(stringBody ('\\' :: c :: rest)).Valid := by
        intro c ends rest valid
        rw [stringBody] at valid
        obtain ⟨value, meaning⟩ := (List.forall_mem_cons.mp valid.2).1
        rw [escape_lineEnd (by decide) ends] at meaning
        simp at meaning
      refine .inr ⟨?_, faulty '\r' (by decide) _⟩
      have invalid := faulty '\n' (by decide) rest
      rwa [stringBody] at invalid
    · rw [crlf_cons (by decide), crlf_cons feed, stringBody, escape_crlf, drop_escape_crlf]
      rcases ih with same | ⟨invalid, invalidToo⟩
      · exact .inl (by rw [same])
      · exact .inr ⟨fun valid => invalid valid.of_cons, fun valid => invalidToo valid.of_cons⟩
  | case6 c rest noFeed noQuote noEnd noEscape body ih =>
    have noBackslash := ne_backslash noEnd noEscape
    rw [crlf_cons noFeed, stringBody]
    · rcases ih with same | ⟨invalid, invalidToo⟩
      · exact .inl (by rw [same])
      · exact .inr ⟨fun valid => invalid valid.of_cons, fun valid => invalidToo valid.of_cons⟩
    all_goals grind

theorem scanString_refused {rest : List Char} (invalid : ¬(stringBody rest).Valid) :
    (scanString rest).Refused := by
  cases result : (scanString rest).result with
  | error found => exact ⟨found, result⟩
  | ok kind => exact absurd (scanString_valid result) invalid

theorem scanString_crlf (rest : List Char) : Kin (scanString rest) (scanString (crlf rest)) := by
  have cuts := scanString_cuts (crlf rest)
  rw [← crlf_cons (by decide)] at cuts
  rcases stringBody_crlf rest with same | ⟨invalid, invalidToo⟩
  · exact .of_eq (by rw [scanString, same, scanString]) (scanString_cuts rest) cuts
  · exact .of_refused (scanString_refused invalid) (scanString_refused invalidToo)

theorem mem_crlf {c : Char} (noReturn : c ≠ '\r') (text : List Char) :
    c ∈ crlf text ↔ c ∈ text := by
  induction text with
  | nil => rfl
  | cons first rest ih =>
    by_cases feed : first = '\n'
    · subst feed
      rw [crlf_feed, List.mem_cons, List.mem_cons, List.mem_cons, ih]
      simp [noReturn]
    · rw [crlf_cons feed, List.mem_cons, List.mem_cons, ih]

theorem takeWhile_quote_crlf (text : List Char) :
    (crlf text).takeWhile (· ≠ backQuote) = crlf (text.takeWhile (· ≠ backQuote)) := by
  induction text with
  | nil => rfl
  | cons c rest ih =>
    by_cases feed : c = '\n'
    · subst feed
      have passes : decide ('\n' ≠ backQuote) = true ∧ decide ('\r' ≠ backQuote) = true := by decide
      simp only [crlf_feed, List.takeWhile_cons, passes, if_true, ih]
    · rw [crlf_cons feed, List.takeWhile_cons, List.takeWhile_cons]
      split
      · rw [ih, crlf_cons feed]
      · rfl

theorem filter_return_crlf (text : List Char) :
    (crlf text).filter (· ≠ '\r') = text.filter (· ≠ '\r') := by
  induction text with
  | nil => rfl
  | cons c rest ih =>
    by_cases feed : c = '\n'
    · subst feed
      have kept : decide ('\n' ≠ '\r') = true ∧ decide ('\r' ≠ '\r') = false := by decide
      simp only [crlf_feed, List.filter_cons, kept, if_true, Bool.false_eq_true, if_false, ih]
    · simp only [crlf_cons feed, List.filter_cons, ih]

theorem quote_closes_iff (text : List Char) :
    (text.takeWhile (· ≠ backQuote)).length < text.length ↔ backQuote ∈ text := by
  constructor
  · intro closes
    obtain ⟨next, after, split, isQuote⟩ := takeWhile_stops closes
    obtain rfl : next = backQuote := by simpa using isQuote
    rw [split]
    simp
  · intro mem
    by_contra whole
    have front := List.takeWhile_prefix (· ≠ backQuote) (l := text)
    rw [← front.eq_of_length_le (Nat.not_lt.mp whole)] at mem
    simpa using List.mem_takeWhile_imp mem

theorem scanRawString_crlf (rest : List Char) :
    Kin (scanRawString rest) (scanRawString (crlf rest)) := by
  unfold scanRawString
  simp only [quote_closes_iff, mem_crlf (by decide : backQuote ≠ '\r')]
  split_ifs
  · have isText : backQuote :: crlf (rest.takeWhile (· ≠ backQuote)) ++ [backQuote] =
        crlf (backQuote :: rest.takeWhile (· ≠ backQuote) ++ [backQuote]) := by
      rw [crlf_append, crlf_cons (by decide), crlf_eq_self (by decide : '\n' ∉ [backQuote])]
    rw [takeWhile_quote_crlf, filter_return_crlf, isText]
    exact .accepted _ _
  · exact .refused _ _ _ _

theorem closeRune_refused (element : Element) {c : Char} (noQuote : c ≠ '\'') (rest : List Char) :
    (closeRune element (c :: rest)).Refused := by
  unfold closeRune
  split
  next isQuote => exact absurd (List.cons.inj isQuote).1 noQuote
  next => exact ⟨_, rfl⟩

theorem closeRune_faulty {element : Element} {fault : Fault}
    (faulty : element.meaning = .error fault) (rest : List Char) :
    (closeRune element rest).Refused := by
  cases result : (closeRune element rest).result with
  | error found => exact ⟨found, result⟩
  | ok kind =>
    obtain ⟨value, meaning⟩ := closeRune_meaning result
    simp [faulty] at meaning

theorem closeRune_crlf (element : Element) (rest : List Char) :
    closeRune element (crlf rest) = closeRune element rest ∨
      (closeRune element rest).Refused ∧ (closeRune element (crlf rest)).Refused := by
  cases rest with
  | nil => exact .inl rfl
  | cons c rest =>
    by_cases feed : c = '\n'
    · subst feed
      exact .inr ⟨closeRune_refused _ (by decide) _, closeRune_refused _ (by decide) _⟩
    rw [crlf_cons feed]
    by_cases quote : c = '\''
    · subst quote
      exact .inl rfl
    · exact .inr ⟨closeRune_refused _ quote _, closeRune_refused _ quote _⟩

theorem scanRune_same (rest : List Char) :
    scanRune (crlf rest) = scanRune rest ∨
      (scanRune rest).Refused ∧ (scanRune (crlf rest)).Refused := by
  fun_cases scanRune rest with
  | case1 => exact .inl rfl
  | case2 => exact .inl rfl
  | case3 => exact .inr ⟨⟨_, rfl⟩, closeRune_refused _ (by decide) _⟩
  | case4 => exact .inl rfl
  | case5 c rest =>
    by_cases feed : c = '\n'
    · subst feed
      refine .inr ⟨?_, ?_⟩
      · exact closeRune_faulty (escape_lineEnd (by decide) (by decide) _) _
      · exact closeRune_faulty (escape_lineEnd (by decide) (by decide) _) _
    · rw [crlf_cons (by decide), crlf_cons feed, scanRune, escape_crlf, drop_escape_crlf]
      exact closeRune_crlf _ _
  | case6 c rest noQuote noFeed noEnd noEscape =>
    have noBackslash := ne_backslash noEnd noEscape
    rw [crlf_cons noFeed, scanRune]
    · exact closeRune_crlf _ _
    all_goals grind

theorem scanRune_crlf (rest : List Char) : Kin (scanRune rest) (scanRune (crlf rest)) := by
  have cuts := scanRune_cuts (crlf rest)
  rw [← crlf_cons (by decide)] at cuts
  rcases scanRune_same rest with same | ⟨isRefused, isRefusedToo⟩
  · exact .of_eq same (scanRune_cuts rest) cuts
  · exact .of_refused isRefused isRefusedToo

/-! ### Comments -/

theorem head_crlf {c : Char} {rest : List Char} (noReturn : c ≠ '\r')
    (starts : c ∈ (crlf rest).head?) : c ∈ rest.head? := by
  cases rest with
  | nil => exact starts
  | cons first rest =>
    by_cases feed : first = '\n'
    · rw [feed, crlf_feed, List.head?_cons, Option.mem_some_iff] at starts
      exact absurd starts.symm noReturn
    · rwa [crlf_cons feed] at starts

theorem commentBody?_crlf (rest : List Char) :
    commentBody? (crlf rest) = (commentBody? rest).map crlf := by
  fun_induction commentBody? rest with
  | case1 => rfl
  | case2 => rfl
  | case3 c rest notEnd ih =>
    rw [Option.map_map]
    by_cases feed : c = '\n'
    · subst feed
      rw [crlf_feed, commentBody?, commentBody?, ih, Option.map_map, Option.map_map]
      · rfl
      · simp
      · simp
    · rw [crlf_cons feed, commentBody?, ih, Option.map_map]
      · refine congrArg (fun f => Option.map f (commentBody? rest)) (funext fun body => ?_)
        exact (crlf_cons feed body).symm
      · intro after star slash
        have starts : '/' ∈ (crlf rest).head? := by rw [slash, List.head?_cons, Option.mem_some_iff]
        obtain ⟨later, isRest⟩ := List.head?_eq_some_iff.mp (head_crlf (by decide) starts)
        exact notEnd later star isRest

theorem scanComment_crlf (rest : List Char) : Kin (scanComment rest) (scanComment (crlf rest)) := by
  unfold scanComment
  rw [commentBody?_crlf]
  cases commentBody? rest with
  | none => exact .refused _ _ _ _
  | some body =>
    have breaks : (crlf body).contains '\n' = body.contains '\n' := by
      simp [mem_crlf]
    have isText : '/' :: '*' :: crlf body = crlf ('/' :: '*' :: body) := by
      rw [crlf_cons (by decide), crlf_cons (by decide)]
    simp only [Option.map_some, breaks, isText]
    exact .accepted _ _

/-! ### The step -/

theorem scanSlash_sign {rest : List Char} (noLine : '/' ∉ rest.head?) (noBlock : '*' ∉ rest.head?) :
    scanSlash rest = scanSign '/' rest := by
  unfold scanSlash
  split
  next => simp at noLine
  next => simp at noBlock
  next => rfl

theorem scanSlash_crlf {rest : List Char} (noLine : '/' ∉ rest.head?) :
    Kin (scanSlash rest) (scanSlash (crlf rest)) := by
  by_cases block : '*' ∈ rest.head?
  · obtain ⟨body, rfl⟩ := List.head?_eq_some_iff.mp block
    rw [crlf_cons (by decide)]
    exact scanComment_crlf body
  · have noLineToo : '/' ∉ (crlf rest).head? := mt (head_crlf (by decide)) noLine
    have noBlockToo : '*' ∉ (crlf rest).head? := mt (head_crlf (by decide)) block
    have cuts := scanSign_cuts '/' (crlf rest)
    rw [← crlf_cons (by decide)] at cuts
    rw [scanSlash_sign noLine block, scanSlash_sign noLineToo noBlockToo]
    refine .of_eq ?_ (scanSign_cuts '/' rest) cuts
    exact scanner_crlf (fun blank isBlank => scanSign_blank isBlank '/') rest

/-- The pieces at the front of the two texts, where neither a line nor a comment within one ends. -/
theorem scan_crlf {c : Char} (noFeed : c ≠ '\n') {rest : List Char}
    (noComment : ¬['/', '/'] <+: c :: rest) : Kin (scan c rest) (scan c (crlf rest)) := by
  have cuts := scan_cuts c rest
  have cutsToo := scan_cuts c (crlf rest)
  rw [← crlf_cons noFeed] at cutsToo
  have chosen := scan_chooses c
  generalize scan c = scanner at chosen cuts cutsToo ⊢
  cases chosen with
  | space => exact .of_eq rfl cuts cutsToo
  | feed isFeed => exact absurd isFeed noFeed
  | slash isSlash =>
    subst isSlash
    refine scanSlash_crlf fun starts => noComment ?_
    obtain ⟨later, rfl⟩ := List.head?_eq_some_iff.mp starts
    simp
  | dot =>
    have same := scanner_crlf (fun blank isBlank => scanDot_blank isBlank) rest
    exact .of_eq same cuts cutsToo
  | string => exact (scanString_crlf rest).token
  | rawString => exact (scanRawString_crlf rest).token
  | rune => exact (scanRune_crlf rest).token
  | number =>
    have same := scanner_crlf (fun blank isBlank => scanNumber_blank isBlank c) rest
    exact .of_eq (congrArg Piece.token same) cuts cutsToo
  | word =>
    have same := takeWhile_crlf (by decide : isWordChar '\n' = false) (by decide) rest
    exact .of_eq (by simp only [same]) cuts cutsToo
  | sign =>
    have same := scanner_crlf (fun blank isBlank => scanSign_blank isBlank c) rest
    exact .of_eq same cuts cutsToo

/-! ### The loop -/

theorem pieces_return (more : List Char) :
    pieces ('\r' :: more) = ⟨['\r'], .ok .blank⟩ :: pieces more := by
  have isBlank : scan '\r' more = ⟨['\r'], .ok .blank⟩ := rfl
  rw [pieces_cons (by rw [isBlank, List.singleton_append]), isBlank]

/-- What becomes of the first piece of a text. -/
inductive Rewritten (piece : Piece Lexeme) (after : List Char) : List (Piece Lexeme) → Prop where
  | kept {lexeme : Lexeme} (isOk : piece.result = .ok lexeme) :
      Rewritten piece after (⟨crlf piece.text, .ok lexeme⟩ :: pieces (crlf after))
  | feed (isFeed : piece = ⟨['\n'], .ok .lineBreak⟩) :
      Rewritten piece after (⟨['\r'], .ok .blank⟩ :: piece :: pieces (crlf after))
  | comment {later : List (Piece Lexeme)} (isBlank : piece.result = .ok .blank)
      (isReturn : pieces (crlf after) = ⟨['\r'], .ok .blank⟩ :: later) :
      Rewritten piece after (⟨crlf piece.text ++ ['\r'], .ok .blank⟩ :: later)
  | refused {piece' : Piece Lexeme} (isRefused : piece.Refused) (isRefusedToo : piece'.Refused)
      (later : List (Piece Lexeme)) : Rewritten piece after (piece' :: later)

theorem Kin.rewritten {c : Char} {rest after : List Char}
    (kin : Kin (scan c rest) (scan c (crlf rest))) (noFeed : c ≠ '\n')
    (split : c :: rest = (scan c rest).text ++ after) :
    Rewritten (scan c rest) after (pieces (crlf (c :: rest))) := by
  obtain ⟨lexeme, isOk, isPiece⟩ | ⟨isRefused, isRefusedToo⟩ := kin.both
  · have splitToo : c :: crlf rest = (scan c (crlf rest)).text ++ crlf after := by
      rw [← crlf_cons noFeed, split, crlf_append, isPiece]
    rw [crlf_cons noFeed, pieces_cons splitToo, isPiece]
    exact .kept isOk
  · rw [crlf_cons noFeed, pieces]
    exact .refused isRefused isRefusedToo _

theorem takeWhile_line {line : List Char} (noFeed : '\n' ∉ line) (more : List Char) :
    (line ++ '\n' :: more).takeWhile (· ≠ '\n') = line := by
  have passes : ∀ c ∈ line, decide (c ≠ '\n') = true := by
    intro c mem
    have : c ≠ '\n' := fun feed => noFeed (feed ▸ mem)
    simpa using this
  rw [List.takeWhile_append_of_pos passes]
  simp

/-- A comment up to the end of a line. -/
theorem pieces_lineComment {line : List Char} (comment : ['/', '/'] <+: line) (noFeed : '\n' ∉ line)
    (more : List Char) :
    pieces (line ++ '\n' :: more) = ⟨line, .ok .blank⟩ :: pieces ('\n' :: more) := by
  obtain ⟨text, rfl⟩ := comment
  have isComment : scan '/' ('/' :: (text ++ '\n' :: more)) = ⟨['/', '/'] ++ text, .ok .blank⟩ := by
    change (⟨(['/', '/'] ++ text ++ '\n' :: more).takeWhile (· ≠ '\n'), _⟩ : Piece Lexeme) = _
    rw [takeWhile_line noFeed]
  have split : '/' :: '/' :: (text ++ '\n' :: more) =
      (scan '/' ('/' :: (text ++ '\n' :: more))).text ++ '\n' :: more := by
    rw [isComment]
    simp
  have cut := pieces_cons split
  rwa [isComment] at cut

theorem pieces_crlf {c : Char} {rest after : List Char}
    (split : c :: rest = (scan c rest).text ++ after) :
    Rewritten (scan c rest) after (pieces (crlf (c :: rest))) := by
  by_cases feed : c = '\n'
  · subst feed
    obtain rfl : rest = after := by simpa [scan] using split
    rw [crlf_feed, pieces_return, pieces_lineFeed]
    exact .feed rfl
  by_cases comment : ['/', '/'] <+: c :: rest
  swap
  · exact (scan_crlf feed comment).rewritten feed split
  -- The comment ends with the text, or it takes the carriage return at the end of its line.
  rcases crlf_line (c :: rest) with same | ⟨line, more, noFeed, isText, isCrlf⟩
  · rw [crlf_cons feed, List.cons.injEq] at same
    have cuts := scan_cuts c (crlf rest)
    rw [← crlf_cons feed] at cuts
    exact (Kin.of_eq (by rw [same.2]) (scan_cuts c rest) cuts).rewritten feed split
  · have commentLine : ['/', '/'] <+: line :=
      (prefix_stop_iff (by decide) line more).mp (isText ▸ comment)
    have isCut := pieces_lineComment commentLine noFeed more
    rw [← isText, pieces_cons split, List.cons.injEq] at isCut
    obtain rfl : after = '\n' :: more := by
      rw [isText, isCut.1] at split
      exact (List.append_cancel_left split).symm
    have noFeedToo : '\n' ∉ line ++ ['\r'] := by simpa using noFeed
    have commentToo := commentLine.trans (List.prefix_append line ['\r'])
    have isCutToo := pieces_lineComment commentToo noFeedToo (crlf more)
    rw [List.append_assoc, List.singleton_append, ← isCrlf] at isCutToo
    rw [isCutToo, isCut.1]
    have later : pieces (crlf ('\n' :: more)) =
        ⟨['\r'], .ok .blank⟩ :: pieces ('\n' :: crlf more) := by
      rw [crlf_feed, pieces_return]
    have rewritten : Rewritten ⟨line, .ok .blank⟩ ('\n' :: more) _ := .comment rfl later
    rwa [crlf_eq_self noFeed] at rewritten

theorem Piece.Refused.not_accepted {piece : Piece Lexeme} (isRefused : piece.Refused) :
    ¬piece.Accepted := by
  rintro ⟨lexeme, isOk⟩
  obtain ⟨found, isError⟩ := isRefused
  simp [isOk] at isError

theorem accepted_crlf (text : List Char) :
    (∀ piece ∈ pieces (crlf text), piece.Accepted) ↔ ∀ piece ∈ pieces text, piece.Accepted := by
  induction text using pieces_induction with
  | nil => rfl
  | cons c rest after split ih =>
    have rewritten := pieces_crlf split
    rw [pieces_cons split, List.forall_mem_cons, ← ih]
    generalize pieces (crlf (c :: rest)) = cut at rewritten ⊢
    cases rewritten with
    | kept isOk =>
      rw [List.forall_mem_cons]
      exact and_congr_left' (iff_of_true ⟨_, rfl⟩ ⟨_, isOk⟩)
    | feed isFeed =>
      rw [List.forall_mem_cons, List.forall_mem_cons]
      exact and_iff_right ⟨_, rfl⟩
    | comment isBlank isReturn =>
      have isAccepted : (scan c rest).Accepted := ⟨_, isBlank⟩
      rw [isReturn, List.forall_mem_cons, List.forall_mem_cons, and_iff_right isAccepted]
      exact and_congr_left' (iff_of_true ⟨_, rfl⟩ ⟨_, rfl⟩)
    | refused isRefused isRefusedToo later =>
      rw [List.forall_mem_cons]
      exact iff_of_false (fun all => isRefusedToo.not_accepted all.1)
        fun all => isRefused.not_accepted all.1

/-- Two places behind the same front of the text and of that with the other line ends. -/
def Aligned (source : List Char) (a b : Span) : Prop :=
  ∃ front, front <+: source ∧ a.start = Text.byteLength front ∧
    b.start = Text.byteLength (crlf front)

/-- A token of a text and that of the text with the other line ends. Semicolons are not aligned:
one that is inserted stands at the line feed, behind the carriage return. -/
structure Twins (source : List Char) (t t' : Token) : Prop where
  kind : t.kind = t'.kind
  implicit : t.implicit = t'.implicit
  aligned : t.kind ≠ .punctuation .semicolon → Aligned source t.span t'.span

theorem lineEnd_twins (source : List Char) (canEnd : Bool) (offset offset' : Nat) :
    List.Forall₂ (Twins source) (lineEnd canEnd offset) (lineEnd canEnd offset') := by
  cases canEnd with
  | false => exact .nil
  | true => exact .cons ⟨rfl, by simp [Token.lineEnd, Token.implicit], fun ne => absurd rfl ne⟩ .nil

theorem not_implicit_of_covers {kind : TokenKind} {offset : Nat} {text : List Char}
    (nonempty : text ≠ []) :
    (⟨kind, ⟨offset, offset + Text.byteLength text⟩⟩ : Token).implicit = false := by
  have := byteLength_pos nonempty
  simp only [Token.implicit, Bool.and_eq_false_iff, decide_eq_false_iff_not]
  exact .inr (by omega)

theorem crlf_ne_nil {text : List Char} (nonempty : text ≠ []) : crlf text ≠ [] := by
  obtain ⟨c, rest, rfl⟩ := List.exists_cons_of_ne_nil nonempty
  by_cases feed : c = '\n'
  · simp [feed, crlf_feed]
  · simp [crlf_cons feed]

theorem tokens_crlf {before text : List Char} (canEnd : Bool)
    (accepted : ∀ piece ∈ pieces text, piece.Accepted) :
    List.Forall₂ (Twins (before ++ text))
      (tokens (Text.byteLength before) canEnd (pieces text))
      (tokens (Text.byteLength (crlf before)) canEnd (pieces (crlf text))) := by
  induction text using pieces_induction generalizing before canEnd with
  | nil =>
    rw [crlf_nil, pieces, tokens, tokens]
    refine List.rel_append (lineEnd_twins _ _ _ _) (.cons ⟨rfl, rfl, fun _ => ?_⟩ .nil)
    exact ⟨before, List.prefix_append _ _, rfl, rfl⟩
  | cons c rest after split ih =>
    rw [pieces_cons split, List.forall_mem_cons] at accepted
    have rewritten := pieces_crlf split
    have nonempty := (scan_cuts c rest).nonempty
    have further := fun canEnd => @ih (before ++ (scan c rest).text) canEnd accepted.2
    simp only [List.append_assoc, ← split, Text.byteLength_append, crlf_append] at further
    rw [pieces_cons split]
    generalize pieces (crlf (c :: rest)) = cut at rewritten ⊢
    generalize scan c rest = piece at *
    cases rewritten with
    | @kept lexeme isOk =>
      cases lexeme with
      | blank => simpa only [tokens, isOk] using further canEnd
      | lineBreak =>
        simp only [tokens, isOk]
        exact List.rel_append (lineEnd_twins _ _ _ _) (further false)
      | token kind =>
        simp only [tokens, isOk]
        refine .cons ⟨rfl, ?_, fun _ => ?_⟩ (further kind.endsLine)
        · rw [not_implicit_of_covers nonempty, not_implicit_of_covers (crlf_ne_nil nonempty)]
        · exact ⟨before, List.prefix_append _ _, rfl, rfl⟩
    | feed isFeed =>
      subst isFeed
      simp only [tokens]
      refine List.rel_append (lineEnd_twins _ _ _ _) ?_
      exact further false
    | comment isBlank isReturn =>
      have next := further canEnd
      simp only [tokens, isReturn] at next
      simpa only [tokens, isBlank, Text.byteLength_append, Nat.add_assoc] using next
    | refused isRefused => exact absurd accepted.1 isRefused.not_accepted

/-- Both texts have the same tokens, or both are refused. -/
theorem lexChars_crlf (text : List Char) :
    (∃ found found', lexChars text = .ok found ∧ lexChars (crlf text) = .ok found' ∧
      List.Forall₂ (Twins text) found found') ∨
      ∃ faults faults', lexChars text = .error faults ∧ lexChars (crlf text) = .error faults' := by
  by_cases accepted : ∀ piece ∈ pieces text, piece.Accepted
  · have acceptedToo := (accepted_crlf text).mpr accepted
    exact .inl ⟨_, _, lexChars_eq_ok_iff.mpr ⟨accepted, rfl⟩,
      lexChars_eq_ok_iff.mpr ⟨acceptedToo, rfl⟩, @tokens_crlf [] text false accepted⟩
  · have refused : ∀ {text}, (¬∀ piece ∈ pieces text, piece.Accepted) →
        ∃ faults, lexChars text = .error faults := by
      intro text faulty
      cases lexed : lexChars text with
      | error faults => exact ⟨faults, rfl⟩
      | ok found => exact absurd (lexChars_eq_ok_iff.mp lexed).1 faulty
    obtain ⟨faults, isError⟩ := refused accepted
    obtain ⟨faults', isErrorToo⟩ := refused (mt (accepted_crlf text).mp accepted)
    exact .inr ⟨faults, faults', isError, isErrorToo⟩

end GoFront.Lexer
