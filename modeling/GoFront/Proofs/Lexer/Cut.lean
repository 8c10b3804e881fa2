import GoFront.Proofs.Lexer.Signs
import Mathlib.Data.String.Basic

/-!
Every scanner takes a nonempty front of the text, says why when it refuses that front, and leaves
no word cut in two when it accepts it. So the pieces of a text make up the text.
-/
namespace GoFront

theorem Text.byteLength_toList (source : String) :
    byteLength source.toList = source.utf8ByteSize := by
  have counted : ∀ text : List Char, byteLength text = String.utf8Len text := by
    intro text
    induction text with
    | nil => rfl
    | cons c rest ih => rw [byteLength_cons, String.utf8Len_cons, ih, Nat.add_comm]
  rw [counted, ← String.utf8ByteSize_ofList, String.ofList_toList]

namespace Lexer

/-- No word runs across the border of the two texts. -/
def Parted (before after : List Char) : Prop :=
  ∀ last ∈ before.getLast?, ∀ next ∈ after.head?, isWordChar last → ¬isWordChar next

theorem parted_nil (after : List Char) : Parted [] after := by
  intro last isLast
  simp at isLast

theorem parted_of_last (before : List Char) {after : List Char} {last : Char}
    (sign : isWordChar last = false) : Parted (before ++ [last]) after := by
  intro found isLast next _ word
  rw [List.getLast?_concat, Option.mem_some_iff] at isLast
  rw [isLast] at sign
  exact absurd word (by simp [sign])

theorem parted_of_head {before after : List Char}
    (apart : ∀ next ∈ after.head?, isWordChar next = false) : Parted before after := by
  intro _ _ next isNext _
  simp [apart next isNext]

theorem Parted.append {text after : List Char} (before : List Char) (nonempty : text ≠ [])
    (parted : Parted text after) : Parted (before ++ text) after := by
  intro last isLast
  rw [List.getLast?_append_of_ne_nil _ nonempty] at isLast
  exact parted last isLast

theorem takeWhile_next {p : Char → Bool} {text after : List Char}
    (split : text = text.takeWhile p ++ after) : ∀ next ∈ after.head?, p next = false := by
  have isAfter : text.dropWhile p = after := by
    have whole : text.takeWhile p ++ text.dropWhile p = text.takeWhile p ++ after := by
      rw [List.takeWhile_append_dropWhile, ← split]
    exact List.append_cancel_left whole
  intro next isNext
  have stopped := List.head?_dropWhile_not p text
  rw [isAfter, Option.mem_def.mp isNext] at stopped
  exact stopped

theorem takeWhile_stops {p : Char → Bool} {text : List Char}
    (stops : (text.takeWhile p).length < text.length) :
    ∃ next after, text = text.takeWhile p ++ next :: after ∧ p next = false := by
  have split := (List.takeWhile_append_dropWhile (p := p) (l := text)).symm
  cases rest : text.dropWhile p with
  | nil =>
    rw [rest, List.append_nil] at split
    exact absurd stops (by rw [← split]; exact Nat.lt_irrefl _)
  | cons next after =>
    rw [rest] at split
    exact ⟨next, after, split, takeWhile_next split next rfl⟩

/-- What holds of every piece that a scanner cuts off the text: it takes something, it is refused
for a reason, and if it is accepted no word runs on behind it. -/
structure Piece.Cuts {α : Type} (piece : Piece α) (text : List Char) : Prop where
  nonempty : piece.text ≠ []
  front : piece.text <+: text
  blamed : piece.result ≠ .error []
  parted : ∀ value after, piece.result = .ok value → text = piece.text ++ after →
    Parted piece.text after

theorem Piece.Cuts.token {piece : Piece TokenKind} {text : List Char} (cuts : piece.Cuts text) :
    piece.token.Cuts text := by
  obtain ⟨nonempty, front, blamed, parted⟩ := cuts
  refine ⟨nonempty, front, ?_, ?_⟩
  · intro refused
    cases result : piece.result with
    | error found =>
      simp only [Piece.token, result, Except.map, Except.error.injEq] at refused
      exact blamed (result.trans (congrArg _ refused))
    | ok kind => simp [Piece.token, result, Except.map] at refused
  · intro value after accepted split
    cases result : piece.result with
    | error found => simp [Piece.token, result, Except.map] at accepted
    | ok kind => exact parted kind after result split

theorem refused_cuts {α : Type} {front text : List Char} {fault : Fault} (nonempty : front ≠ [])
    (isFront : front <+: text) : (refused front fault : Piece α).Cuts text := by
  refine ⟨nonempty, isFront, ?_, ?_⟩
  · simp [refused]
  · intro value after accepted
    simp [refused] at accepted

/-! ### Numbers -/

theorem rejectSuffix_cuts {text : List Char} {accept : Piece TokenKind} (rest : List Char)
    (nonempty : text ≠ []) (sameText : accept.text = text)
    (blamed : accept.result ≠ .error []) : (rejectSuffix text rest accept).Cuts (text ++ rest) := by
  unfold rejectSuffix
  split
  next noWord =>
    refine ⟨sameText ▸ nonempty, sameText ▸ List.prefix_append text rest, blamed, ?_⟩
    intro value after _ split
    have same : rest = after := List.append_cancel_left (sameText ▸ split)
    subst same
    exact parted_of_head (takeWhile_next (by rw [noWord, List.nil_append]))
  next =>
    refine refused_cuts (by simp [nonempty]) ?_
    exact (List.prefix_append_right_inj text).mpr (List.takeWhile_prefix _)

theorem integer_text (text digits : List Char) (base : Nat) :
    (integer text base digits).text = text := by
  unfold integer refused
  grind

theorem integer_blamed (text digits : List Char) (base : Nat) :
    (integer text base digits).result ≠ .error [] := by
  unfold integer refused
  grind

theorem decimalInteger_text (text : List Char) : (decimalInteger text).text = text := by
  unfold decimalInteger refused
  grind [integer_text]

theorem decimalInteger_blamed (text : List Char) : (decimalInteger text).result ≠ .error [] := by
  unfold decimalInteger refused
  grind [integer_blamed]

theorem scanMarked_cuts (mark : Char) (base : Nat) (rest : List Char) :
    (scanMarked mark base rest).Cuts ('0' :: mark :: rest) := by
  have whole : '0' :: mark :: rest = ('0' :: mark :: rest.takeWhile (isNumeral base)) ++
      rest.drop (rest.takeWhile (isNumeral base)).length := by
    simp [List.prefix_iff_eq_append.mp (List.takeWhile_prefix _)]
  unfold scanMarked
  rw [whole]
  apply rejectSuffix_cuts
  · simp
  · grind [refused, integer_text]
  · grind [refused, integer_blamed]

theorem scanExponent_front (rest : List Char) :
    (scanExponent rest).1 ++ (scanExponent rest).2 <+: rest := by
  unfold scanExponent
  grind

/-- The point and the digits after it at the front of the text. -/
def fractionOf (rest : List Char) : List Char :=
  match rest with
  | '.' :: more => '.' :: more.takeWhile (isNumeral 10)
  | _ => []

theorem fractionOf_front (rest : List Char) : fractionOf rest <+: rest := by
  unfold fractionOf
  split
  · simp [List.takeWhile_prefix]
  · exact List.nil_prefix

theorem floatToken_text (text written : List Char) (token : Binary64 → TokenKind) :
    (floatToken text written token).text = text := by
  unfold floatToken refused
  grind

theorem floatToken_blamed (text written : List Char) (token : Binary64 → TokenKind) :
    (floatToken text written token).result ≠ .error [] := by
  unfold floatToken refused
  grind

/-- The number that `d` spells out, where `rest` is the text after it: the imaginary suffix belongs
to it, and no other word character may follow. -/
def finishDecimal (d : DecimalText) (rest : List Char) : Piece TokenKind :=
  match rest with
  | 'i' :: rest =>
    rejectSuffix (d.text ++ ['i']) rest (floatToken (d.text ++ ['i']) d.text .imaginary)
  | rest =>
    rejectSuffix d.text rest <|
      if d.isFloat then floatToken d.text d.text .float else decimalInteger d.text

theorem scanDecimal_eq (whole rest : List Char) :
    scanDecimal whole rest =
      let more := rest.drop (fractionOf rest).length
      let exponent := scanExponent more
      let number : DecimalText := ⟨whole, fractionOf rest, exponent.1 ++ exponent.2⟩
      if exponent.1 ≠ [] ∧ exponent.2 = [] then refused number.text .exponentWithoutDigits
      else finishDecimal number (more.drop (exponent.1 ++ exponent.2).length) :=
  rfl

theorem finishDecimal_cuts {d : DecimalText} (nonempty : d.text ≠ []) (rest : List Char) :
    (finishDecimal d rest).Cuts (d.text ++ rest) := by
  unfold finishDecimal
  split
  next rest =>
    rw [List.append_cons d.text 'i' rest]
    exact rejectSuffix_cuts rest (by simp) (floatToken_text _ _ _) (floatToken_blamed _ _ _)
  next =>
    apply rejectSuffix_cuts rest nonempty
    · grind [decimalInteger_text, floatToken_text]
    · grind [decimalInteger_blamed, floatToken_blamed]

theorem scanDecimal_cuts (whole rest : List Char) (nonempty : whole ++ fractionOf rest ≠ []) :
    (scanDecimal whole rest).Cuts (whole ++ rest) := by
  rw [scanDecimal_eq]
  extract_lets more exponent number
  have hasText : number.text ≠ [] := by
    intro empty
    exact nonempty (List.append_eq_nil_iff.mp empty).1
  have split : whole ++ rest = number.text ++ more.drop (exponent.1 ++ exponent.2).length := by
    simp only [number, DecimalText.text, List.append_assoc]
    rw [← List.append_assoc exponent.1, List.prefix_iff_eq_append.mp (scanExponent_front more),
      List.prefix_iff_eq_append.mp (fractionOf_front rest)]
  rw [split]
  split
  · exact refused_cuts hasText (List.prefix_append _ _)
  · exact finishDecimal_cuts hasText _

/-- A number without a base mark. -/
def scanUnmarked (first : Char) (rest : List Char) : Piece TokenKind :=
  scanDecimal (first :: rest.takeWhile (isNumeral 10))
    (rest.drop (rest.takeWhile (isNumeral 10)).length)

theorem scanNumber_eq (first : Char) (rest : List Char) :
    scanNumber first rest =
      match rest with
      | mark :: more =>
        match if first = '0' then markedBase? mark else none with
        | some base => scanMarked mark base more
        | none => scanUnmarked first rest
      | [] => scanUnmarked first rest :=
  rfl

theorem scanUnmarked_cuts (first : Char) (rest : List Char) :
    (scanUnmarked first rest).Cuts (first :: rest) := by
  have cuts := scanDecimal_cuts (first :: rest.takeWhile (isNumeral 10))
    (rest.drop (rest.takeWhile (isNumeral 10)).length) (by simp)
  rwa [List.cons_append, List.prefix_iff_eq_append.mp (List.takeWhile_prefix _)] at cuts

theorem scanNumber_cuts (first : Char) (rest : List Char) :
    (scanNumber first rest).Cuts (first :: rest) := by
  rw [scanNumber_eq]
  split
  next mark more =>
    split
    next base marked =>
      have zero : first = '0' := by
        by_contra other
        simp [other] at marked
      exact zero ▸ scanMarked_cuts mark base more
    next => exact scanUnmarked_cuts first _
  next => exact scanUnmarked_cuts first _

/-! ### Quoted literals -/

theorem escape_text (quote c : Char) (rest : List Char) :
    ∃ more, (escape quote c rest).text = '\\' :: c :: more ∧ more <+: rest := by
  unfold escape
  split
  next => exact ⟨[], rfl, List.nil_prefix⟩
  next =>
    split
    next count _ =>
      exact ⟨_, rfl, (List.takeWhile_prefix _).trans (List.take_prefix count rest)⟩
    next =>
      split
      · exact ⟨_, rfl, (List.takeWhile_prefix _).trans (List.take_prefix 2 rest)⟩
      · exact ⟨[], rfl, List.nil_prefix⟩

theorem escape_length (quote c : Char) (rest : List Char) :
    (escape quote c rest).text.length - 2 ≤ rest.length := by
  obtain ⟨more, isText, front⟩ := escape_text quote c rest
  rw [isText]
  simpa using front.length_le

/-- The text of an escape sequence and what is read after it make up the text. -/
theorem escape_drop (quote c : Char) (rest : List Char) :
    (escape quote c rest).text ++ rest.drop ((escape quote c rest).text.length - 2) =
      '\\' :: c :: rest := by
  obtain ⟨more, isText, front⟩ := escape_text quote c rest
  rw [isText]
  simp [List.prefix_iff_eq_append.mp front]

theorem stringBody_front (text : List Char) :
    (stringBody text).elements.flatMap (·.text) ++ (stringBody text).tail <+: text := by
  fun_induction stringBody text with
  | case5 c rest element body ih =>
    rw [← escape_drop '"' c rest, List.flatMap_cons, List.append_assoc]
    exact (List.prefix_append_right_inj _).mpr ih
  | case6 c rest body _ _ _ _ ih => simpa using ih
  | _ => simp

theorem stringBody_closed {text : List Char} (closed : (stringBody text).closed) :
    (stringBody text).tail = ['"'] := by
  fun_induction stringBody text with
  | case5 c rest element body ih => exact ih closed
  | case6 c rest body _ _ _ _ ih => exact ih closed
  | _ => simp_all

theorem scanString_cuts (rest : List Char) : (scanString rest).Cuts ('"' :: rest) := by
  have front := stringBody_front rest
  unfold scanString
  extract_lets body text unterminated
  have isFront : text <+: '"' :: rest := by simpa [text] using front
  split
  next clean =>
    refine ⟨by simp [text], isFront, by simp, fun _ after _ _ => ?_⟩
    have closed : body.closed := by
      by_contra notClosed
      simp [unterminated, notClosed] at clean
    have isText : text = ('"' :: body.elements.flatMap (·.text)) ++ ['"'] := by
      simp only [text, body, stringBody_closed closed]
    exact isText ▸ parted_of_last _ (by decide)
  next faulty => exact ⟨by simp [text], isFront, by simpa using faulty, by simp⟩

theorem scanRawString_cuts (rest : List Char) :
    (scanRawString rest).Cuts (backQuote :: rest) := by
  unfold scanRawString
  extract_lets body text
  split
  next closed =>
    have isFront : body ++ [backQuote] <+: rest := by
      obtain ⟨quote, after, split, isQuote⟩ := takeWhile_stops closed
      refine ⟨after, ?_⟩
      have isBackQuote : quote = backQuote := by simpa using isQuote
      rw [List.append_assoc, List.singleton_append, ← isBackQuote]
      exact split.symm
    refine ⟨by simp, by simpa using isFront, by simp, fun _ after _ _ => ?_⟩
    exact parted_of_last _ (by decide)
  next =>
    have isFront : body <+: rest := List.takeWhile_prefix _
    exact ⟨by simp [text], by simpa [text] using isFront, by simp, by simp⟩

theorem toRuneEnd_front (text : List Char) : toRuneEnd text <+: text := by
  fun_induction toRuneEnd text <;> simp_all

theorem closeRune_cuts (element : Element) (rest : List Char) :
    (closeRune element rest).Cuts ('\'' :: element.text ++ rest) := by
  obtain ⟨text, meaning⟩ := element
  unfold closeRune
  split
  next more =>
    have isFront : '\'' :: text ++ ['\''] <+: '\'' :: text ++ '\'' :: more := by simp
    cases meaning with
    | ok c => exact ⟨by simp, isFront, by simp, fun _ _ _ _ => parted_of_last _ (by decide)⟩
    | error fault => exact ⟨by simp, isFront, by simp [elementFindings], by simp⟩
  next => exact ⟨by simp, by simpa using toRuneEnd_front rest, by simp, by simp⟩

theorem scanRune_cuts (rest : List Char) : (scanRune rest).Cuts ('\'' :: rest) := by
  unfold scanRune
  split
  case h_5 c rest =>
    have cuts := closeRune_cuts (escape '\'' c rest)
      (rest.drop ((escape '\'' c rest).text.length - 2))
    rwa [List.cons_append, escape_drop] at cuts
  case h_6 c rest _ _ _ _ => exact closeRune_cuts ⟨[c], .ok c⟩ rest
  all_goals exact ⟨by simp, by simp, by simp, by simp⟩

/-! ### Signs -/

theorem scanSign_cuts (c : Char) (rest : List Char) : (scanSign c rest).Cuts (c :: rest) := by
  rw [scanSign_eq]
  split
  next text kind found =>
    obtain ⟨known, front, -⟩ := LongestSign.of_found found
    have nonempty := ne_nil_of_mem_signs known
    have plain := (shape_of_mem_signs known).2
    refine ⟨nonempty, front, by simp, fun _ after _ _ => ?_⟩
    dsimp only
    rw [← List.dropLast_concat_getLast nonempty]
    exact parted_of_last _ (plain _ (List.getLast_mem nonempty)).1
  next => exact refused_cuts (by simp) (by simp)

/-! ### The step and the loop -/

/-- The body of a comment ends at the first closing mark. -/
theorem commentBody?_front {rest body : List Char} (found : commentBody? rest = some body) :
    ∃ inside, body = inside ++ ['*', '/'] ∧ ¬['*', '/'] <:+: inside ++ ['*'] ∧ body <+: rest := by
  fun_induction commentBody? rest generalizing body with
  | case1 => simp at found
  | case2 =>
    obtain rfl := Option.some.inj found
    exact ⟨[], rfl, by decide, by simp⟩
  | case3 c rest notEnd ih =>
    obtain ⟨later, isLater, rfl⟩ := Option.map_eq_some_iff.mp found
    obtain ⟨inside, rfl, first, front⟩ := ih isLater
    refine ⟨c :: inside, rfl, ?_, by simpa using front⟩
    rw [List.cons_append, List.infix_cons_iff, not_or]
    refine ⟨fun closes => ?_, first⟩
    obtain ⟨rfl, slash⟩ := List.cons_prefix_cons.mp closes
    cases inside with
    | nil => simp at slash
    | cons next inside =>
      obtain ⟨rfl, -⟩ := List.cons_prefix_cons.mp slash
      obtain ⟨after, rfl⟩ := front
      exact notEnd _ rfl rfl

theorem scanComment_cuts (rest : List Char) :
    (scanComment rest).Cuts ('/' :: '*' :: rest) := by
  unfold scanComment
  split
  next body found =>
    obtain ⟨inside, rfl, -, front⟩ := commentBody?_front found
    refine ⟨by simp, by simpa using front, by simp, fun _ after _ _ => ?_⟩
    have closed : '/' :: '*' :: (inside ++ ['*', '/']) =
        ('/' :: '*' :: inside ++ ['*']) ++ ['/'] := by simp
    exact closed ▸ parted_of_last _ (by decide)
  next => exact refused_cuts (by simp) (by simp)

theorem scanDot_cuts (rest : List Char) : (scanDot rest).Cuts ('.' :: rest) := by
  unfold scanDot
  split
  next digit more =>
    split
    · exact (scanDecimal_cuts [] ('.' :: digit :: more) (by simp [fractionOf])).token
    · exact scanSign_cuts '.' _
  next => exact scanSign_cuts '.' []

theorem scanSlash_cuts (rest : List Char) : (scanSlash rest).Cuts ('/' :: rest) := by
  unfold scanSlash
  split
  next more =>
    refine ⟨by simp, List.takeWhile_prefix _, by simp, fun _ after _ split => ?_⟩
    refine parted_of_head fun next isNext => ?_
    dsimp only at split
    have feed : next = '\n' := by simpa using takeWhile_next split next isNext
    exact feed ▸ (by decide : isWordChar '\n' = false)
  next body => exact scanComment_cuts body
  next => exact scanSign_cuts '/' rest

/-- The scanner that the first character of a text chooses. -/
inductive Chooses (c : Char) : (List Char → Piece Lexeme) → Prop where
  | space (isSpace : c ∈ [' ', '\t', '\r']) : Chooses c fun _ => ⟨[c], .ok .blank⟩
  | feed (isFeed : c = '\n') : Chooses c fun _ => ⟨[c], .ok .lineBreak⟩
  | slash (isSlash : c = '/') : Chooses c scanSlash
  | dot (isDot : c = '.') : Chooses c scanDot
  | string (isQuote : c = '"') : Chooses c fun rest => (scanString rest).token
  | rawString (isQuote : c = backQuote) : Chooses c fun rest => (scanRawString rest).token
  | rune (isQuote : c = '\'') : Chooses c fun rest => (scanRune rest).token
  | number (isDigit : isDigitOf 10 c) : Chooses c fun rest => (scanNumber c rest).token
  | word (isWord : isWordStart c) : Chooses c fun rest =>
      ⟨c :: rest.takeWhile isWordChar, .ok (.token (wordKind (c :: rest.takeWhile isWordChar)))⟩
  | sign : Chooses c (scanSign c)

theorem isWordChar_of_isWordStart {c : Char} (start : isWordStart c) : isWordChar c := by
  simp only [isWordStart, isWordChar, Char.isAlphanum, Bool.or_eq_true] at start ⊢
  exact start.imp_left .inl

theorem scan_chooses (c : Char) : Chooses c (scan c) := by
  unfold scan
  by_cases space : (c = ' ' || c = '\t' || c = '\r') = true
  · simp only [if_pos space]
    exact .space (by simpa [or_assoc] using space)
  simp only [if_neg space]
  by_cases feed : c = '\n'
  · simp only [if_pos feed]
    exact .feed feed
  simp only [if_neg feed]
  by_cases slash : c = '/'
  · simp only [if_pos slash]
    exact .slash slash
  simp only [if_neg slash]
  by_cases dot : c = '.'
  · simp only [if_pos dot]
    exact .dot dot
  simp only [if_neg dot]
  by_cases quote : c = '"'
  · simp only [if_pos quote]
    exact .string quote
  simp only [if_neg quote]
  by_cases raw : c = backQuote
  · simp only [if_pos raw]
    exact .rawString raw
  simp only [if_neg raw]
  by_cases rune : c = '\''
  · simp only [if_pos rune]
    exact .rune rune
  simp only [if_neg rune]
  by_cases digit : isDigitOf 10 c = true
  · simp only [if_pos digit]
    exact .number digit
  simp only [if_neg digit]
  by_cases word : isWordStart c = true
  · simp only [if_pos word]
    exact .word word
  simp only [if_neg word]
  exact .sign

theorem scan_cuts (c : Char) (rest : List Char) : (scan c rest).Cuts (c :: rest) := by
  have single : ∀ lexeme : Lexeme, isWordChar c = false →
      (⟨[c], .ok lexeme⟩ : Piece Lexeme).Cuts (c :: rest) := by
    intro lexeme sign
    exact ⟨by simp, by simp, by simp, fun _ _ _ _ => parted_of_last [] sign⟩
  have chosen := scan_chooses c
  generalize scan c = scanner at chosen ⊢
  cases chosen with
  | space isSpace =>
    apply single
    simp only [List.mem_cons, List.not_mem_nil, or_false] at isSpace
    rcases isSpace with rfl | rfl | rfl <;> decide
  | feed isFeed => exact single _ (isFeed ▸ by decide)
  | slash isSlash => exact isSlash ▸ scanSlash_cuts rest
  | dot isDot => exact isDot ▸ scanDot_cuts rest
  | string isQuote => exact isQuote ▸ (scanString_cuts rest).token
  | rawString isQuote => exact isQuote ▸ (scanRawString_cuts rest).token
  | rune isQuote => exact isQuote ▸ (scanRune_cuts rest).token
  | number => exact (scanNumber_cuts c rest).token
  | word =>
    refine ⟨by simp, by simpa using List.takeWhile_prefix _, by simp, fun _ after _ split => ?_⟩
    have isRest : rest = rest.takeWhile isWordChar ++ after := by simpa using split
    exact parted_of_head (takeWhile_next isRest)
  | sign => exact scanSign_cuts c rest

theorem pieces_cons {c : Char} {rest after : List Char}
    (split : c :: rest = (scan c rest).text ++ after) :
    pieces (c :: rest) = scan c rest :: pieces after := by
  have isAfter : rest.drop ((scan c rest).text.length - 1) = after := by
    have taken : (c :: rest).drop (scan c rest).text.length = after := by
      rw [split, List.drop_left]
    obtain ⟨n, length⟩ := Nat.exists_eq_succ_of_ne_zero
      (mt List.length_eq_zero_iff.mp (scan_cuts c rest).nonempty)
    simpa [length] using taken
  rw [pieces, isAfter]

/-- Induction over the pieces of a text. -/
theorem pieces_induction {motive : List Char → Prop} (nil : motive [])
    (cons : ∀ c rest after, c :: rest = (scan c rest).text ++ after → motive after →
      motive (c :: rest))
    (text : List Char) : motive text := by
  induction length : text.length using Nat.strong_induction_on generalizing text with
  | _ n ih =>
    cases text with
    | nil => exact nil
    | cons c rest =>
      obtain ⟨after, split⟩ := (scan_cuts c rest).front
      refine cons c rest after split.symm (ih after.length ?_ after rfl)
      have shorter := congrArg List.length split
      have := List.length_pos_iff.mpr (scan_cuts c rest).nonempty
      rw [List.length_append] at shorter
      omega

/-- The pieces make up the text. -/
theorem flatMap_pieces (text : List Char) : (pieces text).flatMap (·.text) = text := by
  induction text using pieces_induction with
  | nil => simp [pieces]
  | cons c rest after split ih => rw [pieces_cons split, List.flatMap_cons, ih, ← split]

theorem pieces_blamed (text : List Char) : ∀ piece ∈ pieces text, piece.result ≠ .error [] := by
  induction text using pieces_induction with
  | nil => simp [pieces]
  | cons c rest after split ih =>
    rw [pieces_cons split]
    exact List.forall_mem_cons.mpr ⟨(scan_cuts c rest).blamed, ih⟩

/-- The piece is accepted. -/
def Piece.Accepted (piece : Piece Lexeme) : Prop := ∃ lexeme, piece.result = .ok lexeme

theorem findings_eq_nil_iff {cut : List (Piece Lexeme)}
    (blamed : ∀ piece ∈ cut, piece.result ≠ .error []) (offset : Nat) :
    findings offset cut = [] ↔ ∀ piece ∈ cut, piece.Accepted := by
  induction cut generalizing offset with
  | nil => simp [findings]
  | cons piece rest ih =>
    obtain ⟨first, later⟩ := List.forall_mem_cons.mp blamed
    rw [List.forall_mem_cons, ← ih later (offset + Text.byteLength piece.text), findings]
    cases result : piece.result with
    | ok lexeme => simp [Piece.Accepted, result]
    | error found =>
      have : found ≠ [] := fun empty => first (empty ▸ result)
      simp [Piece.Accepted, result, this]

theorem lexChars_eq_ok_iff {text : List Char} {found : List Token} :
    lexChars text = .ok found ↔
      (∀ piece ∈ pieces text, piece.Accepted) ∧ tokens 0 false (pieces text) = found := by
  rw [← findings_eq_nil_iff (pieces_blamed text) 0, lexChars]
  split
  next clean => simp [clean]
  next faulty => exact iff_of_false (by simp) fun both => faulty both.1

end Lexer

end GoFront
