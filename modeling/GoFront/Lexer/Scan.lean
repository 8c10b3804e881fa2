import GoFront.Lexer.Number

/-!
One step of the lexer: the lexical element at the front of the text. Every step takes at least one
character, so the text is cut into pieces without loss.
-/
namespace GoFront.Lexer

/-- What a piece of text means to the token stream. -/
inductive Lexeme where
  /-- White space, or a comment within a line. -/
  | blank
  /-- A line feed, or a comment that spans lines. -/
  | lineBreak
  | token (kind : TokenKind)
  deriving DecidableEq, Repr

/-- The text of a block comment after its opening mark, up to and with the closing mark. -/
def commentBody? : List Char → Option (List Char)
  | [] => none
  | '*' :: '/' :: _ => some ['*', '/']
  | c :: rest => (commentBody? rest).map (c :: ·)

/-- A block comment, where `rest` is the text after the opening mark. -/
def scanComment (rest : List Char) : Piece Lexeme :=
  match commentBody? rest with
  | some body =>
    ⟨'/' :: '*' :: body, .ok (if body.contains '\n' then .lineBreak else .blank)⟩
  | none => refused ('/' :: '*' :: rest) .unterminatedComment

/-- The token of a word: a keyword if it is one, an identifier otherwise. -/
def wordKind (word : List Char) : TokenKind :=
  match Keyword.ofSpelling? (String.ofList word) with
  | some keyword => .keyword keyword
  | none => .ident (String.ofList word)

/-- The piece that holds the token of another piece. -/
def Piece.token (piece : Piece TokenKind) : Piece Lexeme :=
  ⟨piece.text, piece.result.map .token⟩

def operatorPiece (text : List Char) (sign : Operator) : Piece Lexeme :=
  ⟨text, .ok (.token (.operator sign))⟩

def punctuationPiece (text : List Char) (sign : Punctuation) : Piece Lexeme :=
  ⟨text, .ok (.token (.punctuation sign))⟩

/-- An operator of which the front is read: the first compound whose last character comes next, and
the simple one if there is none. -/
def scanOperator (read : List Char) (simple : Operator) (compounds : List (Char × Operator))
    (rest : List Char) : Piece Lexeme :=
  match compounds.find? fun entry => rest.head? = some entry.1 with
  | some (last, compound) => operatorPiece (read ++ [last]) compound
  | none => operatorPiece read simple

/-- A sign, or a character that starts nothing. -/
def scanSign (c : Char) (rest : List Char) : Piece Lexeme :=
  match c with
  | '+' => scanOperator ['+'] .plus [('+', .inc), ('=', .plusEq)] rest
  | '-' => scanOperator ['-'] .minus [('-', .dec), ('=', .minusEq)] rest
  | '*' => scanOperator ['*'] .star [('=', .starEq)] rest
  | '/' => scanOperator ['/'] .slash [('=', .slashEq)] rest
  | '%' => scanOperator ['%'] .percent [('=', .percentEq)] rest
  | '&' =>
    match rest with
    | '^' :: more => scanOperator ['&', '^'] .ampCaret [('=', .ampCaretEq)] more
    | _ => scanOperator ['&'] .amp [('&', .andAnd), ('=', .ampEq)] rest
  | '|' => scanOperator ['|'] .pipe [('|', .orOr), ('=', .pipeEq)] rest
  | '^' => scanOperator ['^'] .caret [('=', .caretEq)] rest
  | '~' => operatorPiece ['~'] .tilde
  | '<' =>
    match rest with
    | '<' :: more => scanOperator ['<', '<'] .shl [('=', .shlEq)] more
    | _ => scanOperator ['<'] .lt [('=', .ltEq), ('-', .arrow)] rest
  | '>' =>
    match rest with
    | '>' :: more => scanOperator ['>', '>'] .shr [('=', .shrEq)] more
    | _ => scanOperator ['>'] .gt [('=', .gtEq)] rest
  | '=' => scanOperator ['='] .eq [('=', .eqEq)] rest
  | '!' => scanOperator ['!'] .not [('=', .notEq)] rest
  | ':' =>
    match rest with
    | '=' :: _ => operatorPiece [':', '='] .define
    | _ => punctuationPiece [':'] .colon
  | '.' =>
    match rest with
    | '.' :: '.' :: _ => punctuationPiece ['.', '.', '.'] .ellipsis
    | _ => punctuationPiece ['.'] .dot
  | ',' => punctuationPiece [','] .comma
  | ';' => punctuationPiece [';'] .semicolon
  | '(' => punctuationPiece ['('] (.opening .paren)
  | ')' => punctuationPiece [')'] (.closing .paren)
  | '[' => punctuationPiece ['['] (.opening .bracket)
  | ']' => punctuationPiece [']'] (.closing .bracket)
  | '\x7b' => punctuationPiece ['\x7b'] (.opening .brace)
  | '\x7d' => punctuationPiece ['\x7d'] (.closing .brace)
  | _ => refused [c] (.illegalCharacter c)

/-- A dot opens a number if a digit follows it, and is a sign otherwise. -/
def scanDot (rest : List Char) : Piece Lexeme :=
  match rest with
  | digit :: _ =>
    if isDigitOf 10 digit then (scanDecimal [] ('.' :: rest)).token else scanSign '.' rest
  | [] => scanSign '.' rest

/-- A slash opens a comment if a slash or a star follows it, and is a sign otherwise. -/
def scanSlash (rest : List Char) : Piece Lexeme :=
  match rest with
  | '/' :: _ => ⟨('/' :: rest).takeWhile (· ≠ '\n'), .ok .blank⟩
  | '*' :: body => scanComment body
  | _ => scanSign '/' rest

/-- The piece at the front of the text, given by its first character and the rest. -/
def scan (c : Char) (rest : List Char) : Piece Lexeme :=
  if c = ' ' || c = '\t' || c = '\r' then ⟨[c], .ok .blank⟩
  else if c = '\n' then ⟨[c], .ok .lineBreak⟩
  else if c = '/' then scanSlash rest
  else if c = '.' then scanDot rest
  else if c = '"' then (scanString rest).token
  else if c = backQuote then (scanRawString rest).token
  else if c = '\'' then (scanRune rest).token
  else if isDigitOf 10 c then (scanNumber c rest).token
  else if isWordStart c then
    let word := c :: rest.takeWhile isWordChar
    ⟨word, .ok (.token (wordKind word))⟩
  else scanSign c rest

def pieces : List Char → List (Piece Lexeme)
  | [] => []
  | c :: rest =>
    let piece := scan c rest
    piece :: pieces (rest.drop (piece.text.length - 1))
termination_by text => text.length

end GoFront.Lexer
