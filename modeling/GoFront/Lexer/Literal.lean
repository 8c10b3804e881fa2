import GoFront.Diagnostic
import GoFront.Text.Bytes
import GoFront.Token

/-!
The quoted literals: interpreted strings, raw strings and runes. A literal is read element by
element, an element being a plain character or an escape sequence; each keeps its text, so that
the texts of the elements make up the text of the literal.
-/
namespace GoFront.Lexer

/-- What scanning one lexical element found: its text, and the token or blank it is, or the
faults in it with their spans counted from its start. -/
structure Piece (α : Type) where
  text : List Char
  result : Except (List Finding) α
  deriving Repr

def isDigitOf (base : Nat) (c : Char) : Bool :=
  let n := c.toNat
  if 48 ≤ n && n ≤ 57 then n - 48 < base
  else if 97 ≤ n && n ≤ 102 then n - 87 < base
  else if 65 ≤ n && n ≤ 70 then n - 55 < base
  else false

/-- The value of a digit of base sixteen or less. -/
def digitValue (c : Char) : Nat :=
  let n := c.toNat
  if n ≤ 57 then n - 48 else if n ≤ 70 then n - 55 else n - 87

/-- The number that the digits stand for in the base. -/
def positional (base : Nat) (digits : List Char) : Nat :=
  digits.foldl (fun value c => value * base + digitValue c) 0

/-- A plain character or an escape sequence of a quoted literal: its text, and the character it
stands for or the fault in it. -/
structure Element where
  text : List Char
  meaning : Except Fault Char
  deriving Repr

/-- The character with this code, if there is one. -/
def charOfCode? (code : Nat) : Option Char :=
  if h : code.isValidChar then some (Char.ofNatAux code h) else none

/-- The escapes of one letter. The delimiter of the literal may be escaped too. -/
def simpleEscape? (quote c : Char) : Option Char :=
  if c = 'a' then some '\x07'
  else if c = 'b' then some '\x08'
  else if c = 'f' then some '\x0c'
  else if c = 'n' then some '\n'
  else if c = 'r' then some '\r'
  else if c = 't' then some '\t'
  else if c = 'v' then some '\x0b'
  else if c = '\\' || c = quote then some c
  else none

/-- Digits that follow the letter of a hexadecimal escape. -/
def hexEscapeDigits? (c : Char) : Option Nat :=
  if c = 'x' then some 2 else if c = 'u' then some 4 else if c = 'U' then some 8 else none

/-- A hexadecimal escape with its letter, where `rest` is the text after the letter. -/
def hexEscape (letter : Char) (count : Nat) (rest : List Char) : Element :=
  let digits := (rest.take count).takeWhile (isDigitOf 16)
  let meaning :=
    if digits.length < count then .error (.shortHexEscape count)
    else match charOfCode? (positional 16 digits) with
      | some c => .ok c
      | none => .error .invalidCodePoint
  ⟨'\\' :: letter :: digits, meaning⟩

/-- An octal escape, where `first` is its first digit and `rest` the text after that. -/
def octalEscape (first : Char) (rest : List Char) : Element :=
  let digits := first :: (rest.take 2).takeWhile (isDigitOf 8)
  let code := positional 8 digits
  let meaning :=
    if digits.length < 3 then .error .shortOctalEscape
    else if 255 < code then .error .octalEscapeTooLarge
    else .ok (Char.ofNat code)
  ⟨'\\' :: digits, meaning⟩

/-- The escape sequence of a backslash before `c`, where `rest` is the text after `c`. A character
that no escape starts with belongs to the faulty sequence, whatever it is. -/
def escape (quote c : Char) (rest : List Char) : Element :=
  match simpleEscape? quote c with
  | some meaning => ⟨['\\', c], .ok meaning⟩
  | none =>
    match hexEscapeDigits? c with
    | some count => hexEscape c count rest
    | none =>
      if isDigitOf 8 c then octalEscape c rest else ⟨['\\', c], .error .unknownEscape⟩

/-- The characters the elements stand for; those of faulty elements are left out. -/
def meanings (elements : List Element) : List Char :=
  elements.filterMap fun element => element.meaning.toOption

/-- The faults of the elements, where `offset` is the byte at which the first one starts. -/
def elementFindings (offset : Nat) : List Element → List Finding
  | [] => []
  | element :: rest =>
    let stop := offset + Text.byteLength element.text
    match element.meaning with
    | .ok _ => elementFindings stop rest
    | .error fault => ⟨fault, offset, stop⟩ :: elementFindings stop rest

/-- The elements of an interpreted string up to its end, the text after them that still belongs
to the literal, and whether the closing quote was found. -/
structure StringBody where
  elements : List Element
  tail : List Char
  closed : Bool
  deriving Repr

/-- Reads an interpreted string after its opening quote. It ends at the closing quote; a line
feed outside an escape, or the end of the text, leaves it unterminated. -/
def stringBody : List Char → StringBody
  | [] => ⟨[], [], false⟩
  | '\n' :: _ => ⟨[], [], false⟩
  | '"' :: _ => ⟨[], ['"'], true⟩
  | ['\\'] => ⟨[], ['\\'], false⟩
  | '\\' :: c :: rest =>
    let element := escape '"' c rest
    let body := stringBody (rest.drop (element.text.length - 2))
    { body with elements := element :: body.elements }
  | c :: rest =>
    let body := stringBody rest
    { body with elements := ⟨[c], .ok c⟩ :: body.elements }
termination_by text => text.length

/-- An interpreted string whose text after the opening quote starts with `rest`. -/
def scanString (rest : List Char) : Piece TokenKind :=
  let body := stringBody rest
  let text := '"' :: body.elements.flatMap (·.text) ++ body.tail
  let unterminated : List Finding :=
    if body.closed then [] else [⟨.unterminatedString, 0, Text.byteLength text⟩]
  match elementFindings 1 body.elements ++ unterminated with
  | [] => ⟨text, .ok (.string (String.ofList (meanings body.elements)))⟩
  | findings => ⟨text, .error findings⟩

def backQuote : Char := '\x60'

/-- A raw string whose text after the opening quote starts with `rest`. Carriage returns do not
belong to its value. -/
def scanRawString (rest : List Char) : Piece TokenKind :=
  let body := rest.takeWhile (· ≠ backQuote)
  if body.length < rest.length then
    ⟨backQuote :: body ++ [backQuote], .ok (.string (String.ofList (body.filter (· ≠ '\r'))))⟩
  else
    let text := backQuote :: body
    ⟨text, .error [⟨.unterminatedRawString, 0, Text.byteLength text⟩]⟩

/-- The text up to the next single quote, that quote included, or to the end of the line. -/
def toRuneEnd : List Char → List Char
  | [] => []
  | c :: rest => if c = '\n' then [] else if c = '\'' then [c] else c :: toRuneEnd rest

/-- A rune literal after its opening quote and its one element, where `rest` is what follows. -/
def closeRune (element : Element) (rest : List Char) : Piece TokenKind :=
  match rest with
  | '\'' :: _ =>
    let text := '\'' :: element.text ++ ['\'']
    match element.meaning with
    | .ok c => ⟨text, .ok (.rune c)⟩
    | .error _ => ⟨text, .error (elementFindings 1 [element])⟩
  | _ =>
    let text := '\'' :: element.text ++ toRuneEnd rest
    ⟨text, .error (elementFindings 1 [element] ++ [⟨.unterminatedRune, 0, Text.byteLength text⟩])⟩

/-- A rune literal whose text after the opening quote is `rest`. -/
def scanRune : List Char → Piece TokenKind
  | '\'' :: _ => ⟨['\'', '\''], .error [⟨.emptyRune, 0, 2⟩]⟩
  | [] | '\n' :: _ => ⟨['\''], .error [⟨.emptyRune, 0, 1⟩]⟩
  | ['\\'] => ⟨['\'', '\\'], .error [⟨.unterminatedRune, 0, 2⟩]⟩
  | '\\' :: c :: rest =>
    let element := escape '\'' c rest
    closeRune element (rest.drop (element.text.length - 2))
  | c :: rest => closeRune ⟨[c], .ok c⟩ rest

end GoFront.Lexer
