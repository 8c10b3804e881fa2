import GoFront.Decimal.Numeral
import GoFront.Lexer.Literal

/-!
Numbers: decimal, octal with a leading zero, and integers with a base mark; decimal floats with
an optional exponent; the imaginary suffix. Underscores may stand between digits and carry no
value.
-/
namespace GoFront.Lexer

def isWordStart (c : Char) : Bool := c.isAlpha || c = '_'

def isWordChar (c : Char) : Bool := c.isAlphanum || c = '_'

def isNumeral (base : Nat) (c : Char) : Bool := isDigitOf base c || c = '_'

def plain (numeral : List Char) : List Char := numeral.filter (· ≠ '_')

/-- A piece of text with one fault that covers all of it. -/
def refused {α : Type} (text : List Char) (fault : Fault) : Piece α :=
  ⟨text, .error [⟨fault, 0, Text.byteLength text⟩]⟩

/-- The text of a number and a run of word characters glued to it, or `accept` of the text if
there are none. -/
def rejectSuffix (text rest : List Char) (accept : Piece TokenKind) : Piece TokenKind :=
  match rest.takeWhile isWordChar with
  | [] => accept
  | glued => refused (text ++ glued) (.numberSuffix (String.ofList (text ++ glued)))

/-- The integer token of a numeral without underscores, if it fits into 64 bits. -/
def integer (text : List Char) (base : Nat) (digits : List Char) : Piece TokenKind :=
  let value := positional base digits
  if value < UInt64.size then ⟨text, .ok (.int value.toUInt64)⟩ else refused text .integerOverflow

/-- The base that the letter after a leading zero stands for. -/
def markedBase? (c : Char) : Option Nat :=
  if c = 'x' || c = 'X' then some 16
  else if c = 'o' || c = 'O' then some 8
  else if c = 'b' || c = 'B' then some 2
  else none

/-- An integer with a base mark, where `rest` is the text after the mark. -/
def scanMarked (mark : Char) (base : Nat) (rest : List Char) : Piece TokenKind :=
  let numeral := rest.takeWhile (isNumeral base)
  let text := '0' :: mark :: numeral
  rejectSuffix text (rest.drop numeral.length) <|
    if plain numeral = [] then refused text (.noDigits base) else integer text base (plain numeral)

/-- A decimal integer; one with a leading zero and more digits is octal. -/
def decimalInteger (text : List Char) : Piece TokenKind :=
  match plain text with
  | '0' :: d :: digits =>
    if (d :: digits).any fun c => c = '8' || c = '9' then
      refused text (.invalidOctalDigit (String.ofList (plain text)))
    else integer text 8 (d :: digits)
  | digits => integer text 10 digits

/-- The parts of a decimal number as it is written. -/
structure DecimalText where
  whole : List Char
  /-- The point and the digits after it, or nothing. -/
  fraction : List Char
  /-- The exponent letter, its sign and its digits, or nothing. -/
  exponent : List Char
  deriving Repr

namespace DecimalText

def text (d : DecimalText) : List Char := d.whole ++ d.fraction ++ d.exponent

def isFloat (d : DecimalText) : Bool := d.fraction ≠ [] || d.exponent ≠ []

end DecimalText

/-- The token of a number that is read as a double: the one that `written`, the part of the text
without the suffix, stands for without its underscores. -/
def floatToken (text written : List Char) (token : Binary64 → TokenKind) : Piece TokenKind :=
  let numeral := plain written
  match Binary64.ofText? numeral with
  | some value => ⟨text, .ok (token value)⟩
  | none => refused text (.malformedFloat (String.ofList numeral))

/-- The exponent at the front of the text: the letter and an optional sign, and the digits. -/
def scanExponent (rest : List Char) : List Char × List Char :=
  match rest with
  | letter :: rest =>
    if letter = 'e' || letter = 'E' then
      let (mark, rest) := match rest with
        | sign :: more => if sign = '+' || sign = '-' then ([letter, sign], more) else ([letter], rest)
        | [] => ([letter], [])
      match rest with
      | digit :: _ =>
        if isDigitOf 10 digit then (mark, rest.takeWhile (isNumeral 10)) else (mark, [])
      | [] => (mark, [])
    else ([], [])
  | [] => ([], [])

/-- A number without a base mark, where `whole` is its part before the point and `rest` the text
after that. -/
def scanDecimal (whole rest : List Char) : Piece TokenKind :=
  let fraction := match rest with
    | '.' :: more => '.' :: more.takeWhile (isNumeral 10)
    | _ => []
  let rest := rest.drop fraction.length
  let (mark, digits) := scanExponent rest
  let number : DecimalText := ⟨whole, fraction, mark ++ digits⟩
  if mark ≠ [] ∧ digits = [] then refused number.text .exponentWithoutDigits
  else
    match rest.drop (mark ++ digits).length with
    | 'i' :: rest =>
      let text := number.text ++ ['i']
      rejectSuffix text rest (floatToken text number.text .imaginary)
    | rest =>
      rejectSuffix number.text rest <|
        if number.isFloat then floatToken number.text number.text .float
        else decimalInteger number.text

/-- A number that starts with the digit `first`, where `rest` is the text after it. -/
def scanNumber (first : Char) (rest : List Char) : Piece TokenKind :=
  let unmarked :=
    let whole := first :: rest.takeWhile (isNumeral 10)
    scanDecimal whole (rest.drop (whole.length - 1))
  match rest with
  | mark :: more =>
    match if first = '0' then markedBase? mark else none with
    | some base => scanMarked mark base more
    | none => unmarked
  | [] => unmarked

end GoFront.Lexer
