import GoFront.Decimal.Binary64

/-!
Decimal numerals cut into their parts, and the texts that are read as doubles: a numeral, or a word
for infinity or for what is no number, with or without a sign.
-/
namespace GoFront

/-- A sign at the front of the text, if there is one, and the rest. -/
def splitSign : List Char → List Char × List Char
  | '+' :: rest => (['+'], rest)
  | '-' :: rest => (['-'], rest)
  | rest => ([], rest)

theorem isSign_splitSign (text : List Char) :
    (splitSign text).1 = [] ∨ (splitSign text).1 = ['+'] ∨ (splitSign text).1 = ['-'] := by
  unfold splitSign
  split <;> simp

/-- An exponent as it is written. -/
structure Exponent where
  letter : Char
  sign : List Char
  digits : List Char
  isLetter : letter = 'e' ∨ letter = 'E'
  isSign : sign = [] ∨ sign = ['+'] ∨ sign = ['-']
  allDigits : digits.all Char.isDigit
  hasDigit : digits ≠ []

namespace Exponent

def text (e : Exponent) : List Char := e.letter :: (e.sign ++ e.digits)

def value (e : Exponent) : Int :=
  let size : Int := Nat.ofDigitChars 10 e.digits 0
  if e.sign = ['-'] then -size else size

def ofText? : List Char → Option Exponent
  | [] => none
  | letter :: rest =>
    let digits := (splitSign rest).2
    if valid : (letter = 'e' ∨ letter = 'E') ∧ digits.all Char.isDigit ∧ digits ≠ [] then
      some ⟨letter, (splitSign rest).1, digits, valid.1, isSign_splitSign rest, valid.2.1,
        valid.2.2⟩
    else none

end Exponent

/-- The digits after a point at the front of the text, if there is a point, and the rest. -/
def splitDecimals : List Char → Option (List Char) × List Char
  | '.' :: rest => (some (rest.takeWhile Char.isDigit), rest.dropWhile Char.isDigit)
  | rest => (none, rest)

theorem allDigits_splitDecimals (text : List Char) :
    ((splitDecimals text).1.getD []).all Char.isDigit := by
  unfold splitDecimals
  split <;> simp

/-- A decimal numeral as it is written: digits with at most one point before, between or after
them, at least one digit, and perhaps an exponent. -/
structure Numeral where
  whole : List Char
  /-- The digits after the point, if there is a point. -/
  decimals : Option (List Char)
  exponent : Option Exponent
  allDigits : (whole ++ decimals.getD []).all Char.isDigit
  hasDigit : whole ++ decimals.getD [] ≠ []

namespace Numeral

def text (n : Numeral) : List Char :=
  n.whole ++ (n.decimals.elim [] ('.' :: ·) ++ n.exponent.elim [] Exponent.text)

/-- The double nearest to the number that is written. -/
def value (n : Numeral) : Binary64 :=
  let decimals := n.decimals.getD []
  let exponent := n.exponent.elim 0 Exponent.value
  .ofDecimal (Nat.ofDigitChars 10 (n.whole ++ decimals) 0) (exponent - decimals.length)

/-- The exponent that makes up the whole text, if the text is not empty. -/
def exponentAtEnd? (text : List Char) : Option (Option Exponent) :=
  if text = [] then some none else (Exponent.ofText? text).map some

def ofText? (text : List Char) : Option Numeral :=
  let whole := text.takeWhile Char.isDigit
  let parts := splitDecimals (text.dropWhile Char.isDigit)
  if hasDigit : whole ++ parts.1.getD [] ≠ [] then
    have allDigits : (whole ++ parts.1.getD []).all Char.isDigit := by
      simp [whole, parts, allDigits_splitDecimals]
    (exponentAtEnd? parts.2).map fun exponent => ⟨whole, parts.1, exponent, allDigits, hasDigit⟩
  else none

end Numeral

namespace Binary64

def negate (x : Binary64) : Binary64 := ⟨x.bits ^^^ 0x8000000000000000⟩

/-- Words for infinity and for what is no number, in small or capital letters. -/
def ofWord? (word : List Char) : Option Binary64 :=
  let letters := String.ofList (word.map Char.toLower)
  if letters = "inf" || letters = "infinity" then some ⟨infinityBits.toUInt64⟩
  else if letters = "nan" then some ⟨0x7FF8000000000000⟩
  else none

/-- The double that the text stands for. -/
def ofText? (text : List Char) : Option Binary64 :=
  let (sign, rest) := splitSign text
  let size := match Numeral.ofText? rest with
    | some numeral => some numeral.value
    | none => ofWord? rest
  if sign = ['-'] then size.map negate else size

end Binary64

end GoFront
