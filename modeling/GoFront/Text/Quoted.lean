import GoFront.Text.Combining
import GoFront.Text.Printable

/-!
How characters and texts are shown inside messages: printable ones as themselves, the rest as
escapes, and the delimiter behind a backslash.
-/
namespace GoFront.Text

/-- Lower-case hexadecimal digits, without leading zeros. -/
def hexDigits (n : Nat) : List Char := Nat.toDigits 16 n

/-- The form `\u{1f600}` of a code point. -/
def codePointEscape (c : Char) : List Char :=
  ['\\', 'u', '\x7b'] ++ hexDigits c.toNat ++ ['\x7d']

/-- A character as messages show it, where `quotes` are the delimiters to be escaped. -/
def escapeChar (quotes : List Char) (c : Char) : List Char :=
  if c = '\x00' then ['\\', '0']
  else if c = '\t' then ['\\', 't']
  else if c = '\r' then ['\\', 'r']
  else if c = '\n' then ['\\', 'n']
  else if c = '\\' || quotes.contains c then ['\\', c]
  else if isPrintable c && !isCombining c then [c]
  else codePointEscape c

/-- A character by itself, with both kinds of quote escaped. -/
def showBare (c : Char) : String := String.ofList (escapeChar ['\'', '"'] c)

def showChar (c : Char) : String :=
  String.ofList ('\'' :: escapeChar ['\''] c ++ ['\''])

def showText (s : String) : String :=
  String.ofList ('"' :: s.toList.flatMap (escapeChar ['"']) ++ ['"'])

end GoFront.Text
