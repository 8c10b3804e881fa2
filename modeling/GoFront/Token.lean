import GoFront.Decimal.Shortest
import GoFront.Source.Span
import GoFront.Text.Quoted
import GoFront.Vocabulary

/-! Tokens, and how messages and dumps show them. -/
namespace GoFront

/-- What a token stands for. Literals carry their value. -/
inductive TokenKind where
  | keyword (word : Keyword)
  | operator (sign : Operator)
  | punctuation (sign : Punctuation)
  | ident (name : String)
  | int (value : UInt64)
  | float (value : Binary64)
  | imaginary (value : Binary64)
  | rune (value : Char)
  | string (value : String)
  | eof
  deriving DecidableEq, Repr, Inhabited

namespace TokenKind

/-- A line break after the token ends the statement. -/
def endsLine : TokenKind → Bool
  | keyword word => word.endsStatement
  | operator sign => sign = .inc || sign = .dec
  | punctuation sign => sign.isClosing
  | ident _ | int _ | float _ | imaginary _ | rune _ | string _ => true
  | eof => false

def describe : TokenKind → String
  | keyword word => s!"'{word.spelling}'"
  | operator sign => s!"'{sign.spelling}'"
  | punctuation sign => s!"'{sign.spelling}'"
  | ident name => s!"identifier '{name}'"
  | int value => s!"integer {value.toNat}"
  | float value => s!"float {value.toMessage}"
  | imaginary value => s!"imaginary {value.toMessage}i"
  | rune value => s!"rune {Text.showChar value}"
  | string value => s!"string {Text.showText value}"
  | eof => "end of file"

def dump : TokenKind → String
  | keyword word => s!"Keyword({word.label})"
  | operator sign => s!"Operator({sign.label})"
  | punctuation sign => s!"Punctuation({sign.label})"
  | ident name => s!"Ident({Text.showText name})"
  | int value => s!"Int({value.toNat})"
  | float value => s!"Float({value.toDump})"
  | imaginary value => s!"Imaginary({value.toDump})"
  | rune value => s!"Rune({Text.showChar value})"
  | string value => s!"String({Text.showText value})"
  | eof => "Eof"

end TokenKind

structure Token where
  kind : TokenKind
  span : Span
  deriving DecidableEq, Repr, Inhabited

namespace Token

/-- The semicolon that a line break at `offset` inserts. It covers no text. -/
def lineEnd (offset : Nat) : Token := ⟨.punctuation .semicolon, ⟨offset, offset⟩⟩

/-- The token was inserted at a line break and is not written in the source. -/
def implicit (t : Token) : Bool :=
  t.kind = .punctuation .semicolon && t.span.start = t.span.stop

/-- The token as messages name it; an inserted semicolon is a newline. -/
def describe (t : Token) : String := if t.implicit then "newline" else t.kind.describe

/-- The line that a token dump prints for the token. -/
def dump (t : Token) : String :=
  s!"Token \x7b kind: {t.kind.dump}, span: Span \x7b start: {t.span.start}, end: {t.span.stop} \x7d \x7d"

end Token

end GoFront
