import GoFront.Source.Position
import GoFront.Source.Span
import GoFront.Text.Quoted

/-!
Findings about source text. A `Fault` is a cause; a `Diagnostic` is the text that reports it, with
its notes and hints.
-/
namespace GoFront

inductive DiagnosticKind where
  | general | grammar | naming
  deriving DecidableEq, Repr, Inhabited

namespace DiagnosticKind

def title : DiagnosticKind → String
  | general => "error"
  | grammar => "syntax error"
  | naming => "symbol error"

def code : DiagnosticKind → String
  | general => "golite::error"
  | grammar => "golite::syntax"
  | naming => "golite::symbol"

end DiagnosticKind

structure Diagnostic where
  message : String
  span : Span
  kind : DiagnosticKind
  notes : List String := []
  hints : List String := []
  deriving DecidableEq, Repr

namespace Diagnostic

def addNote (d : Diagnostic) (note : String) : Diagnostic := { d with notes := d.notes ++ [note] }

def addHint (d : Diagnostic) (hint : String) : Diagnostic := { d with hints := d.hints ++ [hint] }

def text (d : Diagnostic) : String := s!"{d.kind.title}: {d.message}"

/-- The notes, then the hints, a line each; nothing if there are none. -/
def help (d : Diagnostic) : Option String :=
  match d.notes.map ("note: " ++ ·) ++ d.hints.map ("hint: " ++ ·) with
  | [] => none
  | lines => some ("\n".intercalate lines)

end Diagnostic

inductive Fault where
  /-- No token starts with the character. -/
  | illegalCharacter (c : Char)
  | unterminatedComment
  | unterminatedString
  | unterminatedRawString
  | emptyRune
  | unterminatedRune
  | unknownEscape
  /-- A hexadecimal escape is cut short; it needs this many digits. -/
  | shortHexEscape (digits : Nat)
  | invalidCodePoint
  | shortOctalEscape
  | octalEscapeTooLarge
  | exponentWithoutDigits
  /-- Letters or digits that do not belong to the number are glued to it. -/
  | numberSuffix (text : String)
  /-- A float, given without its underscores, is no number. -/
  | malformedFloat (text : String)
  /-- A number that starts with zero has a digit 8 or 9. -/
  | invalidOctalDigit (text : String)
  | noDigits (base : Nat)
  | integerOverflow
  | missingPackageClause
  | packageNameNotIdentifier (found : String)
  | importNotString (found : String)
  | emptyImportPath
  | invalidImportPath (path : String) (bad : Char)
  | importAfterDeclaration
  | unexpected (expected found : String)
  | unclosed (opener : String)
  | mismatched (expected found : String)
  /-- The name is taken in its block by the declaration at `first`. -/
  | redeclared (name : String) (first : Position)
  deriving DecidableEq, Repr

namespace Fault

/-- A code point in hexadecimal, at least two digits. -/
def hexCode (c : Char) : String :=
  let digits := Text.hexDigits c.toNat
  String.ofList (['0', 'x'] ++ List.replicate (2 - digits.length) '0' ++ digits)

def message : Fault → String
  | illegalCharacter c => s!"illegal character '{Text.showBare c}' ({hexCode c})"
  | unterminatedComment => "comment not terminated"
  | unterminatedString => "string literal not terminated"
  | unterminatedRawString => "raw string literal not terminated"
  | emptyRune => "empty rune literal or unescaped ' in rune literal"
  | unterminatedRune => "rune literal not terminated"
  | unknownEscape => "unknown escape sequence"
  | shortHexEscape digits => s!"escape sequence needs {digits} hex digits"
  | invalidCodePoint => "escape sequence is invalid Unicode code point"
  | shortOctalEscape => "octal escape needs exactly three digits"
  | octalEscapeTooLarge => "octal escape value > 255"
  | exponentWithoutDigits => "exponent has no digits"
  | numberSuffix text => s!"invalid digit or suffix in number literal '{text}'"
  | malformedFloat text => s!"malformed float literal '{text}'"
  | invalidOctalDigit text => s!"invalid digit in octal literal '{text}'"
  | noDigits base => s!"base-{base} literal has no digits"
  | integerOverflow => "integer literal overflows 64 bits"
  | missingPackageClause => "the file should start with 'package <name>'"
  | packageNameNotIdentifier found => s!"package name must be an identifier, found {found}"
  | importNotString found => s!"imports should be a quoted string, found {found}"
  | emptyImportPath => "import path must not be empty"
  | invalidImportPath path bad =>
    s!"invalid import path {Text.showText path}: character {Text.showChar bad} is not allowed"
  | importAfterDeclaration => "imports must appear before other declarations"
  | unexpected expected found => s!"expected {expected}, found {found}"
  | unclosed opener => s!"unclosed delimiter '{opener}'"
  | mismatched expected found => s!"mismatched delimiter: expected '{expected}', found '{found}'"
  | redeclared name _ => s!"`{name}` redeclared in this block"

/-- Clashing names are faults of naming, all others of grammar. -/
def kind : Fault → DiagnosticKind
  | redeclared .. => .naming
  | _ => .grammar

def notes : Fault → List String
  | redeclared _ first => [s!"previous declaration at {first.text}"]
  | _ => []

def hints : Fault → List String
  | importAfterDeclaration => ["move this import above the first func, var, const or type"]
  | _ => []

def diagnostic (fault : Fault) (span : Span) : Diagnostic :=
  ⟨fault.message, span, fault.kind, fault.notes, fault.hints⟩

end Fault

abbrev Finding := Spanned Fault

namespace Finding

def diagnostic (finding : Finding) : Diagnostic := finding.value.diagnostic finding.span

end Finding

end GoFront
