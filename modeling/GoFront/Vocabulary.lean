/-! The fixed words and signs of the language: keywords, operators and punctuation. -/
namespace GoFront

inductive Keyword where
  | breakKw | caseKw | chanKw | constKw | continueKw | defaultKw | deferKw | elseKw
  | fallthroughKw | forKw | funcKw | goKw | gotoKw | ifKw | importKw | interfaceKw | mapKw
  | packageKw | rangeKw | returnKw | selectKw | structKw | switchKw | typeKw | varKw
  deriving DecidableEq, Repr, Inhabited

namespace Keyword

def all : List Keyword :=
  [breakKw, caseKw, chanKw, constKw, continueKw, defaultKw, deferKw, elseKw, fallthroughKw, forKw,
   funcKw, goKw, gotoKw, ifKw, importKw, interfaceKw, mapKw, packageKw, rangeKw, returnKw,
   selectKw, structKw, switchKw, typeKw, varKw]

def spelling : Keyword → String
  | breakKw => "break"
  | caseKw => "case"
  | chanKw => "chan"
  | constKw => "const"
  | continueKw => "continue"
  | defaultKw => "default"
  | deferKw => "defer"
  | elseKw => "else"
  | fallthroughKw => "fallthrough"
  | forKw => "for"
  | funcKw => "func"
  | goKw => "go"
  | gotoKw => "goto"
  | ifKw => "if"
  | importKw => "import"
  | interfaceKw => "interface"
  | mapKw => "map"
  | packageKw => "package"
  | rangeKw => "range"
  | returnKw => "return"
  | selectKw => "select"
  | structKw => "struct"
  | switchKw => "switch"
  | typeKw => "type"
  | varKw => "var"

def ofSpelling? (word : String) : Option Keyword := all.find? (·.spelling = word)

def label : Keyword → String
  | breakKw => "Break"
  | caseKw => "Case"
  | chanKw => "Chan"
  | constKw => "Const"
  | continueKw => "Continue"
  | defaultKw => "Default"
  | deferKw => "Defer"
  | elseKw => "Else"
  | fallthroughKw => "Fallthrough"
  | forKw => "For"
  | funcKw => "Func"
  | goKw => "Go"
  | gotoKw => "Goto"
  | ifKw => "If"
  | importKw => "Import"
  | interfaceKw => "Interface"
  | mapKw => "Map"
  | packageKw => "Package"
  | rangeKw => "Range"
  | returnKw => "Return"
  | selectKw => "Select"
  | structKw => "Struct"
  | switchKw => "Switch"
  | typeKw => "Type"
  | varKw => "Var"

/-- A statement may end with the keyword, so a line break after it ends the statement. -/
def endsStatement : Keyword → Bool
  | breakKw | continueKw | fallthroughKw | returnKw => true
  | _ => false

def startsDeclaration : Keyword → Bool
  | funcKw | varKw | constKw | typeKw | importKw => true
  | _ => false

end Keyword

inductive Operator where
  | plus | minus | star | slash | percent | amp | pipe | caret | shl | shr | ampCaret | tilde
  | plusEq | minusEq | starEq | slashEq | percentEq | ampEq | pipeEq | caretEq | shlEq | shrEq
  | ampCaretEq | andAnd | orOr | arrow | inc | dec | not | eqEq | notEq | lt | ltEq | gt | gtEq
  | eq | define
  deriving DecidableEq, Repr, Inhabited

namespace Operator

def all : List Operator :=
  [plus, minus, star, slash, percent, amp, pipe, caret, shl, shr, ampCaret, tilde, plusEq, minusEq,
   starEq, slashEq, percentEq, ampEq, pipeEq, caretEq, shlEq, shrEq, ampCaretEq, andAnd, orOr,
   arrow, inc, dec, not, eqEq, notEq, lt, ltEq, gt, gtEq, eq, define]

def spelling : Operator → String
  | plus => "+"
  | minus => "-"
  | star => "*"
  | slash => "/"
  | percent => "%"
  | amp => "&"
  | pipe => "|"
  | caret => "^"
  | shl => "<<"
  | shr => ">>"
  | ampCaret => "&^"
  | tilde => "~"
  | plusEq => "+="
  | minusEq => "-="
  | starEq => "*="
  | slashEq => "/="
  | percentEq => "%="
  | ampEq => "&="
  | pipeEq => "|="
  | caretEq => "^="
  | shlEq => "<<="
  | shrEq => ">>="
  | ampCaretEq => "&^="
  | andAnd => "&&"
  | orOr => "||"
  | arrow => "<-"
  | inc => "++"
  | dec => "--"
  | not => "!"
  | eqEq => "=="
  | notEq => "!="
  | lt => "<"
  | ltEq => "<="
  | gt => ">"
  | gtEq => ">="
  | eq => "="
  | define => ":="

def ofSpelling? (sign : String) : Option Operator := all.find? (·.spelling = sign)

def label : Operator → String
  | plus => "Plus"
  | minus => "Minus"
  | star => "Star"
  | slash => "Slash"
  | percent => "Percent"
  | amp => "Amp"
  | pipe => "Pipe"
  | caret => "Caret"
  | shl => "Shl"
  | shr => "Shr"
  | ampCaret => "AmpCaret"
  | tilde => "Tilde"
  | plusEq => "PlusEq"
  | minusEq => "MinusEq"
  | starEq => "StarEq"
  | slashEq => "SlashEq"
  | percentEq => "PercentEq"
  | ampEq => "AmpEq"
  | pipeEq => "PipeEq"
  | caretEq => "CaretEq"
  | shlEq => "ShlEq"
  | shrEq => "ShrEq"
  | ampCaretEq => "AmpCaretEq"
  | andAnd => "AndAnd"
  | orOr => "OrOr"
  | arrow => "Arrow"
  | inc => "Inc"
  | dec => "Dec"
  | not => "Not"
  | eqEq => "EqEq"
  | notEq => "NotEq"
  | lt => "Lt"
  | ltEq => "LtEq"
  | gt => "Gt"
  | gtEq => "GtEq"
  | eq => "Eq"
  | define => "Define"

end Operator

inductive Delimiter where
  | paren | bracket | brace
  deriving DecidableEq, Repr, Inhabited

namespace Delimiter

def opener : Delimiter → String
  | paren => "("
  | bracket => "["
  | brace => "\x7b"

def closer : Delimiter → String
  | paren => ")"
  | bracket => "]"
  | brace => "\x7d"

end Delimiter

inductive Punctuation where
  | comma | semicolon | colon | dot | ellipsis
  | opening (delimiter : Delimiter)
  | closing (delimiter : Delimiter)
  deriving DecidableEq, Repr, Inhabited

namespace Punctuation

def all : List Punctuation :=
  [comma, semicolon, colon, dot, ellipsis, opening .paren, closing .paren, opening .bracket,
   closing .bracket, opening .brace, closing .brace]

def spelling : Punctuation → String
  | comma => ","
  | semicolon => ";"
  | colon => ":"
  | dot => "."
  | ellipsis => "..."
  | opening delimiter => delimiter.opener
  | closing delimiter => delimiter.closer

def ofSpelling? (sign : String) : Option Punctuation := all.find? (·.spelling = sign)

def label : Punctuation → String
  | comma => "Comma"
  | semicolon => "Semicolon"
  | colon => "Colon"
  | dot => "Dot"
  | ellipsis => "Ellipsis"
  | opening .paren => "LParen"
  | closing .paren => "RParen"
  | opening .bracket => "LBracket"
  | closing .bracket => "RBracket"
  | opening .brace => "LBrace"
  | closing .brace => "RBrace"

def isClosing : Punctuation → Bool
  | closing _ => true
  | _ => false

def closer? : Punctuation → Option Punctuation
  | opening delimiter => some (closing delimiter)
  | _ => none

end Punctuation

end GoFront
