import GoFront.Diagnostic
import GoFront.Token

/-!
Parsers over token streams. A stream ends where its first end-of-file token stands. A parser
answers with a value or a finding and says how many tokens it took; what follows goes on with the
tokens after those.
-/
namespace GoFront

/-- The tokens before the end of the file, and where the end is. -/
structure Stream where
  tokens : List Token
  finish : Span
  deriving Repr

namespace Stream

/-- The tokens up to the first end-of-file token. -/
def ofTokens (tokens : List Token) : Stream :=
  let before := tokens.takeWhile (·.kind ≠ .eof)
  match tokens.drop before.length with
  | eof :: _ => ⟨before, eof.span⟩
  | [] => ⟨before, ((tokens.getLast?).map (·.span)).getD ⟨0, 0⟩⟩

def current (s : Stream) : Token := s.tokens.head?.getD ⟨.eof, s.finish⟩

/-- The stream without its first `n` tokens. -/
def drop (n : Nat) (s : Stream) : Stream := ⟨s.tokens.drop n, s.finish⟩

/-- The span from the start of the first token to the end of the `n`th. -/
def covered (n : Nat) (s : Stream) : Span :=
  s.current.span.merge (s.drop (n - 1)).current.span

def startsWith (sign : Punctuation) (s : Stream) : Bool := s.current.kind = .punctuation sign

end Stream

/-- The answer of a parser: a value or a finding, and the number of tokens taken. -/
inductive Reply (α : Type) where
  | ok (value : α) (used : Nat)
  | fail (finding : Finding) (used : Nat)
  deriving Repr

namespace Reply

/-- Counts `n` more tokens as taken before those of the reply. -/
def after {α : Type} (n : Nat) : Reply α → Reply α
  | ok value used => ok value (n + used)
  | fail finding used => fail finding (n + used)

/-- Applies `f` to the value. -/
def map {α β : Type} (f : α → β) : Reply α → Reply β
  | ok value used => ok (f value) used
  | fail finding used => fail finding used

end Reply

/-- A parser of `α`. -/
def Parser (α : Type) : Type := Stream → Reply α

namespace Parser

instance : Monad Parser where
  pure value := fun _ => .ok value 0
  bind p next := fun s =>
    match p s with
    | .ok value used => (next value (s.drop used)).after used
    | .fail finding used => .fail finding used

def peek : Parser Token := fun s => .ok s.current 0

/-- Takes the current token; the end of the file is never taken. -/
def advance : Parser Token := fun s => .ok s.current (min 1 s.tokens.length)

def failAt {α : Type} (fault : Fault) (span : Span) : Parser α := fun _ => .fail ⟨fault, span⟩ 0

/-- Fails because the current token is not what the grammar wants. -/
def unexpected {α : Type} (expected : String) : Parser α := fun s =>
  .fail ⟨.unexpected expected s.current.describe, s.current.span⟩ 0

def atSign (sign : Punctuation) : Parser Bool := fun s => .ok (s.startsWith sign) 0

/-- Takes an identifier; `what` names it in the message. -/
def identifier (what : String) : Parser (Spanned String) := fun s =>
  match s.current.kind with
  | .ident name => .ok ⟨name, s.current.span⟩ 1
  | _ => unexpected what s

/-- Takes the semicolon that ends a declaration. Before a closing parenthesis and at the end of
the file it may be missing. -/
def lineEnd : Parser Unit := fun s =>
  if s.startsWith .semicolon then .ok () 1
  else if s.startsWith (.closing .paren) || s.tokens = [] then .ok () 0
  else unexpected "';' or newline" s

def semicolons (tokens : List Token) : Nat :=
  (tokens.takeWhile (·.kind = .punctuation .semicolon)).length

def skipSemicolons : Parser Unit := fun s => .ok () (semicolons s.tokens)

end Parser

end GoFront
