import GoFront.Lexer.Scan

/-!
From pieces of text to tokens. A line break after a token that can end a statement inserts a
semicolon; the end of the text counts as a line break. All faults are collected before the text is
refused.
-/
namespace GoFront.Lexer

/-- The faults of the pieces, where `offset` is the byte at which the first piece starts. -/
def findings (offset : Nat) : List (Piece Lexeme) → List Finding
  | [] => []
  | piece :: rest =>
    let later := findings (offset + Text.byteLength piece.text) rest
    match piece.result with
    | .ok _ => later
    | .error found => found.map (fun f => ⟨f.value, f.span.shift offset⟩) ++ later

/-- The semicolon of a line break at `offset`, if the line can end there. -/
def lineEnd (canEnd : Bool) (offset : Nat) : List Token :=
  if canEnd then [Token.lineEnd offset] else []

/-- The tokens of the pieces and the end-of-file token, where `offset` is the byte at which the
first piece starts and `canEnd` says that the token before it can end a line. -/
def tokens (offset : Nat) (canEnd : Bool) : List (Piece Lexeme) → List Token
  | [] => lineEnd canEnd offset ++ [⟨.eof, ⟨offset, offset⟩⟩]
  | piece :: rest =>
    let next := offset + Text.byteLength piece.text
    match piece.result with
    | .ok (.token kind) => ⟨kind, ⟨offset, next⟩⟩ :: tokens next kind.endsLine rest
    | .ok .lineBreak => lineEnd canEnd offset ++ tokens next false rest
    | .ok .blank | .error _ => tokens next canEnd rest

/-- The tokens of a text, or all the faults in it. -/
def lexChars (text : List Char) : Except (List Finding) (List Token) :=
  match findings 0 (pieces text) with
  | [] => .ok (tokens 0 false (pieces text))
  | found => .error found

/-- The tokens of a source text, or all the faults in it. -/
def lex (source : String) : Except (List Finding) (List Token) := lexChars source.toList

end GoFront.Lexer
