import GoFront.Parser.Stream

/-!
Skipping text that the outline does not keep. Delimited groups are skipped whole and must be
balanced; signatures and the tails of declarations are skipped up to where they end.
-/
namespace GoFront.Parser

/-- Skips to the closer of the outermost open group and gives its span. `inner` is the delimiter
opened last and `outer` are those around it, the nearest first. -/
def closeGroups (inner : Spanned Delimiter) (outer : List (Spanned Delimiter)) :
    List Token → Reply Span
  | [] => .fail ⟨.unclosed inner.value.opener, inner.span⟩ 0
  | token :: rest =>
    match token.kind with
    | .punctuation (.opening delimiter) =>
      (closeGroups ⟨delimiter, token.span⟩ (inner :: outer) rest).after 1
    | .punctuation (.closing delimiter) =>
      if delimiter = inner.value then
        match outer with
        | [] => .ok token.span 1
        | next :: others => (closeGroups next others rest).after 1
      else .fail ⟨.mismatched inner.value.closer delimiter.closer, token.span⟩ 0
    | _ => (closeGroups inner outer rest).after 1

/-- Skips the group that the current token opens and gives the span from opener to closer. -/
def group : Parser Span := fun s =>
  match s.tokens with
  | ⟨.punctuation (.opening delimiter), span⟩ :: rest =>
    ((closeGroups ⟨delimiter, span⟩ [] rest).map span.merge).after 1
  | _ => unexpected "opening delimiter" s

def braceAt? : List Token → Option Span
  | ⟨.punctuation (.opening .brace), span⟩ :: _ => some span
  | _ => none

/-- Skips the rest of a signature or declaration: up to a semicolon, a closer that belongs to
something around it, or the end. With `stopAtBrace` an opening brace ends it too, unless it
belongs to a struct or interface type. -/
def skipTail (stopAtBrace : Bool) : List Token → Reply Unit
  | [] => .ok () 0
  | token :: rest =>
    match token.kind with
    | .punctuation .semicolon | .punctuation (.closing _) => .ok () 0
    | .punctuation (.opening delimiter) =>
      if stopAtBrace && delimiter = .brace then .ok () 0
      else
        match closeGroups ⟨delimiter, token.span⟩ [] rest with
        | .ok _ used => (skipTail stopAtBrace (rest.drop used)).after (1 + used)
        | .fail finding used => .fail finding (1 + used)
    | .keyword .structKw | .keyword .interfaceKw =>
      match braceAt? rest with
      | some span =>
        match closeGroups ⟨.brace, span⟩ [] (rest.drop 1) with
        | .ok _ used => (skipTail stopAtBrace (rest.drop (1 + used))).after (2 + used)
        | .fail finding used => .fail finding (2 + used)
      | none => (skipTail stopAtBrace rest).after 1
    | _ => (skipTail stopAtBrace rest).after 1
termination_by tokens => tokens.length

/-- The parser form of `skipTail`. -/
def tail (stopAtBrace : Bool) : Parser Unit := fun s => skipTail stopAtBrace s.tokens

/-- The items of a parenthesised list after its opener: each ends like a line, and the closer
ends the list. `opener` is the span of the opening parenthesis. -/
def items {α : Type} (item : Parser α) (opener : Span) (s : Stream) : Reply (List α) :=
  match s with
  | ⟨[], _⟩ => .fail ⟨.unclosed Delimiter.paren.opener, opener⟩ 0
  | ⟨token :: rest, finish⟩ =>
    if token.kind = .punctuation .semicolon then (items item opener ⟨rest, finish⟩).after 1
    else if token.kind = .punctuation (.closing .paren) then .ok [] 1
    else
      match (do let value ← item; lineEnd; return value : Parser α) ⟨token :: rest, finish⟩ with
      | .ok value used =>
        ((items item opener ⟨rest.drop (used - 1), finish⟩).map (value :: ·)).after used
      | .fail finding used => .fail finding used
termination_by s.tokens.length

/-- One item, or a parenthesised list of items. -/
def oneOrMany {α : Type} (item : Parser α) : Parser (List α) := do
  if ← atSign (.opening .paren) then
    let opener ← advance
    items item opener.span
  else
    return [← item]

/-- Tokens to skip after a fault: up to and with a semicolon outside all groups that stands before
the keyword of a top-level declaration, or all of them. `depth` counts the open groups. -/
def recovery (depth : Nat) : List Token → Nat
  | [] => 0
  | token :: rest =>
    match token.kind with
    | .punctuation (.opening _) => 1 + recovery (depth + 1) rest
    | .punctuation (.closing _) => 1 + recovery (depth - 1) rest
    | .punctuation .semicolon => if depth = 0 && declares rest then 1 else 1 + recovery depth rest
    | _ => 1 + recovery depth rest
where
  /-- The tokens start with the keyword of a top-level declaration. -/
  declares : List Token → Bool
    | ⟨.keyword word, _⟩ :: _ => word.startsDeclaration
    | _ => false

end GoFront.Parser
