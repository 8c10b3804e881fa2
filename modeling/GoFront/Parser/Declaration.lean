import GoFront.Parser.Group
import GoFront.SourceFile
import GoFront.Text.Blank

/-! The grammar of the package clause, the imports and the top-level declarations. -/
namespace GoFront.Parser

/-- `package name`. The name may not be the underscore. -/
def packageClause : Parser (Spanned String) := do
  skipSemicolons
  let token ← peek
  if token.kind ≠ .keyword .packageKw then
    failAt .missingPackageClause token.span
  else
    let _ ← advance
    let name ← peek
    match name.kind with
    | .ident text =>
      if text = "_" then failAt (.packageNameNotIdentifier name.describe) name.span
      else
        let _ ← advance
        lineEnd
        return ⟨text, name.span⟩
    | _ => failAt (.packageNameNotIdentifier name.describe) name.span

/-- Characters that an import path may not have besides white space and control characters. -/
def forbiddenInPath : List Char := "!\"#$%&'()*,:;<=>?[\\]^`\x7b|\x7d\uFFFD".toList

def isPathChar (c : Char) : Bool :=
  !Text.isBlank c && !Text.isControl c && !forbiddenInPath.contains c

/-- How an import with this first token binds its package, and whether that token is a part of
its own before the path. -/
def bindingOf : TokenKind → ImportBinding
  | .punctuation .dot => .dot
  | .ident name => if name = "_" then .blank else .named name
  | _ => .default

def importPath : Parser (Spanned String) := do
  let token ← peek
  match token.kind with
  | .string path =>
    let _ ← advance
    if path = "" then failAt .emptyImportPath token.span
    else
      match path.toList.find? (!isPathChar ·) with
      | some bad => failAt (.invalidImportPath path bad) token.span
      | none => return ⟨path, token.span⟩
  | _ => failAt (.importNotString token.describe) token.span

def importSpec : Parser (Spanned Import) := do
  let first ← peek
  let binding := bindingOf first.kind
  if binding ≠ .default then
    let _ ← advance
  let path ← importPath
  return ⟨⟨path.value, binding⟩, first.span.merge path.span⟩

/-- `import spec` or `import (spec; spec; ...)`. -/
def importDeclaration : Parser (List (Spanned Import)) := do
  let _ ← advance
  let specs ← oneOrMany importSpec
  lineEnd
  return specs

/-- The receiver of a method after its opening parenthesis at `opener`: gives the last identifier
outside brackets, which names the receiver type. -/
def receiverBase (opener : Span) (base : Option String) (s : Stream) : Reply (Option String) :=
  match s with
  | ⟨[], _⟩ => .fail ⟨.unclosed Delimiter.paren.opener, opener⟩ 0
  | ⟨token :: rest, finish⟩ =>
    match token.kind with
    | .punctuation (.closing .paren) => .ok base 1
    | .punctuation (.opening .bracket) =>
      match closeGroups ⟨.bracket, token.span⟩ [] rest with
      | .ok _ used => (receiverBase opener base ⟨rest.drop used, finish⟩).after (1 + used)
      | .fail finding used => .fail finding (1 + used)
    | .ident name => (receiverBase opener (some name) ⟨rest, finish⟩).after 1
    | .punctuation .semicolon | .punctuation (.opening .brace) =>
      unexpected "')' closing the receiver" s
    | _ => (receiverBase opener base ⟨rest, finish⟩).after 1
termination_by s.tokens.length

/-- The parenthesised receiver of a method; gives the name of its type. -/
def receiver : Parser String := fun s =>
  let opener := s.current.span
  match (do let _ ← advance; receiverBase opener none : Parser (Option String)) s with
  | .ok (some base) used => .ok base used
  | .ok none used => .fail ⟨.unexpected "receiver type" "')'", s.covered used⟩ used
  | .fail finding used => .fail finding used

/-- `func [receiver] name signature [body]`. -/
def function : Parser Declaration := do
  let _ ← advance
  let type ← if ← atSign (.opening .paren) then some <$> receiver else pure none
  let name ← identifier "function name"
  if !(← atSign (.opening .paren)) && !(← atSign (.opening .bracket)) then
    unexpected "'(' after function name"
  else
    tail true
    let hasBody ← atSign (.opening .brace)
    if hasBody then
      let _ ← group
    return .func name type hasBody

/-- The names after the first of a list, each behind a comma. -/
def moreNames (s : Stream) : Reply (List (Spanned String)) :=
  match s with
  | ⟨⟨.punctuation .comma, _⟩ :: rest, finish⟩ =>
    match identifier "identifier" ⟨rest, finish⟩ with
    | .ok name used =>
      ((moreNames ⟨rest.drop used, finish⟩).map (name :: ·)).after (1 + used)
    | .fail finding used => .fail finding (1 + used)
  | _ => .ok [] 0
termination_by s.tokens.length

def nameList : Parser (List (Spanned String)) := do
  let first ← identifier "identifier"
  return first :: (← moreNames)

/-- One entry of a `var`, `const` or `type` declaration. Only a closing parenthesis may stand
right behind it. -/
def groupEntry (kind : GroupKind) : Parser (List (Spanned String)) := do
  let names ← if kind = .type then List.singleton <$> identifier "type name" else nameList
  tail false
  if (← atSign (.closing .bracket)) || (← atSign (.closing .brace)) then
    unexpected "';' or newline"
  else
    return names

/-- A `var`, `const` or `type` declaration with one entry or a parenthesised list of them. -/
def nameGroup (kind : GroupKind) : Parser Declaration := do
  let _ ← advance
  return .group kind (← oneOrMany (groupEntry kind)).flatten

def declarationOf : Keyword → Parser Declaration
  | .funcKw => function
  | .varKw => nameGroup .var
  | .constKw => nameGroup .const
  | .typeKw => nameGroup .type
  | _ => unexpected "declaration"

/-- A top-level declaration and the line end after it; its span does not cover the line end. -/
def declaration : Parser (Spanned Declaration) := fun s =>
  match s.current.kind with
  | .keyword word =>
    match declarationOf word s with
    | .ok value used =>
      ((lineEnd (s.drop used)).map fun _ => ⟨value, s.covered used⟩).after used
    | .fail finding used => .fail finding used
  | _ => unexpected "declaration" s

end GoFront.Parser
