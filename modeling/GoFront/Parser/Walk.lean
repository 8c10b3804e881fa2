import GoFront.Parser

/-!
The same grammar over the whole list of tokens, with whatever stands behind the end of the file. A
walk moves a cursor over the list and looks tokens up by their place. It has no answer if it looks
outside of the list, or if a loop goes on without coming nearer to the end of the list.
-/
namespace GoFront

/-- The place of the current token, and the number of places up to the last one looked at. -/
structure Cursor where
  place : Nat := 0
  reach : Nat := 0
  deriving DecidableEq, Repr

abbrev Walk (α : Type) : Type := ReaderT (List Token) (ExceptT Finding (StateT Cursor Option)) α

namespace Walk

variable {α : Type}

/-! ### Single tokens -/

/-- The token at a place. -/
def look (place : Nat) : Walk Token := fun tokens cursor =>
  match tokens[place]? with
  | some token => some (.ok token, { cursor with reach := max cursor.reach (place + 1) })
  | none => none

/-- The current token. Behind the last one this is the last one still. -/
def peek : Walk Token := do
  look (min (← get).place ((← read).length - 1))

/-- Takes the current token; the end of the file is never taken. -/
def advance : Walk Token := do
  let token ← peek
  if token.kind ≠ .eof then
    modify fun cursor => { cursor with place := cursor.place + 1 }
  return token

/-- The span of the token in front of the current one. -/
def previousSpan : Walk Span := do
  match (← get).place with
  | 0 => return (← peek).span
  | place + 1 => return (← look place).span

/-- A loop. A turn goes on with the next one from the place that it has reached. -/
def loop {σ : Type} (turn : (σ → Walk α) → σ → Walk α) (state : σ) : Walk α :=
  fun tokens cursor =>
    turn (fun next more reached =>
      if _h : more.length - reached.place < tokens.length - cursor.place then
        loop turn next more reached
      else none) state tokens cursor
termination_by tokens cursor => tokens.length - cursor.place

def failAt (fault : Fault) (span : Span) : Walk α := throw ⟨fault, span⟩

/-- Fails because the current token is not what the grammar wants. -/
def unexpected (expected : String) : Walk α := do
  let token ← peek
  failAt (.unexpected expected token.describe) token.span

def atSign (sign : Punctuation) : Walk Bool := return (← peek).kind = .punctuation sign

/-- Takes the current token if it is this sign. -/
def takeSign (sign : Punctuation) : Walk Bool := do
  if ← atSign sign then
    let _ ← advance
    return true
  else
    return false

def identifier (what : String) : Walk (Spanned String) := do
  let token ← peek
  match token.kind with
  | .ident name =>
    let _ ← advance
    return ⟨name, token.span⟩
  | _ => unexpected what

/-- Takes the semicolon that ends a declaration. Before a closing parenthesis and at the end of the
file it may be missing. -/
def lineEnd : Walk Unit := do
  if ← takeSign .semicolon then return
  else if ← atSign (.closing .paren) then return
  else if (← peek).kind = .eof then return
  else unexpected "';' or newline"

def skipSemicolons : Walk Unit :=
  loop (fun again _ => do if ← takeSign .semicolon then again ()) ()

/-! ### Skipping -/

/-- Skips to the closer of the outermost open group. `start` is the span of the first token skipped,
and the open groups stand in `stack`, the nearest first. -/
def closeGroups (start : Span) : List (Spanned Delimiter) → Walk Span :=
  loop fun again stack => do
    let token ← peek
    match token.kind with
    | .eof =>
      let inner := stack.headD ⟨.paren, start⟩
      failAt (.unclosed inner.value.opener) inner.span
    | .punctuation (.opening delimiter) =>
      let _ ← advance
      again (⟨delimiter, token.span⟩ :: stack)
    | .punctuation (.closing delimiter) =>
      match stack with
      | [] => unexpected "opening delimiter"
      | inner :: outer =>
        if delimiter = inner.value then
          let _ ← advance
          if outer = [] then return start.merge token.span else again outer
        else failAt (.mismatched inner.value.closer delimiter.closer) token.span
    | _ =>
      let _ ← advance
      if stack = [] then return start.merge token.span else again stack

/-- Skips the group that the current token opens and gives the span from opener to closer. -/
def group : Walk Span := do
  closeGroups (← peek).span []

/-- Skips the rest of a signature or declaration: up to a semicolon, a closer that belongs to
something around it, or the end. With `stopAtBrace` an opening brace ends it too, unless it
belongs to a struct or interface type. -/
def tail (stopAtBrace : Bool) : Walk Unit :=
  loop (fun again _ => do
    let token ← peek
    match token.kind with
    | .eof | .punctuation .semicolon | .punctuation (.closing _) => return
    | .punctuation (.opening delimiter) =>
      if stopAtBrace && delimiter = .brace then return
      else
        let _ ← group
        again ()
    | .keyword .structKw | .keyword .interfaceKw =>
      let _ ← advance
      if ← atSign (.opening .brace) then
        let _ ← group
        again ()
      else again ()
    | _ =>
      let _ ← advance
      again ()) ()

/-- Skips the tokens after a fault: up to and with a semicolon outside all groups that stands before
the keyword of a top-level declaration, or all of them. The loop counts the open groups. -/
def recover : Nat → Walk Unit :=
  loop fun again depth => do
    if (← peek).kind = .eof then return
    else
      match (← advance).kind with
      | .punctuation (.opening _) => again (depth + 1)
      | .punctuation (.closing _) => again (depth - 1)
      | .punctuation .semicolon =>
        if depth = 0 && Parser.recovery.declares [← peek] then return else again depth
      | _ => again depth

/-! ### Lists of items -/

/-- The items of a parenthesised list after its opener, whose span is `opener`. -/
def items (item : Walk α) (opener : Span) : Walk (List α) :=
  loop (fun again _ => do
    skipSemicolons
    if ← takeSign (.closing .paren) then return []
    else if (← peek).kind = .eof then failAt (.unclosed Delimiter.paren.opener) opener
    else
      let value ← item
      lineEnd
      return value :: (← again ())) ()

/-- One item, or a parenthesised list of items. -/
def oneOrMany (item : Walk α) : Walk (List α) := do
  if ← atSign (.opening .paren) then
    let opener ← advance
    items item opener.span
  else
    return [← item]

/-! ### The package clause and the imports -/

def packageClause : Walk (Spanned String) := do
  skipSemicolons
  let token ← peek
  if token.kind ≠ .keyword .packageKw then
    failAt .missingPackageClause token.span
  else
    let _ ← advance
    let name ← peek
    match name.kind with
    | .ident text =>
      if text = "_" then failAt (.packageNameNotIdentifier name.describe) name.span
      else
        let _ ← advance
        lineEnd
        return ⟨text, name.span⟩
    | _ => failAt (.packageNameNotIdentifier name.describe) name.span

def importPath : Walk (Spanned String) := do
  let token ← peek
  match token.kind with
  | .string path =>
    let _ ← advance
    if path = "" then failAt .emptyImportPath token.span
    else
      match path.toList.find? (!Parser.isPathChar ·) with
      | some bad => failAt (.invalidImportPath path bad) token.span
      | none => return ⟨path, token.span⟩
  | _ => failAt (.importNotString token.describe) token.span

def importSpec : Walk (Spanned Import) := do
  let first ← peek
  let binding := Parser.bindingOf first.kind
  if binding ≠ .default then
    let _ ← advance
  let path ← importPath
  return ⟨⟨path.value, binding⟩, first.span.merge path.span⟩

/-- `import spec` or `import (spec; spec; ...)`. -/
def importDeclaration : Walk (List (Spanned Import)) := do
  let _ ← advance
  let specs ← oneOrMany importSpec
  lineEnd
  return specs

/-! ### Declarations -/

/-- The receiver of a method after its opening parenthesis at `opener`: gives the last identifier
outside brackets, or the one given if there is none. -/
def receiverBase (opener : Span) : Option String → Walk (Option String) :=
  loop fun again base => do
    let token ← peek
    match token.kind with
    | .punctuation (.closing .paren) =>
      let _ ← advance
      return base
    | .punctuation (.opening .bracket) =>
      let _ ← group
      again base
    | .ident name =>
      let _ ← advance
      again (some name)
    | .eof => failAt (.unclosed Delimiter.paren.opener) opener
    | .punctuation .semicolon | .punctuation (.opening .brace) =>
      unexpected "')' closing the receiver"
    | _ =>
      let _ ← advance
      again base

/-- The parenthesised receiver of a method; gives the name of its type. -/
def receiver : Walk String := do
  let opener := (← peek).span
  let _ ← advance
  match ← receiverBase opener none with
  | some base => return base
  | none => failAt (.unexpected "receiver type" "')'") (opener.merge (← previousSpan))

/-- `func [receiver] name signature [body]`. -/
def function : Walk Declaration := do
  let _ ← advance
  let type ← if ← atSign (.opening .paren) then some <$> receiver else pure none
  let name ← identifier "function name"
  if !(← atSign (.opening .paren)) && !(← atSign (.opening .bracket)) then
    unexpected "'(' after function name"
  else
    tail true
    let hasBody ← atSign (.opening .brace)
    if hasBody then
      let _ ← group
    return .func name type hasBody

/-- The names after the first of a list, each behind a comma. -/
def moreNames : Walk (List (Spanned String)) :=
  loop (fun again _ => do
    if ← takeSign .comma then
      let name ← identifier "identifier"
      return name :: (← again ())
    else
      return []) ()

def nameList : Walk (List (Spanned String)) := do
  let first ← identifier "identifier"
  return first :: (← moreNames)

/-- One entry of a `var`, `const` or `type` declaration. Only a closing parenthesis may stand
right behind it. -/
def groupEntry (kind : GroupKind) : Walk (List (Spanned String)) := do
  let names ← if kind = .type then List.singleton <$> identifier "type name" else nameList
  tail false
  if (← atSign (.closing .bracket)) || (← atSign (.closing .brace)) then
    unexpected "';' or newline"
  else
    return names

/-- A `var`, `const` or `type` declaration with one entry or a parenthesised list of them. -/
def nameGroup (kind : GroupKind) : Walk Declaration := do
  let _ ← advance
  return .group kind (← oneOrMany (groupEntry kind)).flatten

def declarationOf : Keyword → Walk Declaration
  | .funcKw => function
  | .varKw => nameGroup .var
  | .constKw => nameGroup .const
  | .typeKw => nameGroup .type
  | _ => unexpected "declaration"

/-- A top-level declaration and the line end after it; its span does not cover the line end. -/
def declaration : Walk (Spanned Declaration) := do
  let start ← peek
  match start.kind with
  | .keyword word =>
    let value ← declarationOf word
    let span := start.span.merge (← previousSpan)
    lineEnd
    return ⟨value, span⟩
  | _ => unexpected "declaration"

/-! ### Files -/

/-- Gives a finding of the walk as its answer; the cursor stays where it was found. -/
def attempt (walk : Walk α) : Walk (Except Finding α) := fun tokens cursor =>
  (walk tokens cursor).map fun (answer, after) => (.ok answer, after)

/-- The imports before the first other declaration, and the findings in them. -/
def importSection : Walk (List (Spanned Import) × List Finding) :=
  loop (fun again _ => do
    if (← peek).kind = .keyword .importKw then
      match ← attempt importDeclaration with
      | .ok specs =>
        skipSemicolons
        let (imports, findings) ← again ()
        return (specs ++ imports, findings)
      | .error finding =>
        recover 0
        skipSemicolons
        let (imports, findings) ← again ()
        return (imports, finding :: findings)
    else
      return ([], [])) ()

/-- The declarations after the imports, and the findings in them. An import here is a fault. -/
def declarationSection : Walk (List (Spanned Declaration) × List Finding) :=
  loop (fun again _ => do
    let token ← peek
    if token.kind = .eof then
      return ([], [])
    else if token.kind = .keyword .importKw then
      recover 0
      let (declarations, findings) ← again ()
      return (declarations, ⟨.importAfterDeclaration, token.span⟩ :: findings)
    else
      match ← attempt declaration with
      | .ok value =>
        skipSemicolons
        let (declarations, findings) ← again ()
        return (value :: declarations, findings)
      | .error finding =>
        recover 0
        skipSemicolons
        let (declarations, findings) ← again ()
        return (declarations, finding :: findings)) ()

/-- The outline of a file. A fault in the package clause is thrown, all others are listed. -/
def outline (lines : LineIndex) : Walk (Except (List Finding) SourceFile) := do
  let package ← packageClause
  skipSemicolons
  let (imports, importFindings) ← importSection
  let (declarations, findings) ← declarationSection
  match importFindings ++ findings with
  | [] => return .ok ⟨package, imports, declarations, lines⟩
  | findings => return .error findings

/-- The outline of the file, or all the faults in it, and where the cursor comes to stand. -/
def parse (tokens : List Token) (lines : LineIndex) :
    Option (Except (List Finding) SourceFile × Cursor) :=
  if tokens = [] then some (.error [⟨.missingPackageClause, ⟨0, 0⟩⟩], {})
  else
    (outline lines tokens {}).map fun (answer, cursor) =>
      match answer with
      | .ok outline => (outline, cursor)
      | .error finding => (.error [finding], cursor)

end Walk

end GoFront
