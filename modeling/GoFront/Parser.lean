import GoFront.Lexer
import GoFront.Parser.Declaration

/-!
From tokens to the outline of a file. A fault in the package clause ends the parse; after any other
fault the parser goes on at the next declaration, so that one run reports them all.
-/
namespace GoFront.Parser

/-- What the import section of a file gave, and the tokens after it. -/
structure ImportSection where
  imports : List (Spanned Import)
  findings : List Finding
  rest : List Token

/-- The imports before the first other declaration. -/
def importSection (finish : Span) : List Token → ImportSection
  | [] => ⟨[], [], []⟩
  | token :: rest =>
    if token.kind = .punctuation .semicolon then importSection finish rest
    else if token.kind = .keyword .importKw then
      match importDeclaration ⟨token :: rest, finish⟩ with
      | .ok specs used =>
        let later := importSection finish (rest.drop (used - 1))
        { later with imports := specs ++ later.imports }
      | .fail finding used =>
        let tokens := rest.drop (used - 1)
        let later := importSection finish (tokens.drop (recovery 0 tokens))
        { later with findings := finding :: later.findings }
    else ⟨[], [], token :: rest⟩
termination_by tokens => tokens.length

structure DeclarationSection where
  declarations : List (Spanned Declaration)
  findings : List Finding

/-- The declarations after the imports. An import here is a fault. -/
def declarationSection (finish : Span) : List Token → DeclarationSection
  | [] => ⟨[], []⟩
  | token :: rest =>
    if token.kind = .punctuation .semicolon then declarationSection finish rest
    else
      let reply :=
        if token.kind = .keyword .importKw then .fail ⟨.importAfterDeclaration, token.span⟩ 0
        else declaration ⟨token :: rest, finish⟩
      match reply with
      | .ok value used =>
        let later := declarationSection finish (rest.drop (used - 1))
        { later with declarations := value :: later.declarations }
      | .fail finding used =>
        let skipped := used + recovery 0 ((token :: rest).drop used)
        let later := declarationSection finish (rest.drop (skipped - 1))
        { later with findings := finding :: later.findings }
termination_by tokens => tokens.length

/-- The outline of a token stream, with the positions of its lines. -/
def parseStream (s : Stream) (lines : LineIndex) : Except (List Finding) SourceFile :=
  match packageClause s with
  | .fail finding _ => .error [finding]
  | .ok package used =>
    let imports := importSection s.finish (s.tokens.drop used)
    let declarations := declarationSection s.finish imports.rest
    match imports.findings ++ declarations.findings with
    | [] => .ok ⟨package, imports.imports, declarations.declarations, lines⟩
    | findings => .error findings

/-- The outline of a file given by its tokens, or all the faults in it. Nothing is read behind the
first end-of-file token. -/
def parse (tokens : List Token) (lines : LineIndex) : Except (List Finding) SourceFile :=
  parseStream (.ofTokens tokens) lines

/-- The outline of a source text, or all the faults of its tokens or of its grammar. -/
def parseSource (source : String) : Except (List Finding) SourceFile := do
  parse (← Lexer.lex source) (.ofSource source)

end GoFront.Parser
