import GoFront.Proofs.Parser.Findings
import GoFront.Proofs.Parser.Walk.Grammar

/-!
Whole files. The loops over imports and declarations take tokens in every turn, if not by a
declaration then by recovery, so a walk ends; and since it follows the parser, it never looks behind
the first end of the file.
-/
namespace GoFront

namespace Parser

/-- Recovery ends where a declaration starts, or at the end. -/
theorem recovery_lands (depth : Nat) (tokens : List Token) :
    recovery.declares (tokens.drop (recovery depth tokens)) = true ∨
      tokens.drop (recovery depth tokens) = [] := by
  fun_induction recovery depth tokens with
  | case1 => exact .inr rfl
  | case4 => simp_all
  | _ =>
    rw [Nat.add_comm 1, List.drop_succ_cons]
    assumption

theorem importDeclaration_pos (token : Token) (rest : List Token) (finish : Span) :
    0 < (importDeclaration ⟨token :: rest, finish⟩).used := by
  change 0 < (Reply.after (min 1 (rest.length + 1)) _).used
  rw [Reply.used_after]
  omega

end Parser

namespace Tape

variable {α β : Type} {tape : Tape} {place : Nat} {token : Token} {later : List Token}

theorem gives_attempt {walk : Walk α} {reply : Reply α} (gives : tape.Gives walk place reply) :
    tape.Gives (Walk.attempt walk) place (.ok reply.answer reply.used) := by
  intro covers reach
  obtain ⟨last, lastWithin, coversLast, walked⟩ := gives covers reach
  exact ⟨last, lastWithin, coversLast, by rw [Walk.attempt, walked]; rfl⟩

theorem recovered_start (depth place : Nat) :
    (tape.stream (place + Parser.recovery depth (tape.body.drop place))).startsWith .semicolon =
      false := by
  have lands := Parser.recovery_lands depth (tape.body.drop place)
  rw [List.drop_drop] at lands
  generalize place + Parser.recovery depth (tape.body.drop place) = landed at lands ⊢
  cases here : tape.body.drop landed with
  | nil => exact startsWith_nil here _
  | cons token later =>
    rw [here] at lands
    have declares : Parser.recovery.declares (token :: later) = true := by simpa using lands
    obtain ⟨kind, span⟩ := token
    cases kind with
    | keyword word => simp [startsWith_eq here]
    | _ => cases declares

namespace Gives

variable {walk : Walk α} {next : α → Walk β} {value : α} {found : β} {n : Nat}

theorem returning (gives : tape.Gives walk place (.ok value n))
    (returns : next value = Pure.pure found) :
    tape.Gives (walk >>= next) place (.ok found n) := by
  change tape.Gives _ place ((Reply.ok found 0).after n)
  exact gives.andThen (returns ▸ .pure)

end Gives

/-- The walk reads this import section at the place, up to the rest of the tokens. -/
def ReadsImports (tape : Tape) (place : Nat) (found : Parser.ImportSection) : Prop :=
  ∃ n, found.rest = tape.body.drop (place + n) ∧
    (tape.stream (place + n)).startsWith .semicolon = false ∧
    tape.Gives Walk.importSection place (.ok (found.imports, found.findings) n)

/-- One turn of the loop over imports, the semicolons behind it and the rest of the section. -/
theorem ReadsImports.turn {used : Nat} {found rest : Parser.ImportSection}
    (reads : tape.ReadsImports (place + used + tape.semicolons (place + used)) rest)
    (isRest : found.rest = rest.rest)
    (walks : ∀ n,
      tape.Gives Walk.importSection (place + used + tape.semicolons (place + used))
        (.ok (rest.imports, rest.findings) n) →
      tape.Gives Walk.importSection place (((Reply.ok (found.imports, found.findings) n).after
        (tape.semicolons (place + used))).after used)) :
    tape.ReadsImports place found := by
  obtain ⟨n, isLater, ends, gives⟩ := reads
  rw [Nat.add_assoc, Nat.add_assoc] at isLater ends
  exact ⟨_, isRest.trans isLater, ends, walks n gives⟩

theorem readsImports (tape : Tape) (place : Nat) :
    tape.ReadsImports (place + tape.semicolons place)
      (Parser.importSection tape.finish (tape.body.drop place)) := by
  induction place using tape.place_induction with
  | @nil place here =>
    rw [semicolons_nil here, here, Parser.importSection]
    exact ⟨0, here.symm, startsWith_nil here _, .loop fun _ _ => .peek_nil here .pure⟩
  | @cons place token later here ih =>
    have further {used : Nat} (positive : 0 < used) :
        tape.ReadsImports (place + used + tape.semicolons (place + used))
          (Parser.importSection tape.finish (later.drop (used - 1))) := by
      have reads := ih (used - 1)
      rwa [drop_behind here, Nat.add_sub_cancel' positive] at reads
    rw [here, Parser.importSection.eq_def]
    dsimp only
    by_cases semicolon : token.kind = .punctuation .semicolon
    · rw [if_pos semicolon, semicolons_cons here semicolon, ← Nat.add_assoc]
      exact further Nat.one_pos
    have starts : (tape.stream place).startsWith .semicolon = false := by
      simp [startsWith_eq here, semicolon]
    rw [if_neg semicolon, semicolons_other starts, Nat.add_zero]
    split_ifs with isImport
    · have spec : tape.Gives _ place _ := gives_attempt (follows_importDeclaration place)
      have positive := Parser.importDeclaration_pos token later tape.finish
      rw [stream_cons here] at spec
      split
      next specs used parsed =>
        rw [parsed] at spec positive
        refine (further positive).turn rfl fun n gives =>
          .loop fun again goes => .peek_cons here ?_
        rw [if_pos isImport]
        exact spec.andThen (.skip ((goes () (by omega) gives).returning rfl))
      next finding used failed =>
        rw [failed] at spec positive
        rw [Reply.used] at positive
        have recovers : tape.Gives (Walk.recover 0) (place + used) _ := gives_recover 0 _
        rw [← List.drop_drop, here, ← Parser.drop_pred positive] at recovers
        generalize Parser.recovery 0 (later.drop (used - 1)) = skipped at *
        rw [List.drop_drop, ← Nat.sub_add_comm positive]
        refine (further (Nat.add_pos_left positive skipped)).turn rfl fun n gives =>
          .loop fun again goes => .peek_cons here ?_
        rw [← Nat.add_assoc place] at gives ⊢
        rw [if_pos isImport, ← Reply.after_after]
        exact spec.andThen (recovers.andThen (.skip ((goes () (by omega) gives).returning rfl)))
    · refine ⟨0, here.symm, starts, .loop fun _ _ => .peek_cons here ?_⟩
      rw [if_neg isImport]
      exact .pure

/-- The walk reads these declarations at the place, up to the end. -/
def ReadsDeclarations (tape : Tape) (place : Nat) (found : Parser.DeclarationSection) : Prop :=
  ∃ n, tape.Gives Walk.declarationSection place (.ok (found.declarations, found.findings) n)

section

variable (here : tape.body.drop place = token :: later)
  (noSemicolon : token.kind ≠ .punctuation .semicolon)
  (further : ∀ {used}, 0 < used →
    tape.ReadsDeclarations (place + used + tape.semicolons (place + used))
      (Parser.declarationSection tape.finish (later.drop (used - 1))))

include here noSemicolon further

/-- An import among the declarations is passed over by recovery alone. -/
theorem readsDeclarations_import (isImport : token.kind = .keyword .importKw) :
    tape.ReadsDeclarations place (Parser.declarationSection tape.finish (token :: later)) := by
  have recovers : tape.Gives (Walk.recover 0) place _ := gives_recover 0 _
  have lands : (tape.stream _).startsWith .semicolon = false := recovered_start 0 place
  have moves := Parser.recovery_pos 0 (List.cons_ne_nil token later)
  rw [here] at recovers lands
  rw [Parser.declarationSection.eq_def]
  dsimp only
  rw [if_neg noSemicolon, if_pos isImport]
  dsimp only
  rw [Nat.zero_add, List.drop_zero]
  generalize Parser.recovery 0 (token :: later) = skipped at *
  obtain ⟨n, gives⟩ := further moves
  rw [semicolons_other lands, Nat.add_zero] at gives
  refine ⟨skipped + n, .loop fun again goes => .of_covers fun covers => .peek_cons here ?_⟩
  rw [if_neg (notEnd covers here), if_pos isImport]
  change tape.Gives _ place ((Reply.ok _ n).after skipped)
  exact recovers.andThen ((goes () (by omega) gives).returning rfl)

/-- A declaration is kept, or reported and passed over by recovery. Both take a token. -/
theorem readsDeclarations_declaration (noImport : token.kind ≠ .keyword .importKw) :
    tape.ReadsDeclarations place (Parser.declarationSection tape.finish (token :: later)) := by
  have first : tape.Gives _ place _ := gives_attempt (follows_declaration place)
  rw [stream_cons here] at first
  rw [Parser.declarationSection.eq_def]
  dsimp only
  rw [if_neg noSemicolon, if_neg noImport]
  split
  next value used parsed =>
    obtain ⟨-, -, positive⟩ := Parser.outlined_declaration parsed
    obtain ⟨n, gives⟩ := further positive
    rw [parsed] at first
    refine ⟨used + (tape.semicolons (place + used) + n),
      .loop fun again goes => .of_covers fun covers => .peek_cons here ?_⟩
    rw [if_neg (notEnd covers here), if_neg noImport]
    change tape.Gives _ place (((Reply.ok _ n).after _).after used)
    exact first.andThen (.skip ((goes () (by omega) gives).returning rfl))
  next finding used failed =>
    have recovers : tape.Gives (Walk.recover 0) (place + used) _ := gives_recover 0 _
    -- A declaration may fail before it takes a token. Then recovery takes the first one.
    have moves := Parser.recovery_pos 0 (List.cons_ne_nil token later)
    have positive : 0 < used + Parser.recovery 0 ((token :: later).drop used) := by
      rcases Nat.eq_zero_or_pos used with rfl | positive
      · simpa using moves
      · omega
    rw [failed] at first
    rw [← List.drop_drop, here] at recovers
    generalize Parser.recovery 0 ((token :: later).drop used) = skipped at *
    obtain ⟨n, gives⟩ := further positive
    rw [← Nat.add_assoc place] at gives
    refine ⟨used + (skipped + (tape.semicolons (place + used + skipped) + n)),
      .loop fun again goes => .of_covers fun covers => .peek_cons here ?_⟩
    rw [if_neg (notEnd covers here), if_neg noImport]
    change tape.Gives _ place ((((Reply.ok _ n).after _).after skipped).after used)
    exact first.andThen (recovers.andThen (.skip ((goes () (by omega) gives).returning rfl)))

end

theorem readsDeclarations (tape : Tape) (place : Nat) :
    tape.ReadsDeclarations (place + tape.semicolons place)
      (Parser.declarationSection tape.finish (tape.body.drop place)) := by
  induction place using tape.place_induction with
  | @nil place here =>
    rw [semicolons_nil here, here, Parser.declarationSection]
    exact ⟨0, .loop fun _ _ => .peek_nil here .pure⟩
  | @cons place token later here ih =>
    have further {used : Nat} (positive : 0 < used) :
        tape.ReadsDeclarations (place + used + tape.semicolons (place + used))
          (Parser.declarationSection tape.finish (later.drop (used - 1))) := by
      have reads := ih (used - 1)
      rwa [drop_behind here, Nat.add_sub_cancel' positive] at reads
    rw [here]
    by_cases semicolon : token.kind = .punctuation .semicolon
    · rw [Parser.declarationSection.eq_def, semicolons_cons here semicolon, ← Nat.add_assoc]
      dsimp only
      rw [if_pos semicolon]
      exact further Nat.one_pos
    · rw [semicolons_other (by simp [startsWith_eq here, semicolon]), Nat.add_zero]
      by_cases isImport : token.kind = .keyword .importKw
      · exact readsDeclarations_import here semicolon further isImport
      · exact readsDeclarations_declaration here semicolon further isImport

/-- The outline that is made of an answer: a fault that was thrown is the only one. -/
theorem gives_outline (tape : Tape) (lines : LineIndex) (place : Nat) :
    ∃ reply, tape.Gives (Walk.outline lines) place reply ∧
      Parser.parseStream (tape.stream place) lines =
        match reply.answer with
        | .ok outline => outline
        | .error finding => .error [finding] := by
  have clause : tape.Gives _ place _ := follows_packageClause place
  unfold Parser.parseStream
  cases parsed : Parser.packageClause (tape.stream place) with
  | fail finding used =>
    rw [parsed] at clause
    exact ⟨.fail finding used, clause.stop, rfl⟩
  | ok package used =>
    have dropped : (tape.stream place).tokens.drop used = tape.body.drop (place + used) :=
      List.drop_drop ..
    have isFinish : (tape.stream place).finish = tape.finish := rfl
    obtain ⟨n, isRest, starts, imports⟩ := tape.readsImports (place + used)
    have reads := tape.readsDeclarations (place + used + tape.semicolons (place + used) + n)
    rw [semicolons_other starts, ← isRest, Nat.add_zero] at reads
    obtain ⟨m, declarations⟩ := reads
    rw [parsed] at clause
    dsimp only
    rw [dropped, isFinish]
    generalize Parser.importSection tape.finish (tape.body.drop (place + used)) = front at *
    generalize Parser.declarationSection tape.finish front.rest = back at *
    refine ⟨.ok ?outline (used + (tape.semicolons (place + used) + (n + m))), ?gives, ?same⟩
    case same => rfl
    change tape.Gives _ place ((((Reply.ok _ m).after n).after _).after used)
    refine clause.andThen (.skip (imports.andThen (declarations.returning ?_)))
    dsimp only
    cases front.findings ++ back.findings <;> rfl

end Tape

/-! ### Token lists that end -/

/-- The walk ends with this outline and looks at no place from `stop` on. -/
def Walk.Answers (tokens : List Token) (lines : LineIndex) (stop : Nat)
    (outline : Except (List Finding) SourceFile) : Prop :=
  ∃ cursor, Walk.parse tokens lines = some (outline, cursor) ∧ cursor.reach ≤ stop

/-- A list that ends has a first end of the file. -/
theorem exists_first_end (before : List Token) (finish : Span) :
    ∃ body stop more, before ++ [⟨.eof, finish⟩] = body ++ ⟨.eof, stop⟩ :: more ∧
      ∀ token ∈ body, token.kind ≠ .eof := by
  induction before with
  | nil => exact ⟨[], finish, [], rfl, by simp⟩
  | cons token later ih =>
    obtain ⟨kind, span⟩ := token
    by_cases isEnd : kind = .eof
    · exact ⟨[], span, later ++ [⟨.eof, finish⟩], by simp [isEnd], by simp⟩
    · obtain ⟨body, stop, more, split, noEnd⟩ := ih
      exact ⟨⟨kind, span⟩ :: body, stop, more, by simp [split],
        List.forall_mem_cons.mpr ⟨isEnd, noEnd⟩⟩

section

variable {body : List Token} (noEnd : ∀ token ∈ body, token.kind ≠ .eof) (stop : Span)
  (more : List Token) (lines : LineIndex)

include noEnd

theorem Stream.ofTokens_first_end :
    Stream.ofTokens (body ++ ⟨.eof, stop⟩ :: more) = ⟨body, stop⟩ := by
  have before : (body ++ ⟨.eof, stop⟩ :: more).takeWhile (·.kind ≠ .eof) = body := by
    rw [List.takeWhile_append_of_pos (by simpa using noEnd)]
    simp
  simp only [Stream.ofTokens, before, List.drop_left]

theorem findIdx_first_end :
    (body ++ ⟨.eof, stop⟩ :: more).findIdx (·.kind = .eof) = body.length := by
  have none : ¬∃ token ∈ body, token.kind = .eof :=
    fun ⟨token, mem, isEnd⟩ => noEnd token mem isEnd
  simp [List.findIdx_append, List.findIdx_cons, none]

theorem Walk.answers_first_end : Walk.Answers (body ++ ⟨.eof, stop⟩ :: more) lines (body.length + 1)
    (Parser.parseStream ⟨body, stop⟩ lines) := by
  let tape : Tape := ⟨body, 0, stop, more, noEnd⟩
  obtain ⟨reply, gives, isOutline⟩ := tape.gives_outline lines 0
  obtain ⟨reach, within, -, walked⟩ := gives ⟨le_rfl, Nat.zero_le _⟩ 0
  have nonempty : tape.tokens ≠ [] := by simp [Tape.tokens]
  refine ⟨⟨0 + reply.used, reach⟩, ?_, by simpa using within⟩
  change Walk.parse tape.tokens lines = some (Parser.parseStream (tape.stream 0) lines, _)
  rw [isOutline, Walk.parse, if_neg nonempty, walked]
  cases reply.answer <;> rfl

end

namespace Walk

/-- On tokens whose last one is the end of the file the walk ends, and each place it looks at is
that of the first end or one before it. With more tokens behind, the answer is the same and is that
of the parser. -/
theorem parse_first_end (before : List Token) (finish : Span) (rest : List Token)
    (lines : LineIndex) :
    let tokens : List Token := before ++ [⟨.eof, finish⟩]
    let firstEnd := tokens.findIdx (·.kind = .eof)
    firstEnd < tokens.length ∧
      Answers tokens lines (firstEnd + 1) (Parser.parse tokens lines) ∧
      Answers (tokens ++ rest) lines (firstEnd + 1) (Parser.parse tokens lines) ∧
      Parser.parse (tokens ++ rest) lines = Parser.parse tokens lines := by
  intro tokens firstEnd
  obtain ⟨body, stop, more, split, noEnd⟩ := exists_first_end before finish
  have isEnd : firstEnd = body.length := by
    simp only [firstEnd, tokens, split, findIdx_first_end noEnd]
  have whole : tokens ++ rest = body ++ ⟨.eof, stop⟩ :: (more ++ rest) := by simp [tokens, split]
  have parsed (more : List Token) : Parser.parse (body ++ ⟨.eof, stop⟩ :: more) lines =
      Parser.parseStream ⟨body, stop⟩ lines := by
    rw [Parser.parse, Stream.ofTokens_first_end noEnd]
  rw [isEnd, whole, show tokens = _ from split, parsed, parsed]
  exact ⟨by simp, answers_first_end noEnd .., answers_first_end noEnd .., rfl⟩

end Walk

end GoFront
