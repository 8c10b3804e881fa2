import GoFront.Frontend
import GoFront.Proofs.Parser.Tracing

/-!
Findings of the parser come in the order of the text. Each one stands at tokens that were looked at,
and recovery takes at least one token more, so the next one starts behind it.
-/
namespace GoFront

open Lexer

/-! ### Streams in the order of their text -/

namespace Stream

/-- The tokens stand in the order of the text, which ends where the stream does. -/
structure InOrder (s : Stream) (stop : Nat) : Prop where
  ordered : Ordered 0 stop s.tokens
  finish : s.finish = ⟨stop, stop⟩

variable {s : Stream} {stop : Nat}

theorem current_mem (nonempty : s.tokens ≠ []) : s.current ∈ s.tokens := by
  obtain ⟨tokens, finish⟩ := s
  cases tokens with
  | nil => exact absurd rfl nonempty
  | cons token rest => exact List.mem_cons_self

theorem current_cases (s : Stream) : s.current ∈ s.tokens ∨ s.current = ⟨.eof, s.finish⟩ := by
  by_cases isEnd : s.tokens = []
  · exact .inr (by simp [Stream.current, isEnd])
  · exact .inl (current_mem isEnd)

namespace InOrder

theorem drop (inOrder : s.InOrder stop) (n : Nat) : (s.drop n).InOrder stop :=
  ⟨inOrder.ordered.sublist (List.drop_sublist n _), inOrder.finish⟩

theorem current_bounded (inOrder : s.InOrder stop) :
    s.current.span.start ≤ s.current.span.stop ∧ s.current.span.stop ≤ stop := by
  rcases s.current_cases with mem | isEnd
  · exact (inOrder.ordered.bounded _ mem).2
  · simp [isEnd, inOrder.finish]

theorem current_before (inOrder : s.InOrder stop) {token : Token} {n : Nat} (positive : 0 < n)
    (mem : token ∈ s.tokens.drop n) : s.current.span.start < token.span.start := by
  obtain ⟨tokens, finish⟩ := s
  cases tokens with
  | nil => simp at mem
  | cons first rest =>
    rw [← Parser.drop_pred positive] at mem
    exact ((List.pairwise_cons.mp inOrder.ordered.increasing).1 token (List.mem_of_mem_drop mem)).1

theorem current_le (inOrder : s.InOrder stop) (n : Nat) :
    s.current.span.start ≤ (s.drop n).current.span.start := by
  obtain ⟨forward, within⟩ := inOrder.current_bounded
  rcases Nat.eq_zero_or_pos n with rfl | positive
  · exact le_rfl
  rcases (s.drop n).current_cases with mem | isEnd
  · exact (inOrder.current_before positive mem).le
  · rw [isEnd]
    simp only [Stream.drop, inOrder.finish]
    omega

end InOrder

/-- A span that the stream covers lies within the text, and starts before the tokens behind it. -/
theorem Covers.bounds {n : Nat} {span : Span} (covers : s.Covers n span)
    (inOrder : s.InOrder stop) :
    span.start ≤ span.stop ∧ span.stop ≤ stop ∧ s.current.span.start ≤ span.start ∧
      ∀ token ∈ s.tokens.drop (n + 1), span.start < token.span.start := by
  obtain ⟨i, j, order, within, rfl⟩ := covers
  have first := (inOrder.drop i).current_bounded
  have last := (inOrder.drop j).current_bounded
  have := inOrder.current_le i
  have := inOrder.current_le j
  refine ⟨?_, ?_, ?_, fun token mem => ?_⟩
  · simp only [Span.merge]; omega
  · simp only [Span.merge]; omega
  · simp only [Span.merge]; omega
  · have behind : token ∈ (s.drop i).tokens.drop (n + 1 - i) := by
      rwa [Stream.drop, List.drop_drop, Nat.add_sub_cancel' (by omega)]
    have := (inOrder.drop i).current_before (by omega) behind
    simp only [Span.merge]; omega

end Stream

/-! ### Findings in the order of the tokens -/

namespace Parser

/-- The findings stand among the tokens, one behind the other. -/
structure Reported (s : Stream) (stop : Nat) (found : List Finding) : Prop where
  bounded : ∀ finding ∈ found, finding.span.start ≤ finding.span.stop ∧ finding.span.stop ≤ stop
  behind : ∀ finding ∈ found, s.tokens ≠ [] ∧ s.current.span.start ≤ finding.span.start
  increasing : found.Pairwise fun earlier later => earlier.span.start < later.span.start

namespace Reported

variable {s : Stream} {stop : Nat} {found : List Finding}

theorem nil : Reported s stop [] := ⟨by simp, by simp, .nil⟩

theorem skipped {n : Nat} (inOrder : s.InOrder stop) (reported : Reported (s.drop n) stop found) :
    Reported s stop found := by
  refine ⟨reported.bounded, fun finding mem => ?_, reported.increasing⟩
  obtain ⟨nonempty, later⟩ := reported.behind finding mem
  refine ⟨fun isEnd => nonempty ?_, (inOrder.current_le n).trans later⟩
  simp [Stream.drop, isEnd]

/-- A finding among the first tokens, and those behind the tokens that are skipped after it. -/
theorem cons {finding : Finding} {used n : Nat} (nonempty : s.tokens ≠ [])
    (inOrder : s.InOrder stop) (covers : s.Covers used finding.span)
    (moves : used < n ∨ s.tokens.drop n = []) (reported : Reported (s.drop n) stop found) :
    Reported s stop (finding :: found) := by
  obtain ⟨forward, within, begins, before⟩ := covers.bounds inOrder
  have later := reported.skipped inOrder
  refine ⟨List.forall_mem_cons.mpr ⟨⟨forward, within⟩, reported.bounded⟩,
    List.forall_mem_cons.mpr ⟨⟨nonempty, begins⟩, later.behind⟩,
    .cons (fun other mem => ?_) reported.increasing⟩
  obtain ⟨notEnd, isLater⟩ := reported.behind other mem
  rcases moves with moves | isEnd
  · have isToken : (s.drop n).current ∈ s.tokens.drop (used + 1) :=
      (List.drop_sublist_drop_left s.tokens moves).mem (Stream.current_mem notEnd)
    exact (before _ isToken).trans_le isLater
  · exact absurd isEnd notEnd

end Reported

theorem recovery_pos (depth : Nat) {tokens : List Token} (nonempty : tokens ≠ []) :
    0 < recovery depth tokens := by
  obtain ⟨token, rest, rfl⟩ := List.exists_cons_of_ne_nil nonempty
  unfold recovery
  split
  · omega
  · omega
  · split <;> omega
  · omega

/-- A finding among the first tokens, and those behind the tokens that recovery skips. -/
theorem Reported.recovered {s : Stream} {stop used n : Nat} {finding : Finding}
    {found : List Finding} (nonempty : s.tokens ≠ []) (inOrder : s.InOrder stop)
    (covers : s.Covers used finding.span) (within : used ≤ n)
    (reported : Reported (s.drop (n + recovery 0 (s.tokens.drop n))) stop found) :
    Reported s stop (finding :: found) := by
  refine .cons nonempty inOrder covers ?_ reported
  -- behind the last token recovery takes nothing, but then nothing is left to report
  by_cases isEnd : s.tokens.drop n = []
  · right
    rw [← List.drop_drop, isEnd, List.drop_nil]
  · left
    have := recovery_pos 0 isEnd
    omega

/-! ### Sections -/

theorem covers_of_traced {α : Type} {reads : List Token → α → Prop} {s : Stream}
    {finding : Finding} {used : Nat}
    (traced : (Reply.fail finding used : Reply α).Traced [] reads s) :
    s.Covers used finding.span := by
  cases traced with
  | fail _ place => exact place.resolve_left List.not_mem_nil

theorem reported_declarationSection {finish : Span} {stop : Nat} (tokens : List Token)
    (inOrder : Stream.InOrder ⟨tokens, finish⟩ stop) :
    Reported ⟨tokens, finish⟩ stop (declarationSection finish tokens).findings := by
  fun_induction declarationSection finish tokens with
  | case1 => exact .nil
  | case2 token rest _ ih => exact (ih (inOrder.drop 1)).skipped (n := 1) inOrder
  | case3 token rest _ reply value used parsed later ih =>
    exact (ih (inOrder.drop (used - 1 + 1))).skipped (n := used - 1 + 1) inOrder
  | case4 token rest _ reply finding used failed skipped later ih =>
    have traced : reply.Traced [] (Leading IsDeclaration) ⟨token :: rest, finish⟩ := by
      simp only [reply]
      split_ifs with isImport
      · exact .fail (Nat.zero_le _) (.inr (Stream.covers_current _ 0))
      · exact traced_declaration _
    rw [failed] at traced
    have positive : 0 < skipped := by
      rcases Nat.eq_zero_or_pos used with rfl | positive
      · exact Nat.add_pos_right _ (recovery_pos 0 (List.cons_ne_nil token rest))
      · exact Nat.add_pos_left positive _
    have isRest : (⟨rest.drop (skipped - 1), finish⟩ : Stream) =
        Stream.drop skipped ⟨token :: rest, finish⟩ :=
      congrArg (Stream.mk · finish) (drop_pred positive token rest)
    rw [isRest] at ih
    exact .recovered (List.cons_ne_nil token rest) inOrder (covers_of_traced traced) le_rfl
      (ih (inOrder.drop skipped))

/-- The findings of the import section, and those behind it. -/
theorem reported_importSection {finish : Span} {stop : Nat} {found : List Finding}
    (tokens : List Token) (inOrder : Stream.InOrder ⟨tokens, finish⟩ stop)
    (reported : Reported ⟨(importSection finish tokens).rest, finish⟩ stop found) :
    Reported ⟨tokens, finish⟩ stop ((importSection finish tokens).findings ++ found) := by
  fun_induction importSection finish tokens with
  | case1 => exact reported
  | case2 token rest _ ih => exact (ih (inOrder.drop 1) reported).skipped (n := 1) inOrder
  | case3 token rest _ _ specs used parsed later ih =>
    exact (ih (inOrder.drop (used - 1 + 1)) reported).skipped (n := used - 1 + 1) inOrder
  | case4 token rest _ isImport finding used failed tokens later ih =>
    have traced := traced_importDeclaration ⟨token :: rest, finish⟩
    rw [failed] at traced
    have isRest : (⟨tokens.drop (recovery 0 tokens), finish⟩ : Stream) =
        Stream.drop (used - 1 + 1 + recovery 0 tokens) ⟨token :: rest, finish⟩ := by
      rw [← Stream.drop_drop]
      rfl
    rw [isRest] at ih
    exact .recovered (List.cons_ne_nil token rest) inOrder (covers_of_traced traced) (by omega)
      (ih (inOrder.drop _) reported)
  | case5 token rest => exact reported

theorem rest_sublist_importSection (finish : Span) (tokens : List Token) :
    (importSection finish tokens).rest.Sublist tokens := by
  fun_induction importSection finish tokens with
  | case1 => exact List.Sublist.refl _
  | case2 token rest _ ih => exact ih.cons token
  | case3 token rest _ _ specs used parsed later ih =>
    exact (ih.trans (List.drop_sublist _ rest)).cons token
  | case4 token rest _ _ finding used failed tokens later ih =>
    exact ((ih.trans (List.drop_sublist _ tokens)).trans (List.drop_sublist _ rest)).cons token
  | case5 token rest => exact List.Sublist.refl _

/-! ### Files -/

theorem reported_parseStream {s : Stream} {stop : Nat} {lines : LineIndex} {found : List Finding}
    (inOrder : s.InOrder stop) (refused : parseStream s lines = .error found) :
    found ≠ [] ∧
      (∀ finding ∈ found, finding.span.start ≤ finding.span.stop ∧ finding.span.stop ≤ stop) ∧
      found.Pairwise fun earlier later => earlier.span.start < later.span.start := by
  have traced := traced_packageClause s
  unfold parseStream at refused
  split at refused
  next finding used failed =>
    obtain rfl := Except.error.inj refused
    rw [failed] at traced
    obtain ⟨forward, within, -⟩ := (covers_of_traced traced).bounds inOrder
    exact ⟨by simp, by simpa using ⟨forward, within⟩, List.pairwise_singleton _ _⟩
  next package used isPackage =>
    dsimp only at refused
    split at refused
    next => simp at refused
    next findings notClean =>
      obtain rfl := Except.error.inj refused
      have imports := inOrder.drop used
      have declarations : Stream.InOrder ⟨_, s.finish⟩ stop :=
        ⟨imports.ordered.sublist (rest_sublist_importSection s.finish _), inOrder.finish⟩
      have reported := reported_importSection _ imports (reported_declarationSection _ declarations)
      exact ⟨notClean, reported.bounded, reported.increasing⟩

/-- The findings stand in the text, in its order and without repeats, and the first of them is the
one that is shown. -/
structure InTextOrder (source : String) (found : List Finding) : Prop where
  nonempty : found ≠ []
  bounded : ∀ finding ∈ found, finding.span.start ≤ finding.span.stop ∧
    finding.span.stop ≤ source.utf8ByteSize
  increasing : found.Pairwise fun earlier later => earlier.span.start < later.span.start
  distinct : (found.map (·.span)).Nodup
  leftmost : ∀ first ∈ found.head?, ∀ finding ∈ found, first.span.start ≤ finding.span.start
  shown : ∀ first ∈ found.head?, ∀ name, Frontend.parseText name source =
    .error (.ofDiagnostic name (.ofSource source) first.diagnostic)
  compiled : ∀ first ∈ found.head?, ∀ name tree locator, Tree.read tree name = .ok source →
    (Frontend.ofTree tree locator).parse name =
      .error (.refused (.ofDiagnostic name (.ofSource source) first.diagnostic))

theorem parseSource_findings_ordered {source : String} {tokens : List Token}
    {found : List Finding} (lexed : lex source = .ok tokens)
    (refused : parseSource source = .error found) : InTextOrder source found := by
  obtain ⟨front, -, ordered, isParse⟩ := parseSource_of_lex lexed
  have inOrder : Stream.InOrder ⟨front, _⟩ source.utf8ByteSize := ⟨ordered, rfl⟩
  obtain ⟨nonempty, bounded, increasing⟩ := reported_parseStream inOrder (isParse ▸ refused)
  obtain ⟨first, later, rfl⟩ := List.exists_cons_of_ne_nil nonempty
  have shown : ∀ name, Frontend.parseText name source =
      .error (.ofDiagnostic name (.ofSource source) first.diagnostic) := by
    intro name
    rw [Frontend.parseText, refused]
  refine ⟨nonempty, bounded, increasing, ?_, ?_, ?_, ?_⟩
  · refine List.pairwise_map.mpr (increasing.imp fun before same => ?_)
    exact before.ne (congrArg Span.start same)
  · rintro _ ⟨⟩
    refine List.forall_mem_cons.mpr ⟨le_rfl, fun finding mem => ?_⟩
    exact ((List.pairwise_cons.mp increasing).1 finding mem).le
  · rintro _ ⟨⟩
    exact shown
  · rintro _ ⟨⟩ name tree locator isRead
    simp only [Frontend.ofTree, isRead, shown, Except.mapError]

/-- A path that was taken, a whole receiver, the current token and an opener far back. -/
theorem parseSource_findings_ordered_sites :
    ∃ tokens found,
      lex "package p\nimport \"a b\"\n\nfunc (*) f()\n\nvar x = 1]\n\ntype T [\n" = .ok tokens ∧
      parseSource "package p\nimport \"a b\"\n\nfunc (*) f()\n\nvar x = 1]\n\ntype T [\n" =
        .error found ∧
      found.map (·.span) = [⟨17, 22⟩, ⟨29, 32⟩, ⟨47, 48⟩, ⟨57, 58⟩] ∧
      InTextOrder "package p\nimport \"a b\"\n\nfunc (*) f()\n\nvar x = 1]\n\ntype T [\n"
        found := by
  generalize isSource :
    "package p\nimport \"a b\"\n\nfunc (*) f()\n\nvar x = 1]\n\ntype T [\n" = source
  have lexes : (lex source).toOption.isSome = true := by
    rw [← isSource]
    decide +kernel
  have spans : (match parseSource source with
      | .ok _ => none
      | .error found => some (found.map (·.span))) =
        some [⟨17, 22⟩, ⟨29, 32⟩, ⟨47, 48⟩, ⟨57, 58⟩] := by
    rw [← isSource]
    decide +kernel
  cases lexed : lex source with
  | error found => simp [lexed, Except.toOption] at lexes
  | ok tokens =>
    cases refused : parseSource source with
    | ok file => simp [refused] at spans
    | error found =>
      rw [refused] at spans
      exact ⟨tokens, found, rfl, rfl, Option.some.inj spans,
        parseSource_findings_ordered lexed refused⟩

end Parser

end GoFront
