import GoFront.Proofs.Lexer.LineEndings
import GoFront.Proofs.Parser.Outline

/-!
Line ends of two characters change neither the tokens of a file nor its outline, and every name
keeps its line and column: a column counts the bytes since the last line feed, and the carriage
returns stand before the line feeds.
-/
namespace GoFront

open Lexer

namespace LineIndex

theorem breaks_append (offset : Nat) (a b : List Char) :
    breaks offset (a ++ b) = breaks offset a ++ breaks (offset + Text.byteLength a) b := by
  induction a generalizing offset with
  | nil => rfl
  | cons c rest ih =>
    simp only [List.cons_append, breaks, ih, Text.byteLength_cons, Nat.add_assoc]
    split <;> rfl

theorem breaks_bounds {offset start : Nat} {text : List Char} (mem : start ∈ breaks offset text) :
    offset < start ∧ start ≤ offset + Text.byteLength text := by
  induction text generalizing offset with
  | nil => simp [breaks] at mem
  | cons c rest ih =>
    have size := c.utf8Size_pos
    rw [Text.byteLength_cons]
    simp only [breaks] at mem
    split at mem
    · rcases List.mem_cons.mp mem with rfl | later
      · omega
      · have := ih later
        omega
    · have := ih mem
      omega

/-- The position behind a front of the text depends on that front alone. -/
theorem position_front {front source : List Char} (isFront : front <+: source) :
    (ofChars source).position (Text.byteLength front) =
      ⟨(breaks 0 front).length + 1,
        Text.byteLength front - (breaks 0 front).getLastD 0 + 1⟩ := by
  obtain ⟨after, rfl⟩ := isFront
  have before : (0 :: breaks 0 (front ++ after)).takeWhile (· ≤ Text.byteLength front) =
      0 :: breaks 0 front := by
    have passes : ∀ start ∈ breaks 0 front, decide (start ≤ Text.byteLength front) = true := by
      intro start mem
      have := breaks_bounds mem
      exact decide_eq_true (by omega)
    have stops : (breaks (0 + Text.byteLength front) after).takeWhile
        (· ≤ Text.byteLength front) = [] := by
      cases later : breaks (0 + Text.byteLength front) after with
      | nil => rfl
      | cons start starts =>
        have := breaks_bounds (later ▸ List.mem_cons_self)
        exact List.takeWhile_cons_of_neg (by simp; omega)
    rw [List.takeWhile_cons_of_pos (by simp), breaks_append, List.takeWhile_append_of_pos passes,
      stops, List.append_nil]
  have within : min (Text.byteLength front) (Text.byteLength (front ++ after)) =
      Text.byteLength front := by
    rw [Text.byteLength_append]
    omega
  simp only [position, ofChars, within, before, List.length_cons, List.getLastD_cons]

/-- Carriage returns before the line feeds change neither the number of lines nor the length of the
last line. -/
theorem breaks_crlf (front : List Char) :
    (breaks 0 (crlf front)).length = (breaks 0 front).length ∧
      ∃ column, Text.byteLength front = (breaks 0 front).getLastD 0 + column ∧
        Text.byteLength (crlf front) = (breaks 0 (crlf front)).getLastD 0 + column := by
  induction front using List.reverseRecOn with
  | nil => exact ⟨rfl, 0, rfl, rfl⟩
  | append_singleton front c ih =>
    obtain ⟨lines, column, isColumn, isColumnToo⟩ := ih
    rw [crlf_append, breaks_append, breaks_append, Text.byteLength_append, Text.byteLength_append,
      List.length_append, List.length_append, lines]
    by_cases feed : c = '\n'
    · subst feed
      refine ⟨rfl, 0, ?_, ?_⟩
      · simp [breaks]
      · simp [breaks, crlf_feed, Nat.add_assoc]
    · have same : crlf [c] = [c] := by rw [crlf_cons feed, crlf_nil]
      have unbroken : ∀ offset, breaks offset [c] = [] := by simp [breaks, feed]
      refine ⟨by rw [same, unbroken, unbroken], column + c.utf8Size, ?_, ?_⟩
      · rw [unbroken, List.append_nil, isColumn, Nat.add_assoc]
        rfl
      · rw [same, unbroken, List.append_nil, isColumnToo, Nat.add_assoc]
        rfl

theorem position_crlf {front source : List Char} (isFront : front <+: source) :
    (ofChars (crlf source)).position (Text.byteLength (crlf front)) =
      (ofChars source).position (Text.byteLength front) := by
  obtain ⟨lines, column, isColumn, isColumnToo⟩ := breaks_crlf front
  rw [position_front isFront, position_front (crlf_front isFront), lines, isColumn, isColumnToo,
    Nat.add_sub_cancel_left, Nat.add_sub_cancel_left]

end LineIndex

theorem Text.byteLength_le {front text : List Char} (isFront : front <+: text) :
    byteLength front ≤ byteLength text := by
  obtain ⟨after, rfl⟩ := isFront
  rw [byteLength_append]
  omega

namespace Lexer.Aligned

variable {source : List Char} {a b a' b' : Span}

theorem merge (first : Aligned source a a') (second : Aligned source b b') :
    Aligned source (a.merge b) (a'.merge b') := by
  obtain ⟨front, isFront, start, start'⟩ := first
  obtain ⟨other, isOther, otherStart, otherStart'⟩ := second
  simp only [Aligned, Span.merge, start, start', otherStart, otherStart']
  rcases List.prefix_or_prefix_of_prefix isFront isOther with shorter | longer
  · refine ⟨front, isFront, ?_, ?_⟩
    · exact Nat.min_eq_left (Text.byteLength_le shorter)
    · exact Nat.min_eq_left (Text.byteLength_le (crlf_front shorter))
  · refine ⟨other, isOther, ?_, ?_⟩
    · exact Nat.min_eq_right (Text.byteLength_le longer)
    · exact Nat.min_eq_right (Text.byteLength_le (crlf_front longer))

theorem position_eq (aligned : Aligned source a a') :
    (LineIndex.ofChars source).position a.start =
      (LineIndex.ofChars (crlf source)).position a'.start := by
  obtain ⟨front, isFront, start, start'⟩ := aligned
  rw [start, start', LineIndex.position_crlf isFront]

end Lexer.Aligned

/-- Files that differ in their line ends. -/
def Likeness.ofLineEnds (source : List Char) : Likeness where
  Named _ := True
  Placed := Aligned source
  merge := Aligned.merge

namespace Parser

theorem lines_of_parse {tokens : List Token} {lines : LineIndex} {file : SourceFile}
    (parsed : parse tokens lines = .ok file) : file.lines = lines := by
  unfold parse parseStream at parsed
  split at parsed
  next => simp at parsed
  next =>
    dsimp only at parsed
    split at parsed
    next =>
      obtain rfl := Except.ok.inj parsed
      rfl
    next => simp at parsed

/-- The files with the tokens `found` and `found'` are both refused or have the same outline. -/
theorem parse_twins {source : List Char} {found found' : List Token}
    (twins : List.Forall₂ (Twins source) found found') :
    ((parse found' (.ofChars (crlf source))).toOption.map fun file =>
        (file.outline, file.positions)) =
      (parse found (.ofChars source)).toOption.map fun file => (file.outline, file.positions) := by
  have tokens : List.Forall₂ (Likeness.ofLineEnds source).Tokens found found' := by
    refine twins.imp fun t t' twin => ⟨twin.kind, fun _ _ => trivial, fun noSemicolon _ => ?_⟩
    exact twin.aligned noSemicolon
  have outlines := Likeness.parse tokens (.ofChars source) (.ofChars (crlf source))
  obtain ⟨file, file', isOk, isOk', alike⟩ | ⟨faults, faults', isError, isError'⟩ := outlines.both
  · have positions : file.positions = file'.positions := by
      refine alike.positions_eq fun a b aligned => ?_
      rw [SourceFile.position, SourceFile.position, lines_of_parse isOk, lines_of_parse isOk']
      exact aligned.position_eq
    rw [isOk, isOk']
    simp only [Except.toOption, Option.map_some, alike.outline_eq, positions]
  · rw [isError, isError']
    rfl

/-- A carriage return before every line feed changes no token and nothing of the outline: both texts
are refused, or they have the same tokens, and names at the same lines and columns. -/
theorem parseSource_crlf (source : String) :
    ((lex (String.ofList (crlf source.toList))).toOption.map fun found =>
        found.map fun t => (t.kind, t.implicit)) =
      ((lex source).toOption.map fun found => found.map fun t => (t.kind, t.implicit)) ∧
    ((parseSource (String.ofList (crlf source.toList))).toOption.map fun file =>
        (file.outline, file.positions)) =
      (parseSource source).toOption.map fun file => (file.outline, file.positions) := by
  simp only [parseSource, lex, LineIndex.ofSource, String.toList_ofList]
  obtain ⟨found, found', isOk, isOk', twins⟩ | ⟨faults, faults', isError, isError'⟩ :=
    lexChars_crlf source.toList
  · rw [isOk, isOk']
    refine ⟨congrArg some (map_eq_map_of_forall₂ ?_ twins).symm, parse_twins twins⟩
    intro t t' twin
    rw [twin.kind, twin.implicit]
  · rw [isError, isError']
    exact ⟨rfl, rfl⟩

end Parser

end GoFront
