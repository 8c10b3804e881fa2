import GoFront.Lexer
import Mathlib.Data.List.Infix

/-!
The signs of the vocabulary and the scanner of signs. The scanner knows nothing of the vocabulary,
but it takes the longest sign of it at the front of the text (`scanSign_eq`).
-/
namespace GoFront.Lexer

/-- Spellings of the operators and the punctuation. -/
def signs : List (List Char × TokenKind) :=
  Operator.all.map (fun sign => (sign.spelling.toList, .operator sign)) ++
    Punctuation.all.map (fun sign => (sign.spelling.toList, .punctuation sign))

/-- The longest sign at the front of the text; no sign has more than three characters. -/
def longestSign? (text : List Char) : Option (List Char × TokenKind) :=
  [3, 2, 1].findSome? fun count =>
    (signs.lookup (text.take count)).map fun kind => (text.take count, kind)

/-- White space, line feeds included. -/
def blanks : List Char := [' ', '\t', '\r', '\n']

/-! ### The vocabulary -/

theorem shape_of_mem_signs {sign : List Char} {kind : TokenKind} (known : (sign, kind) ∈ signs) :
    sign.length ∈ [3, 2, 1] ∧ ∀ c ∈ sign, isWordChar c = false ∧ c ∉ blanks := by
  have every : (signs.all fun entry => [3, 2, 1].contains entry.1.length &&
      entry.1.all fun c => !isWordChar c && !blanks.contains c) = true := by decide
  simpa using List.all_eq_true.mp every _ known

theorem ne_nil_of_mem_signs {sign : List Char} {kind : TokenKind} (known : (sign, kind) ∈ signs) :
    sign ≠ [] := by
  rintro rfl
  simpa using (shape_of_mem_signs known).1

theorem lookup_signs_eq_some_iff {sign : List Char} {kind : TokenKind} :
    signs.lookup sign = some kind ↔ (sign, kind) ∈ signs := by
  constructor
  · intro found
    obtain ⟨before, after, split, -⟩ := List.lookup_eq_some_iff.mp found
    simp [split]
  · intro known
    have unique : ∀ entry ∈ signs, signs.lookup entry.1 = some entry.2 := by decide
    exact unique _ known

theorem lookup_take_of_mem_signs {text sign : List Char} {kind : TokenKind}
    (known : (sign, kind) ∈ signs) (front : sign <+: text) :
    signs.lookup (text.take sign.length) = some kind := by
  rw [← List.prefix_iff_eq_take.mp front]
  exact lookup_signs_eq_some_iff.mpr known

/-- The sign is the longest one that the text starts with. -/
structure LongestSign (text sign : List Char) (kind : TokenKind) : Prop where
  known : (sign, kind) ∈ signs
  front : sign <+: text
  longest : ∀ other kind, (other, kind) ∈ signs → other <+: text → other.length ≤ sign.length

theorem LongestSign.of_found {text sign : List Char} {kind : TokenKind}
    (found : longestSign? text = some (sign, kind)) : LongestSign text sign kind := by
  obtain ⟨tried, count, untried, order, hit, missed⟩ := List.findSome?_eq_some_iff.mp found
  obtain ⟨_, known, same⟩ := Option.map_eq_some_iff.mp hit
  obtain ⟨rfl, rfl⟩ := Prod.mk.inj same
  refine ⟨lookup_signs_eq_some_iff.mp known, List.take_prefix count text, ?_⟩
  intro other _ knownOther isFront
  have inText := isFront.length_le
  by_contra longer
  rw [List.length_take] at longer
  -- The lengths are tried in decreasing order, so that of a longer sign was tried before.
  have counted : other.length ∈ tried ++ count :: untried :=
    order ▸ (shape_of_mem_signs knownOther).1
  have decreasing : (tried ++ count :: untried).Pairwise (· > ·) := order ▸ by decide
  rcases List.mem_append.mp counted with before | after
  · have miss := missed _ before
    simp [lookup_take_of_mem_signs knownOther isFront] at miss
  · have smaller := (List.pairwise_cons.mp (List.pairwise_append.mp decreasing).2.1).1
    rcases List.mem_cons.mp after with same | later
    · omega
    · have := smaller _ later
      omega

theorem LongestSign.found {text sign : List Char} {kind : TokenKind}
    (longest : LongestSign text sign kind) : longestSign? text = some (sign, kind) := by
  cases found : longestSign? text with
  | none =>
    have miss := List.findSome?_eq_none_iff.mp found _ (shape_of_mem_signs longest.known).1
    simp [lookup_take_of_mem_signs longest.known longest.front] at miss
  | some entry =>
    obtain ⟨other, kindOther⟩ := entry
    have otherLongest := LongestSign.of_found found
    have sameLength : other.length = sign.length :=
      Nat.le_antisymm (longest.longest _ _ otherLongest.known otherLongest.front)
        (otherLongest.longest _ _ longest.known longest.front)
    have same : other = sign :=
      (List.prefix_of_prefix_length_le otherLongest.front longest.front sameLength.le).eq_of_length
        sameLength
    subst same
    have sameKind := lookup_signs_eq_some_iff.mpr otherLongest.known
    rw [lookup_signs_eq_some_iff.mpr longest.known] at sameKind
    rw [Option.some.inj sameKind]

theorem longestSign?_eq_some_iff {text sign : List Char} {kind : TokenKind} :
    longestSign? text = some (sign, kind) ↔ LongestSign text sign kind :=
  ⟨.of_found, LongestSign.found⟩

/-! ### The scanner of signs -/

/-- Every longer sign that begins with `read` goes on with one of the tried texts. -/
def Tries (read : List Char) (tried : List (List Char)) : Prop :=
  ∀ sign ∈ signs, read <+: sign.1 → sign.1 = read ∨ ∃ more ∈ tried, read ++ more <+: sign.1

instance (read : List Char) (tried : List (List Char)) : Decidable (Tries read tried) :=
  inferInstanceAs (Decidable (∀ sign ∈ signs, _))

theorem LongestSign.of_tries {read rest : List Char} {kind : TokenKind} {tried : List (List Char)}
    (known : (read, kind) ∈ signs) (tries : Tries read tried)
    (missed : ∀ more ∈ tried, ¬more <+: rest) : LongestSign (read ++ rest) read kind := by
  refine ⟨known, List.prefix_append _ _, fun other kindOther knownOther front => ?_⟩
  rcases List.prefix_or_prefix_of_prefix front (List.prefix_append read rest) with shorter | longer
  · exact shorter.length_le
  · rcases tries _ knownOther longer with same | ⟨more, isTried, goesOn⟩
    · exact (congrArg List.length same).le
    · exact absurd ((List.prefix_append_right_inj read).mp (goesOn.trans front))
        (missed more isTried)

/-- The piece is the token of the longest sign at the front of the text. -/
def Piece.IsLongestSign (piece : Piece Lexeme) (text : List Char) : Prop :=
  ∃ kind, piece.result = .ok (.token kind) ∧ LongestSign text piece.text kind

/-- The choice between the compounds of an operator finds the longest sign, provided that whatever
else begins with the operator was tried before. -/
theorem scanOperator_isLongestSign {read : List Char} {simple : Operator}
    {compounds : List (Char × Operator)} (tried : List (List Char))
    (known : (read, .operator simple) ∈ signs)
    (knownCompounds : ∀ entry ∈ compounds,
      (read ++ [entry.1], TokenKind.operator entry.2) ∈ signs ∧ Tries (read ++ [entry.1]) [])
    (tries : Tries read (compounds.map (fun entry => [entry.1]) ++ tried)) {rest : List Char}
    (missed : ∀ more ∈ tried, ¬more <+: rest) :
    (scanOperator read simple compounds rest).IsLongestSign (read ++ rest) := by
  unfold scanOperator
  split
  next last compound found =>
    obtain ⟨later, rfl⟩ : ∃ later, rest = last :: later :=
      List.head?_eq_some_iff.mp (by simpa using List.find?_some found)
    obtain ⟨knownCompound, whole⟩ := knownCompounds _ (List.mem_of_find?_eq_some found)
    refine ⟨_, rfl, ?_⟩
    rw [List.append_cons]
    exact .of_tries knownCompound whole (by simp)
  next none =>
    refine ⟨_, rfl, .of_tries known tries (List.forall_mem_append.mpr ⟨?_, missed⟩)⟩
    intro more isCompound front
    obtain ⟨entry, mem, rfl⟩ := List.mem_map.mp isCompound
    obtain ⟨later, rfl⟩ := front
    exact absurd (List.find?_eq_none.mp none entry mem) (by simp)

theorem operatorPiece_isLongestSign {text : List Char} {sign : Operator}
    {tried : List (List Char)} (known : (text, .operator sign) ∈ signs) (tries : Tries text tried)
    {rest : List Char} (missed : ∀ more ∈ tried, ¬more <+: rest) :
    (operatorPiece text sign).IsLongestSign (text ++ rest) :=
  ⟨_, rfl, .of_tries known tries missed⟩

theorem punctuationPiece_isLongestSign {text : List Char} {sign : Punctuation}
    {tried : List (List Char)} (known : (text, .punctuation sign) ∈ signs)
    (tries : Tries text tried) {rest : List Char} (missed : ∀ more ∈ tried, ¬more <+: rest) :
    (punctuationPiece text sign).IsLongestSign (text ++ rest) :=
  ⟨_, rfl, .of_tries known tries missed⟩

/-- The characters with which a sign may begin. -/
def openers : List Char :=
  ['+', '-', '*', '/', '%', '&', '|', '^', '~', '<', '>', '=', '!', ':', '.', ',', ';', '(', ')',
   '[', ']', '\x7b', '\x7d']

theorem scanSign_isLongestSign {c : Char} (opens : c ∈ openers) (rest : List Char) :
    (scanSign c rest).IsLongestSign (c :: rest) := by
  have nothing : ∀ text : List Char, ∀ more ∈ ([] : List (List Char)), ¬more <+: text := by simp
  unfold scanSign
  split
  -- The ampersand and the two angles are tried for a longer front first, the colon and the dot for
  -- their only compound.
  case h_6 =>
    split
    · exact scanOperator_isLongestSign [] (by decide) (by decide) (by decide) (nothing _)
    next other =>
      refine scanOperator_isLongestSign [['^']] (by decide) (by decide) (by decide) ?_
      simpa [List.cons_prefix_iff] using other
  case h_10 =>
    split
    · exact scanOperator_isLongestSign [] (by decide) (by decide) (by decide) (nothing _)
    next other =>
      refine scanOperator_isLongestSign [['<']] (by decide) (by decide) (by decide) ?_
      simpa [List.cons_prefix_iff] using other
  case h_11 =>
    split
    · exact scanOperator_isLongestSign [] (by decide) (by decide) (by decide) (nothing _)
    next other =>
      refine scanOperator_isLongestSign [['>']] (by decide) (by decide) (by decide) ?_
      simpa [List.cons_prefix_iff] using other
  case h_14 =>
    split
    next more => exact operatorPiece_isLongestSign (by decide) (by decide) (nothing more)
    next other =>
      refine punctuationPiece_isLongestSign (by decide) (by decide : Tries _ [['=']]) ?_
      simpa [List.cons_prefix_iff] using other
  case h_15 =>
    split
    next more => exact punctuationPiece_isLongestSign (by decide) (by decide) (nothing more)
    next other =>
      refine punctuationPiece_isLongestSign (by decide) (by decide : Tries _ [['.', '.']]) ?_
      simpa [List.cons_prefix_iff] using other
  case h_9 => exact operatorPiece_isLongestSign (by decide) (by decide) (nothing rest)
  case h_16 | h_17 | h_18 | h_19 | h_20 | h_21 | h_22 | h_23 =>
    exact punctuationPiece_isLongestSign (by decide) (by decide) (nothing rest)
  case h_24 => simp_all [openers]
  all_goals
    exact scanOperator_isLongestSign [] (by decide) (by decide) (by decide) (nothing rest)

/-- The scanner takes the longest sign of the vocabulary, and refuses a character that begins
none. -/
theorem scanSign_eq (c : Char) (rest : List Char) : scanSign c rest =
    match longestSign? (c :: rest) with
    | some (text, kind) => ⟨text, .ok (.token kind)⟩
    | none => refused [c] (.illegalCharacter c) := by
  by_cases opens : c ∈ openers
  · obtain ⟨kind, result, longest⟩ := scanSign_isLongestSign opens rest
    rw [longest.found]
    dsimp only
    rw [← result]
  · have none : longestSign? (c :: rest) = none := by
      cases found : longestSign? (c :: rest) with
      | none => rfl
      | some entry =>
        have longest := LongestSign.of_found found
        have every : ∀ sign ∈ signs, sign.1.head? ∈ openers.map some := by decide
        obtain ⟨first, isOpener, isFirst⟩ := List.mem_map.mp (every _ longest.known)
        obtain ⟨later, same⟩ := List.head?_eq_some_iff.mp isFirst.symm
        have front := longest.front
        dsimp only at same
        rw [same] at front
        exact absurd ((List.cons_prefix_cons.mp front).1 ▸ isOpener) opens
    rw [none]
    unfold scanSign
    split
    case h_24 => rfl
    all_goals exact absurd (by decide) opens

end GoFront.Lexer
