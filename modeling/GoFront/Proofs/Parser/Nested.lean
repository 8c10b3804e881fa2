import GoFront.Token
import Mathlib.Data.List.Count

/-!
Token sequences whose delimiters are nested: every opener is closed by the closer of its own kind,
in order, with none left over. `nested_iff_unclosed` decides it with a stack of open groups.
-/
namespace GoFront

namespace TokenKind

def isDelimiter : TokenKind → Bool
  | punctuation (.opening _) | punctuation (.closing _) => true
  | _ => false

theorem isDelimiter_eq_false {kind : TokenKind}
    (noOpening : ∀ delimiter, kind ≠ punctuation (.opening delimiter))
    (noClosing : ∀ delimiter, kind ≠ punctuation (.closing delimiter)) :
    kind.isDelimiter = false := by
  unfold isDelimiter
  split <;> simp_all

end TokenKind

open TokenKind

/-- The delimiters of the sequence are nested. -/
inductive Nested : List TokenKind → Prop where
  | nil : Nested []
  | plain {kind : TokenKind} {rest : List TokenKind} (isPlain : kind.isDelimiter = false)
      (nested : Nested rest) : Nested (kind :: rest)
  | group (delimiter : Delimiter) {inside rest : List TokenKind} (within : Nested inside)
      (nested : Nested rest) :
      Nested (punctuation (.opening delimiter) ::
        (inside ++ punctuation (.closing delimiter) :: rest))

namespace Nested

theorem append {first second : List TokenKind} (nested : Nested first) (later : Nested second) :
    Nested (first ++ second) := by
  induction nested with
  | nil => exact later
  | plain isPlain _ ih => exact .plain isPlain ih
  | group delimiter within _ _ ih => simpa using Nested.group delimiter within ih

theorem of_plain {kinds : List TokenKind} (plain : ∀ kind ∈ kinds, kind.isDelimiter = false) :
    Nested kinds := by
  induction kinds with
  | nil => exact .nil
  | cons kind rest ih =>
    obtain ⟨isPlain, later⟩ := List.forall_mem_cons.mp plain
    exact .plain isPlain (ih later)

theorem wrap {inside : List TokenKind} (delimiter : Delimiter) (within : Nested inside) :
    Nested (punctuation (.opening delimiter) :: (inside ++ [punctuation (.closing delimiter)])) :=
  .group delimiter within .nil

/-- There are as many openers of each kind as closers. -/
theorem count_eq {kinds : List TokenKind} (nested : Nested kinds) (delimiter : Delimiter) :
    kinds.count (punctuation (.opening delimiter)) =
      kinds.count (punctuation (.closing delimiter)) := by
  induction nested with
  | nil => rfl
  | @plain kind rest isPlain _ ih =>
    have noOpener : kind ≠ punctuation (.opening delimiter) := by
      rintro rfl
      simp [isDelimiter] at isPlain
    have noCloser : kind ≠ punctuation (.closing delimiter) := by
      rintro rfl
      simp [isDelimiter] at isPlain
    rw [List.count_cons_of_ne noOpener, List.count_cons_of_ne noCloser, ih]
  | @group other inside rest _ _ ihInside ih =>
    simp only [List.count_cons, List.count_append, ihInside, ih]
    by_cases same : other = delimiter <;> simp [same]
    omega

end Nested

/-! ### Closing a stack of open groups -/

/-- The sequence closes the open groups, the nearest first, and ends with the last closer. -/
def Closes : List Delimiter → List TokenKind → Prop
  | [], kinds => kinds = []
  | delimiter :: outer, kinds => ∃ inside rest,
      kinds = inside ++ punctuation (.closing delimiter) :: rest ∧ Nested inside ∧ Closes outer rest

namespace Closes

variable {inner : Delimiter} {outer : List Delimiter} {rest : List TokenKind}

theorem append {first : List TokenKind} (nested : Nested first)
    (closes : Closes (inner :: outer) rest) : Closes (inner :: outer) (first ++ rest) := by
  obtain ⟨inside, later, rfl, within, closes⟩ := closes
  exact ⟨first ++ inside, later, by simp, nested.append within, closes⟩

theorem plain {kind : TokenKind} (isPlain : kind.isDelimiter = false)
    (closes : Closes (inner :: outer) rest) : Closes (inner :: outer) (kind :: rest) :=
  .append (.plain isPlain .nil) closes

theorem opening {delimiter : Delimiter} (closes : Closes (delimiter :: inner :: outer) rest) :
    Closes (inner :: outer) (punctuation (.opening delimiter) :: rest) := by
  obtain ⟨inside, later, rfl, within, closes⟩ := closes
  simpa using Closes.append (Nested.wrap delimiter within) closes

theorem closing {stack : List Delimiter} (delimiter : Delimiter) (closes : Closes stack rest) :
    Closes (delimiter :: stack) (punctuation (.closing delimiter) :: rest) :=
  ⟨[], rest, rfl, .nil, closes⟩

theorem eq_append {delimiter : Delimiter} (closes : Closes [delimiter] rest) :
    ∃ inside, rest = inside ++ [punctuation (.closing delimiter)] ∧ Nested inside := by
  obtain ⟨inside, _, rfl, within, rfl⟩ := closes
  exact ⟨inside, rfl, within⟩

/-- The opener, and what closes it. -/
theorem group {delimiter : Delimiter} (closes : Closes [delimiter] rest) :
    Nested (punctuation (.opening delimiter) :: rest) := by
  obtain ⟨inside, rfl, within⟩ := closes.eq_append
  exact .wrap delimiter within

end Closes

/-- The groups that are still open after the sequence, the nearest first, or nothing if a closer in
it closes none. -/
def unclosed (stack : List Delimiter) : List TokenKind → Option (List Delimiter)
  | [] => some stack
  | punctuation (.opening delimiter) :: rest => unclosed (delimiter :: stack) rest
  | punctuation (.closing delimiter) :: rest =>
    match stack with
    | [] => none
    | inner :: outer => if inner = delimiter then unclosed outer rest else none
  | _ :: rest => unclosed stack rest

theorem unclosed_plain {kind : TokenKind} (isPlain : kind.isDelimiter = false)
    (stack : List Delimiter) (rest : List TokenKind) :
    unclosed stack (kind :: rest) = unclosed stack rest := by
  rw [unclosed]
  · rintro delimiter rfl
    simp [isDelimiter] at isPlain
  · rintro delimiter rfl
    simp [isDelimiter] at isPlain

theorem Nested.unclosed_append {kinds : List TokenKind} (nested : Nested kinds)
    (stack : List Delimiter) (rest : List TokenKind) :
    unclosed stack (kinds ++ rest) = unclosed stack rest := by
  induction nested generalizing stack rest with
  | nil => rfl
  | plain isPlain _ ih => rw [List.cons_append, unclosed_plain isPlain, ih]
  | group delimiter _ _ ihInside ih =>
    rw [List.cons_append, List.append_assoc, unclosed, ihInside, List.cons_append, unclosed]
    simp [ih]

theorem closes_of_unclosed {stack : List Delimiter} {kinds : List TokenKind}
    (settled : unclosed stack kinds = some []) :
    ∃ closed rest, kinds = closed ++ rest ∧ Closes stack closed ∧ Nested rest := by
  fun_induction unclosed stack kinds with
  | case1 => exact ⟨[], [], rfl, Option.some.inj settled ▸ rfl, .nil⟩
  | case2 stack delimiter rest ih =>
    obtain ⟨closed, later, rfl, closes, nested⟩ := ih settled
    cases stack with
    | nil => exact ⟨[], _, rfl, rfl, closes.group.append nested⟩
    | cons inner outer => exact ⟨_ :: closed, later, rfl, closes.opening, nested⟩
  | case3 => simp at settled
  | case4 rest delimiter outer ih =>
    obtain ⟨closed, later, rfl, closes, nested⟩ := ih settled
    exact ⟨_ :: closed, later, rfl, closes.closing delimiter, nested⟩
  | case5 => simp at settled
  | case6 stack kind rest noOpening noClosing ih =>
    have isPlain := isDelimiter_eq_false noOpening noClosing
    obtain ⟨closed, later, rfl, closes, nested⟩ := ih settled
    cases stack with
    | nil =>
      obtain rfl : closed = [] := closes
      exact ⟨[], _, rfl, rfl, .plain isPlain nested⟩
    | cons inner outer => exact ⟨kind :: closed, later, rfl, closes.plain isPlain, nested⟩

theorem nested_iff_unclosed {kinds : List TokenKind} :
    Nested kinds ↔ unclosed [] kinds = some [] := by
  constructor
  · intro nested
    simpa [unclosed] using nested.unclosed_append [] []
  · intro settled
    obtain ⟨_, rest, rfl, rfl, nested⟩ := closes_of_unclosed settled
    exact nested

instance (kinds : List TokenKind) : Decidable (Nested kinds) :=
  decidable_of_iff _ nested_iff_unclosed.symm

/-! ### Outlines with loose receivers -/

/-- Delimiters that may stand in a receiver without matching anything. -/
def strayKinds : List TokenKind :=
  [punctuation (.opening .paren), punctuation (.closing .bracket), punctuation (.closing .brace)]

/-- What stands between the parentheses of a receiver, and the strays in it. Only brackets are
nested there. -/
inductive Loose : List TokenKind → List TokenKind → Prop where
  | nil : Loose [] []
  | plain {kind : TokenKind} {rest strays : List TokenKind} (isPlain : kind.isDelimiter = false)
      (loose : Loose rest strays) : Loose (kind :: rest) strays
  | brackets {inside rest strays : List TokenKind} (within : Nested inside)
      (loose : Loose rest strays) :
      Loose (punctuation (.opening .bracket) ::
        (inside ++ punctuation (.closing .bracket) :: rest)) strays
  | stray {kind : TokenKind} {rest strays : List TokenKind} (isStray : kind ∈ strayKinds)
      (loose : Loose rest strays) : Loose (kind :: rest) (kind :: strays)

/-- The tokens of a file, nested but for its receivers, and the strays in those. -/
inductive Outlined : List TokenKind → List TokenKind → Prop where
  | nested {kinds : List TokenKind} (nested : Nested kinds) : Outlined kinds []
  | receiver {before inside rest strays later : List TokenKind} (nested : Nested before)
      (within : Loose inside strays) (outlined : Outlined rest later) :
      Outlined
        (before ++ keyword .funcKw :: punctuation (.opening .paren) ::
          (inside ++ punctuation (.closing .paren) :: rest))
        (strays ++ later)

/-- The sequence has an opener for each closer, up to the strays. -/
def Evens (kinds strays : List TokenKind) : Prop :=
  ∀ delimiter, kinds.count (punctuation (.opening delimiter)) +
      strays.count (punctuation (.closing delimiter)) =
    kinds.count (punctuation (.closing delimiter)) +
      strays.count (punctuation (.opening delimiter))

theorem Nested.evens {kinds : List TokenKind} (nested : Nested kinds) : Evens kinds [] := by
  intro delimiter
  simpa using nested.count_eq delimiter

theorem Evens.append {first second strays later : List TokenKind} (evens : Evens first strays)
    (evensLater : Evens second later) : Evens (first ++ second) (strays ++ later) := by
  intro delimiter
  have := evens delimiter
  have := evensLater delimiter
  simp only [List.count_append]
  omega

namespace Loose

theorem evens {kinds strays : List TokenKind} (loose : Loose kinds strays) :
    Evens kinds strays := by
  induction loose with
  | nil => exact Nested.nil.evens
  | plain isPlain _ ih => exact (Nested.plain isPlain .nil).evens.append ih
  | brackets within _ ih => simpa using (within.wrap .bracket).evens.append ih
  | @stray kind rest strays _ _ ih =>
    intro delimiter
    have := ih delimiter
    simp only [List.count_cons]
    omega

theorem stray_mem {kinds strays : List TokenKind} (loose : Loose kinds strays) :
    ∀ kind ∈ strays, kind ∈ strayKinds := by
  induction loose with
  | nil => simp
  | plain _ _ ih => exact ih
  | brackets _ _ ih => exact ih
  | stray isStray _ ih => exact List.forall_mem_cons.mpr ⟨isStray, ih⟩

theorem nested {kinds : List TokenKind} (loose : Loose kinds []) : Nested kinds := by
  generalize none : ([] : List TokenKind) = strays at loose
  induction loose with
  | nil => exact .nil
  | plain isPlain _ ih => exact .plain isPlain (ih none)
  | brackets within _ ih => exact .group .bracket within (ih none)
  | stray => simp at none

end Loose

namespace Outlined

theorem append {first second strays later : List TokenKind} (outlined : Outlined first strays)
    (outlinedLater : Outlined second later) : Outlined (first ++ second) (strays ++ later) := by
  induction outlined with
  | nested nested =>
    cases outlinedLater with
    | nested nestedLater => exact .nested (nested.append nestedLater)
    | receiver nestedLater within outlined =>
      simpa using Outlined.receiver (nested.append nestedLater) within outlined
  | receiver nested within _ ih => simpa using Outlined.receiver nested within ih

theorem evens {kinds strays : List TokenKind} (outlined : Outlined kinds strays) :
    Evens kinds strays := by
  induction outlined with
  | nested nested => exact nested.evens
  | @receiver before inside rest strays later nested within _ ih =>
    intro delimiter
    have := nested.evens delimiter
    have := within.evens delimiter
    have := ih delimiter
    simp only [List.count_append, List.count_cons] at *
    cases delimiter <;> simp at * <;> omega

theorem stray_mem {kinds strays : List TokenKind} (outlined : Outlined kinds strays) :
    ∀ kind ∈ strays, kind ∈ strayKinds := by
  induction outlined with
  | nested => simp
  | receiver _ within _ ih =>
    intro kind mem
    exact (List.mem_append.mp mem).elim (within.stray_mem kind) (ih kind)

theorem nested_of_no_strays {kinds strays : List TokenKind} (outlined : Outlined kinds strays)
    (none : strays = []) : Nested kinds := by
  induction outlined with
  | nested nested => exact nested
  | receiver nested within _ ih =>
    obtain ⟨rfl, rfl⟩ := List.append_eq_nil_iff.mp none
    exact nested.append (.plain rfl (.group .paren within.nested (ih rfl)))

/-- No stray can make up for another, so an outline is nested if it has none and only then. -/
theorem nested_iff {kinds strays : List TokenKind} (outlined : Outlined kinds strays) :
    Nested kinds ↔ strays = [] := by
  refine ⟨fun nested => ?_, outlined.nested_of_no_strays⟩
  -- Each kind of delimiter has strays on one side only, so nothing evens them out.
  have even : ∀ delimiter, strays.count (punctuation (.closing delimiter)) =
      strays.count (punctuation (.opening delimiter)) := by
    intro delimiter
    have := nested.count_eq delimiter
    have := outlined.evens delimiter
    omega
  have absent : ∀ kind, kind ∉ strayKinds → strays.count kind = 0 := fun kind notStray =>
    List.count_eq_zero.mpr fun mem => notStray (outlined.stray_mem kind mem)
  refine List.eq_nil_iff_forall_not_mem.mpr fun kind mem => ?_
  have some : 0 < strays.count kind := List.count_pos_iff.mpr mem
  have isStray := outlined.stray_mem kind mem
  simp only [strayKinds, List.mem_cons, List.not_mem_nil, or_false] at isStray
  rcases isStray with rfl | rfl | rfl
  · rw [← even, absent _ (by decide)] at some
    exact absurd some (Nat.lt_irrefl 0)
  · rw [even, absent _ (by decide)] at some
    exact absurd some (Nat.lt_irrefl 0)
  · rw [even, absent _ (by decide)] at some
    exact absurd some (Nat.lt_irrefl 0)

end Outlined

end GoFront
