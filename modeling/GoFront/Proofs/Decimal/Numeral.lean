import GoFront.Decimal.Numeral
import Mathlib.Data.List.Basic

/-!
The text of a numeral is read as that numeral; so every decimal numeral is read as a double.
-/
namespace GoFront

theorem splitSign_unsigned {text : List Char} (unsigned : ∀ c ∈ text.head?, c ≠ '+' ∧ c ≠ '-') :
    splitSign text = ([], text) := by
  unfold splitSign
  split
  next => exact absurd rfl (unsigned '+' rfl).1
  next => exact absurd rfl (unsigned '-' rfl).2
  next => rfl

theorem ne_sign_of_isDigit {c : Char} (isDigit : c.isDigit) : c ≠ '+' ∧ c ≠ '-' := by
  constructor <;> rintro rfl <;> simp at isDigit

namespace Exponent

theorem ofText?_text (e : Exponent) : ofText? e.text = some e := by
  obtain ⟨letter, sign, digits, isLetter, isSign, allDigits, hasDigit⟩ := e
  have split : splitSign (sign ++ digits) = (sign, digits) := by
    rcases isSign with rfl | rfl | rfl
    · refine splitSign_unsigned fun c isFirst => ne_sign_of_isDigit ?_
      exact List.all_eq_true.mp allDigits c (List.mem_of_mem_head? isFirst)
    · rfl
    · rfl
  simp [ofText?, text, split, isLetter, allDigits, hasDigit]

end Exponent

/-- Digits before a text that starts with none. -/
theorem span_digits {digits after : List Char} (allDigits : digits.all Char.isDigit)
    (ends : ∀ c ∈ after.head?, c.isDigit = false) :
    (digits ++ after).takeWhile Char.isDigit = digits ∧
      (digits ++ after).dropWhile Char.isDigit = after := by
  have inside := List.all_eq_true.mp allDigits
  rw [List.takeWhile_append_of_pos inside, List.dropWhile_append_of_pos inside]
  cases after with
  | nil => simp
  | cons c after => simp [ends c rfl]

namespace Numeral

theorem exponentAtEnd?_text (exponent : Option Exponent) :
    exponentAtEnd? (exponent.elim [] Exponent.text) = some exponent := by
  cases exponent with
  | none => rfl
  | some e =>
    have nonempty : e.text ≠ [] := List.cons_ne_nil _ _
    show exponentAtEnd? e.text = _
    rw [exponentAtEnd?, if_neg nonempty, Exponent.ofText?_text, Option.map_some]

/-- An exponent starts with its letter. -/
theorem exponent_starts (exponent : Option Exponent) :
    ∀ c ∈ (exponent.elim [] Exponent.text).head?, c = 'e' ∨ c = 'E' := by
  intro c isFirst
  cases exponent with
  | none => simp at isFirst
  | some e =>
    obtain rfl := Option.some.inj isFirst
    exact e.isLetter

/-- Digits and what is behind a point end before the exponent. -/
theorem exponent_ends (exponent : Option Exponent) :
    ∀ c ∈ (exponent.elim [] Exponent.text).head?, c.isDigit = false ∧ c ≠ '.' := by
  intro c isFirst
  rcases exponent_starts exponent c isFirst with rfl | rfl <;> decide

theorem splitDecimals_text {decimals : Option (List Char)} {exponent : Option Exponent}
    (allDigits : (decimals.getD []).all Char.isDigit) :
    splitDecimals (decimals.elim [] ('.' :: ·) ++ exponent.elim [] Exponent.text) =
      (decimals, exponent.elim [] Exponent.text) := by
  have ends := exponent_ends exponent
  cases decimals with
  | none =>
    show splitDecimals (exponent.elim [] Exponent.text) = _
    unfold splitDecimals
    split
    next more isText => exact absurd rfl (ends '.' (isText ▸ rfl)).2
    next => rfl
  | some decimals =>
    obtain ⟨front, rest⟩ := span_digits allDigits fun c isFirst => (ends c isFirst).1
    exact Prod.ext (congrArg some front) rest

theorem ofText?_text (n : Numeral) : ofText? n.text = some n := by
  obtain ⟨whole, decimals, exponent, allDigits, hasDigit⟩ := n
  have areDigits := allDigits
  rw [List.all_append, Bool.and_eq_true] at areDigits
  have ends : ∀ c ∈ (decimals.elim [] ('.' :: ·) ++ exponent.elim [] Exponent.text).head?,
      c.isDigit = false := by
    cases decimals with
    | none => exact fun c isFirst => (exponent_ends exponent c isFirst).1
    | some decimals =>
      intro c isFirst
      obtain rfl := Option.some.inj isFirst
      rfl
  obtain ⟨front, rest⟩ := span_digits areDigits.1 ends
  simp [ofText?, text, front, rest, splitDecimals_text areDigits.2, exponentAtEnd?_text, hasDigit]

theorem splitSign_text (n : Numeral) : splitSign n.text = ([], n.text) := by
  obtain ⟨whole, decimals, exponent, allDigits, hasDigit⟩ := n
  apply splitSign_unsigned
  intro c isFirst
  cases whole with
  | cons first whole =>
    obtain rfl := Option.some.inj isFirst
    exact ne_sign_of_isDigit (Bool.and_eq_true_iff.mp allDigits).1
  | nil =>
    cases decimals with
    | none => exact absurd rfl hasDigit
    | some decimals =>
      obtain rfl := Option.some.inj isFirst
      decide

end Numeral

/-- Every decimal numeral is read as a double. -/
theorem Binary64.ofText?_text (n : Numeral) : Binary64.ofText? n.text = some n.value := by
  simp [Binary64.ofText?, n.splitSign_text, n.ofText?_text]

end GoFront
