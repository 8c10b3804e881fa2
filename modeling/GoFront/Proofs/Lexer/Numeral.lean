import GoFront.Lexer.Literal
import Mathlib.Data.List.Forall2
import Mathlib.Data.Nat.Digits.Lemmas

/-!
Digits and the numbers they stand for. Numbers with few digits are the same when they are summed up
in 32 bits.
-/
namespace GoFront.Lexer

/-- The character is the digit of this value in the base. -/
def IsDigit (base : Nat) (c : Char) (value : Nat) : Prop :=
  value < base ∧
    (c ∈ "0123456789abcdef".toList[value]? ∨ c ∈ "0123456789ABCDEF".toList[value]?)

/-- The digits, the most significant one first, are a numeral of `n` in the base. -/
def Denotes (base : Nat) (digits : List Char) (n : Nat) : Prop :=
  ∃ values, List.Forall₂ (IsDigit base) digits values ∧ Nat.ofDigits base values.reverse = n

theorem digitValue_lt {base : Nat} {c : Char} (digit : isDigitOf base c) : digitValue c < base := by
  unfold isDigitOf at digit
  unfold digitValue
  grind

theorem isDigitOf_iff (base : Nat) (c : Char) :
    isDigitOf base c ↔ isDigitOf 16 c ∧ digitValue c < base := by
  unfold isDigitOf digitValue
  grind

theorem isDigit_sixteen_iff {c : Char} {value : Nat} :
    IsDigit 16 c value ↔ isDigitOf 16 c ∧ digitValue c = value := by
  constructor
  · rintro ⟨below, listed⟩
    have table : ∀ value < 16,
        ("0123456789abcdef".toList[value]?.toList ++ "0123456789ABCDEF".toList[value]?.toList).all
          fun c => isDigitOf 16 c && digitValue c = value := by decide
    simpa using List.all_eq_true.mp (table value below) c (by simpa using listed)
  · rintro ⟨digit, rfl⟩
    -- All digits are below 128, so that there are finitely many cases to check.
    have table : ∀ n < 128, isDigitOf 16 (Char.ofNat n) →
        Char.ofNat n ∈ "0123456789abcdef".toList[digitValue (Char.ofNat n)]? ∨
          Char.ofNat n ∈ "0123456789ABCDEF".toList[digitValue (Char.ofNat n)]? := by decide
    have low : c.toNat < 128 := by
      unfold isDigitOf at digit
      grind
    have listed := table c.toNat low (by rwa [Char.ofNat_toNat])
    rw [Char.ofNat_toNat] at listed
    exact ⟨digitValue_lt digit, listed⟩

theorem isDigit_iff {base : Nat} {c : Char} {value : Nat} :
    IsDigit base c value ↔ isDigitOf base c ∧ digitValue c = value := by
  have sixteen : IsDigit base c value ↔ IsDigit 16 c value ∧ value < base := by
    constructor
    · rintro ⟨below, listed⟩
      refine ⟨⟨?_, listed⟩, below⟩
      rcases listed with lower | upper
      · exact (List.getElem?_eq_some_iff.mp lower).1
      · exact (List.getElem?_eq_some_iff.mp upper).1
    · rintro ⟨⟨-, listed⟩, below⟩
      exact ⟨below, listed⟩
  rw [sixteen, isDigit_sixteen_iff, isDigitOf_iff base]
  grind

theorem forall₂_isDigit_iff {base : Nat} {digits : List Char} {values : List Nat} :
    List.Forall₂ (IsDigit base) digits values ↔
      (∀ c ∈ digits, isDigitOf base c) ∧ digits.map digitValue = values := by
  induction digits generalizing values with
  | nil =>
    rw [List.forall₂_nil_left_iff, List.map_nil]
    exact ⟨fun empty => ⟨by simp, empty.symm⟩, fun both => both.2.symm⟩
  | cons c rest ih =>
    cases values with
    | nil => simp
    | cons value values =>
      rw [List.forall₂_cons, isDigit_iff, ih, List.forall_mem_cons, List.map_cons, List.cons.injEq]
      tauto

theorem positional_concat (base : Nat) (digits : List Char) (c : Char) :
    positional base (digits ++ [c]) = positional base digits * base + digitValue c := by
  simp [positional, List.foldl_append]

theorem positional_eq_ofDigits (base : Nat) (digits : List Char) :
    positional base digits = Nat.ofDigits base (digits.map digitValue).reverse := by
  induction digits using List.reverseRecOn with
  | nil => rfl
  | append_singleton digits c ih =>
    rw [positional_concat, List.map_append, List.reverse_append, List.map_singleton,
      List.reverse_singleton, List.singleton_append, Nat.ofDigits_cons, ih, Nat.mul_comm,
      Nat.add_comm]

/-- A numeral has digits only, and its number is summed up from the left. -/
theorem denotes_iff {base : Nat} {digits : List Char} {n : Nat} :
    Denotes base digits n ↔ (∀ c ∈ digits, isDigitOf base c) ∧ positional base digits = n := by
  simp only [Denotes, forall₂_isDigit_iff, positional_eq_ofDigits, and_assoc, exists_and_left,
    exists_eq_left']

theorem positional_lt {base : Nat} {digits : List Char}
    (isNumeral : ∀ c ∈ digits, isDigitOf base c) :
    positional base digits < base ^ digits.length := by
  induction digits using List.reverseRecOn with
  | nil => simp [positional]
  | append_singleton digits c ih =>
    obtain ⟨front, last⟩ := List.forall_mem_append.mp isNumeral
    have below := digitValue_lt (last c List.mem_cons_self)
    have bound := ih front
    rw [positional_concat, List.length_append, List.length_singleton, Nat.pow_succ]
    calc positional base digits * base + digitValue c
        < positional base digits * base + base := Nat.add_lt_add_left below _
      _ = (positional base digits + 1) * base := by rw [Nat.add_mul, Nat.one_mul]
      _ ≤ base ^ digits.length * base := Nat.mul_le_mul_right base bound

/-- The number that the digits stand for, summed up in 32 bits; none if a product or a sum on the
way overflows. -/
def positional32? (base : Nat) (digits : List Char) : Option UInt32 :=
  digits.foldlM (fun code c =>
    if code.toNat * base + digitValue c < UInt32.size then
      some (code * base.toUInt32 + (digitValue c).toUInt32)
    else none) 0

theorem positional32?_eq_some {base : Nat} {digits : List Char}
    (isNumeral : ∀ c ∈ digits, isDigitOf base c) (fits : base ^ digits.length ≤ UInt32.size) :
    ∃ code, positional32? base digits = some code ∧ code.toNat = positional base digits := by
  induction digits using List.reverseRecOn with
  | nil => exact ⟨0, rfl, rfl⟩
  | append_singleton digits c ih =>
    have bound := Nat.lt_of_lt_of_le (positional_lt isNumeral) fits
    obtain ⟨front, last⟩ := List.forall_mem_append.mp isNumeral
    have positive : 0 < base := Nat.zero_lt_of_lt (digitValue_lt (last c List.mem_cons_self))
    have shorter : base ^ digits.length ≤ base ^ (digits ++ [c]).length :=
      Nat.pow_le_pow_right positive (by simp)
    obtain ⟨code, isCode, value⟩ := ih front (shorter.trans fits)
    rw [positional_concat, ← value] at bound
    refine ⟨code * base.toUInt32 + (digitValue c).toUInt32, ?_, ?_⟩
    · rw [positional32?] at isCode ⊢
      rw [List.foldlM_append, isCode]
      simp [bound]
    · rw [positional_concat, ← value, ← Nat.mod_eq_of_lt bound]
      simp [UInt32.size, Nat.add_mod, Nat.mul_mod]

end GoFront.Lexer
