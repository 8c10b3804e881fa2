/-! Byte spans of source text and values that carry one. -/
namespace GoFront

/-- The bytes from `start` up to, and not including, `stop`. -/
structure Span where
  start : Nat
  stop : Nat
  deriving DecidableEq, Repr, Inhabited

namespace Span

def merge (a b : Span) : Span := ⟨min a.start b.start, max a.stop b.stop⟩

/-- The span moved `n` bytes to the right. -/
def shift (n : Nat) (a : Span) : Span := ⟨n + a.start, n + a.stop⟩

/-- Bytes covered; none if the ends are in the wrong order. -/
def length (a : Span) : Nat := a.stop - a.start

@[simp] theorem shift_zero (a : Span) : a.shift 0 = a := by simp [shift]

@[simp] theorem shift_shift (m n : Nat) (a : Span) : (a.shift n).shift m = a.shift (m + n) := by
  simp [shift, Nat.add_assoc]

end Span

/-- A value and the span of source text it stands for. -/
structure Spanned (α : Type) where
  value : α
  span : Span
  deriving DecidableEq, Repr

end GoFront
