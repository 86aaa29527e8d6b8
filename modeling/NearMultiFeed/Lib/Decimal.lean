import Mathlib.Algebra.Group.Nat.Defs

/-!
# Decimal numbers

Unsigned numbers in text: decimal digits, after an optional plus sign, below a bound.
-/
namespace Decimal

/-- The number some decimal digits stand for. -/
def ofDigits (digits : List Char) : Option ℕ :=
  if digits ≠ [] ∧ digits.all Char.isDigit = true then some (Nat.ofDigitChars 10 digits 0)
  else none

def unsigned : List Char → List Char
  | '+' :: digits => digits
  | cs => cs

/-- A text, read as a number below `bound`. -/
def parse (bound : ℕ) (s : String) : Option ℕ :=
  (ofDigits (unsigned s.toList)).bind fun n => if n < bound then some n else none

theorem unsigned_toDigits (n : ℕ) : unsigned (Nat.toDigits 10 n) = Nat.toDigits 10 n := by
  cases shape : Nat.toDigits 10 n with
  | nil => rfl
  | cons c digits =>
      have listed : c ∈ Nat.toDigits 10 n := by
        rw [shape]
        exact List.mem_cons_self
      have digit := Nat.isDigit_of_mem_toDigits (by decide) (by decide) listed
      unfold unsigned
      split
      · next same =>
          cases same
          cases digit
      · rfl

theorem ofDigits_toDigits (n : ℕ) : ofDigits (Nat.toDigits 10 n) = some n := by
  have digits : (Nat.toDigits 10 n).all Char.isDigit = true := by
    apply List.all_eq_true.mpr
    intro c hc
    exact Nat.isDigit_of_mem_toDigits (by decide) (by decide) hc
  rw [ofDigits, if_pos ⟨Nat.toDigits_ne_nil, digits⟩, Nat.ofDigitChars_ten_toDigits]

/-- What is written is read back. -/
theorem parse_repr {bound n : ℕ} (below : n < bound) : parse bound (Nat.repr n) = some n := by
  rw [parse, Nat.toList_repr, unsigned_toDigits, ofDigits_toDigits, Option.bind_some,
    if_pos below]

end Decimal
