/-! # Powers

Powers of natural numbers, by repeated multiplication. -/

namespace Keyset.Number

/-- The product of `exponent` copies of `base`. -/
def power (base exponent : Nat) : Nat := Nat.pow base exponent

/-- A power of two. -/
def twoTo (exponent : Nat) : Nat := power 2 exponent

/-- A power of ten. -/
def tenTo (exponent : Nat) : Nat := power 10 exponent

theorem power_zero (base : Nat) : power base 0 = 1 := rfl

theorem power_succ (base exponent : Nat) :
    power base (exponent + 1) = power base exponent * base := rfl

/-- A power of a positive number is positive. -/
theorem power_pos {base : Nat} (h : 0 < base) (exponent : Nat) : 0 < power base exponent := by
  induction exponent with
  | zero => exact Nat.one_pos
  | succ n ih =>
    rw [power_succ]
    exact Nat.mul_pos ih h

/-- Exponents add up. -/
theorem power_add (base m n : Nat) : power base (m + n) = power base m * power base n := by
  induction n with
  | zero => rw [power_zero, Nat.mul_one, Nat.add_zero]
  | succ n ih => rw [← Nat.add_assoc, power_succ, power_succ, ih, Nat.mul_assoc]

theorem twoTo_pos (exponent : Nat) : 0 < twoTo exponent := power_pos (by decide) exponent

theorem tenTo_pos (exponent : Nat) : 0 < tenTo exponent := power_pos (by decide) exponent

end Keyset.Number
