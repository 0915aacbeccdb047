import Mathlib.Logic.Function.Basic

namespace ConcurrentQueue.SizeT

/-!
# Arithmetic on a 64-bit `std::size_t`

Values are natural numbers below `2 ^ 64`; every operation reduces its result
modulo `2 ^ 64`, and `signed` is the conversion to a 64-bit `std::ptrdiff_t`.
The lemmas say where the wrapped operations agree with unbounded arithmetic.
-/

/-- One more than the greatest value of the type. -/
def modulus : Nat := 18446744073709551616

/-- The least value that the signed type of the same width does not have. -/
def halfRange : Nat := 9223372036854775808

/-- The signed type has half the values of the type. -/
theorem modulus_eq : modulus = halfRange + halfRange :=
  rfl

/-- The value a natural number has after conversion to the type. -/
def wrap (value : Nat) : Nat :=
  value % modulus

/-- Wrapping addition. -/
def add (left right : Nat) : Nat :=
  wrap (left + right)

/-- Wrapping subtraction. -/
def sub (left right : Nat) : Nat :=
  wrap (left + (modulus - wrap right))

/-- Wrapping multiplication. -/
def mul (left right : Nat) : Nat :=
  wrap (left * right)

/-- Conversion to the signed type of the same width. -/
def signed (value : Nat) : Int :=
  if wrap value < halfRange then
    wrap value
  else
    (wrap value : Int) - modulus

/-- Conversion of a value of the type changes nothing. -/
theorem wrap_of_lt {value : Nat} (bound : value < modulus) :
    wrap value = value :=
  Nat.mod_eq_of_lt bound

/-- Adding before or after conversion is the same. -/
theorem add_wrap (left right : Nat) :
    add (wrap left) right = wrap (left + right) := by
  simp [add, wrap]

/-- Multiplying before or after conversion is the same. -/
theorem mul_wrap (left right : Nat) :
    mul left (wrap right) = wrap (left * right) := by
  simp [mul, wrap, Nat.mul_mod]

/-- Addition is exact while the sum is a value of the type. -/
theorem add_of_lt
    {left right : Nat}
    (bound : left + right < modulus) :
    add left right = left + right :=
  wrap_of_lt bound

/-- Subtraction is exact where the difference is not negative. -/
theorem sub_of_le
    {left right : Nat}
    (ordered : right ≤ left)
    (bound : left < modulus) :
    sub left right = left - right := by
  unfold sub wrap modulus at *
  omega

/--
The signed reading of a wrapped difference is the true difference whenever
that lies within half the range of the type.
-/
theorem signed_sub
    {left right : Nat}
    (notBelow : right < left + halfRange)
    (notAbove : left < right + halfRange) :
    signed (sub (wrap left) (wrap right)) = (left : Int) - right := by
  unfold signed sub wrap modulus halfRange at *
  split <;> omega

/-- Two numbers less than one full range apart agree only if they are equal. -/
theorem wrap_injective
    {left right : Nat}
    (ordered : left ≤ right)
    (near : right < left + modulus)
    (same : wrap left = wrap right) :
    left = right := by
  unfold wrap modulus at *
  omega

end ConcurrentQueue.SizeT
