/-!
# Double precision numbers

A `Double` is a 64-bit word read as an IEEE binary number: one sign bit, eleven
exponent bits, fifty-two fraction bits.  Nothing here goes through machine
arithmetic.  A finite magnitude is a pair `m · 2 ^ q` of a natural number and an
integer exponent, and rounding is done on exact ratios, so that every statement
about these numbers is a statement about natural numbers.

* `Double.Magnitude` and `magnitude` decode the word without its sign.
* `roundRatio` gives the magnitude word of the double nearest a ratio, a tie
  going to the even word.  A word of `infinityWord` or more means the ratio is
  too large.
* `ofInt` converts an integer, `eq` compares as the standard asks: a NaN
  differs from everything and the two zeros are equal.

The encoding is one formula.  `m · 2 ^ q` with `m < 2 ^ 53` and `-1074 ≤ q` is
written as `(q + 1074) · 2 ^ 52 + m`, for normal and subnormal numbers alike,
because the implicit leading bit of a normal `m` carries into the exponent field.
A mantissa rounded up to `2 ^ 53` carries in the same way.
-/

namespace ConnectionPool

/-- A double precision number, held as the word that encodes it. -/
structure Double where
  /-- Sign, exponent and fraction, from the most significant bit down. -/
  bits : UInt64
  deriving DecidableEq, Repr, Inhabited

namespace Double

/-! ## The word -/

/-- The magnitude word of infinity.  Larger magnitude words encode NaNs. -/
def infinityWord : Nat := 0x7ff0000000000000

/-- How many fractions there are, which is the implicit bit of a normal number. -/
def fractionCount : Nat := 0x10000000000000

/-- The value of the sign bit. -/
def signWord : Nat := 0x8000000000000000

/-- The word without its sign bit. -/
def magnitudeWord (x : Double) : Nat := x.bits.toNat % signWord

/-- The sign bit is set. -/
def isNegative (x : Double) : Bool := signWord ≤ x.bits.toNat

/-- The number is not a number. -/
def isNaN (x : Double) : Bool := infinityWord < x.magnitudeWord

/-- The number is neither infinite nor a NaN. -/
def isFinite (x : Double) : Bool := x.magnitudeWord < infinityWord

/-- The double with a given sign and magnitude word. -/
def ofWord (negative : Bool) (word : Nat) : Double :=
  ⟨UInt64.ofNat (if negative then signWord + word else word)⟩

/-- Positive zero. -/
def zero : Double := ⟨0⟩

/-! ## Magnitudes -/

/-- The number `mantissa · 2 ^ exponent`. -/
structure Magnitude where
  /-- The integer factor. -/
  mantissa : Nat
  /-- The power of two. -/
  exponent : Int
  deriving DecidableEq, Repr

/-- The magnitude that a finite magnitude word encodes. -/
def magnitudeOfWord (word : Nat) : Magnitude :=
  let field : Nat := word / fractionCount
  let fraction : Nat := word % fractionCount
  if field = 0 then ⟨fraction, -1074⟩ else ⟨fractionCount + fraction, (field : Int) - 1075⟩

/-- The magnitude of a finite double. -/
def magnitude (x : Double) : Magnitude := magnitudeOfWord x.magnitudeWord

/-- The magnitude as a ratio of natural numbers. -/
def Magnitude.ratio (m : Magnitude) : Nat × Nat :=
  (m.mantissa * Nat.pow 2 m.exponent.toNat, Nat.pow 2 (-m.exponent).toNat)

/-! ## Rounding -/

/-- The integer nearest `num / den`, a tie going to the even one. -/
def roundDiv (num den : Nat) : Nat :=
  let floor := num / den
  let rest := 2 * (num % den)
  if rest < den then floor
  else if den < rest then floor + 1
  else if floor % 2 = 0 then floor else floor + 1

/-- The largest exponent `e` with `2 ^ e ≤ num / den`, for positive arguments. -/
def floorLog2 (num den : Nat) : Int :=
  let guess : Int := (Nat.log2 num : Int) - Nat.log2 den
  if den * Nat.pow 2 guess.toNat ≤ num * Nat.pow 2 (-guess).toNat then guess else guess - 1

/-- The magnitude word of the double nearest `num / den`.  The quotient is
counted in units of its last place, which is never below the smallest subnormal. -/
def roundRatio (num den : Nat) : Nat :=
  if num = 0 then 0
  else
    let unit := max (floorLog2 num den - 52) (-1074)
    let mantissa := roundDiv (num * Nat.pow 2 (-unit).toNat) (den * Nat.pow 2 unit.toNat)
    (unit + 1074).toNat * fractionCount + mantissa

/-- The double nearest an integer.  A zero is positive. -/
def ofInt (i : Int) : Double := ofWord (decide (i < 0)) (roundRatio i.natAbs 1)

/-! ## Comparison -/

/-- Equality of numbers: a NaN differs from everything, and the zeros are equal. -/
def eq (x y : Double) : Bool :=
  !x.isNaN && !y.isNaN &&
    (decide (x.bits = y.bits) || (x.magnitudeWord == 0 && y.magnitudeWord == 0))

theorem eq_comm (x y : Double) : x.eq y = y.eq x := by
  unfold eq
  rw [show decide (x.bits = y.bits) = decide (y.bits = x.bits) from
    decide_eq_decide.mpr ⟨Eq.symm, Eq.symm⟩,
    Bool.and_comm (!x.isNaN) (!y.isNaN),
    Bool.and_comm (x.magnitudeWord == 0) (y.magnitudeWord == 0)]

theorem eq_self (x : Double) : x.eq x = !x.isNaN := by
  simp [eq]

example : roundRatio 1 1 = 0x3ff0000000000000 := by decide
example : roundRatio (2 ^ 53 + 1) 1 = roundRatio (2 ^ 53) 1 := by decide
example : roundRatio (2 ^ 64 - 1) 1 = 0x43f0000000000000 := by decide
example : (ofInt (-2)).bits = 0xc000000000000000 := by decide

end Double

end ConnectionPool
