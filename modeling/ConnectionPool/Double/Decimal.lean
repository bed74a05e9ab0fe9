import ConnectionPool.Double

/-!
# Doubles and decimal numerals

A `Decimal` is `digits · 10 ^ exponent`.  `Double.ofDecimal?` reads one to the
nearest double, and `Double.shortest` writes a finite double as the decimal with
the fewest digits that reads back as the same double, the nearest of those.

Writing searches: for one digit, two digits, up to seventeen, it takes the two
neighbours of the value on the grid of decimals with that many digits and keeps
those that read back.  Should no grid have one, the exact decimal expansion is
written.  So what is written reads back by the way it was found, and not by an
argument about how many digits are enough.
-/

namespace ConnectionPool

/-- The number `digits · 10 ^ exponent`. -/
structure Decimal where
  /-- The digits, as a natural number. -/
  digits : Nat
  /-- The power of ten. -/
  exponent : Int
  deriving DecidableEq, Repr

namespace Decimal

/-- The decimal digits of a number, most significant first; zero has one digit. -/
def digitsOf (n : Nat) : List Char := Nat.toDigits 10 n

/-- The value as a ratio of natural numbers. -/
def ratio (d : Decimal) : Nat × Nat :=
  (d.digits * Nat.pow 10 d.exponent.toNat, Nat.pow 10 (-d.exponent).toNat)

/-- Drops trailing zeros of the digits, at most `fuel` of them. -/
def trim : (fuel : Nat) → Decimal → Decimal
  | 0, d => d
  | fuel + 1, d =>
    if d.digits ≠ 0 ∧ d.digits % 10 = 0 then trim fuel ⟨d.digits / 10, d.exponent + 1⟩ else d

end Decimal

namespace Double

/-- The magnitude word of the double nearest a decimal, `none` when that is too
large.  Exponents far outside the range of doubles are decided before any power
of ten is computed. -/
def wordOfDecimal? (d : Decimal) : Option Nat :=
  if d.digits = 0 then some 0
  else
    let size : Int := (Decimal.digitsOf d.digits).length + d.exponent
    if 400 < size then none
    else if size < -400 then some 0
    else
      let word := roundRatio d.ratio.1 d.ratio.2
      if word < infinityWord then some word else none

/-- The double nearest a signed decimal, `none` when it is too large. -/
def ofDecimal? (negative : Bool) (d : Decimal) : Option Double :=
  (wordOfDecimal? d).map (ofWord negative)

/-! ## The fewest digits -/

/-- The number of digits before the decimal point of `num / den`: the `k` with
`10 ^ (k - 1) ≤ num / den < 10 ^ k`.  The guess comes from the binary logarithm
and is corrected by one. -/
def decimalSize (num den : Nat) : Int :=
  let guess : Int := floorLog2 num den * 30103 / 100000 + 1
  if den * Nat.pow 10 guess.toNat ≤ num * Nat.pow 10 (-guess).toNat then guess + 1 else guess

/-- The decimals of exponent `e` next to `num / den`, below or equal and above. -/
def gridNeighbours (num den : Nat) (e : Int) : Decimal × Decimal :=
  let floor := num * Nat.pow 10 (-e).toNat / (den * Nat.pow 10 e.toNat)
  (⟨floor, e⟩, ⟨floor + 1, e⟩)

/-- The neighbour of `num / den` on the grid of exponent `e` that reads back as
`word`.  Of two the nearer is taken, and at equal distance the one with an even
last digit. -/
def onGrid? (word num den : Nat) (e : Int) : Option Decimal :=
  let (low, high) := gridNeighbours num den e
  match wordOfDecimal? low == some word, wordOfDecimal? high == some word with
  | false, false => none
  | true, false => some low
  | false, true => some high
  | true, true =>
    let doubled := 2 * (num * Nat.pow 10 (-e).toNat)
    let middle := (low.digits + high.digits) * (den * Nat.pow 10 e.toNat)
    if doubled < middle then some low
    else if middle < doubled then some high
    else if low.digits % 2 = 0 then some low else some high

/-- The exact value of a magnitude as a decimal. -/
def exactDecimal (m : Magnitude) : Decimal :=
  ⟨m.mantissa * Nat.pow 2 m.exponent.toNat * Nat.pow 5 (-m.exponent).toNat, -(-m.exponent).toNat⟩

/-- The decimal with the fewest digits that reads back as a finite, nonzero
magnitude word. -/
def shortestOfWord (word : Nat) : Decimal :=
  let m := magnitudeOfWord word
  let (num, den) := m.ratio
  let size := decimalSize num den
  let found := (List.range 17).findSome? fun (n : Nat) => onGrid? word num den (size - (n + 1))
  (found.getD (exactDecimal m)).trim 800

/-- The decimal with the fewest digits that reads back as the magnitude of a
finite double. -/
def shortest (x : Double) : Decimal :=
  if x.magnitudeWord = 0 then ⟨0, 0⟩ else shortestOfWord x.magnitudeWord

/-! ## The layout of a numeral -/

/-- How a decimal is laid out as text. -/
structure Layout where
  /-- The least exponent, that of the leading digit, written positionally. -/
  leastPlain : Int
  /-- The greatest exponent written positionally. -/
  greatestPlain : Int
  /-- What follows an integer written positionally. -/
  integerTail : String
  /-- What stands before a positive exponent. -/
  positiveMark : String
  /-- What stands before the digits of a negative exponent. -/
  negativeMark : String

/-- The digits of an integer with `n` zeros after them. -/
def padded (digits : List Char) (n : Nat) : List Char := digits ++ List.replicate n '0'

/-- A decimal as text, without a sign. -/
def Layout.write (l : Layout) (d : Decimal) : String :=
  let digits := Decimal.digitsOf d.digits
  let count : Int := digits.length
  let lead := count - 1 + d.exponent
  if d.digits = 0 then "0" ++ l.integerTail
  else if lead < l.leastPlain ∨ l.greatestPlain < lead then
    let fraction := digits.drop 1
    let mantissa := digits.take 1 ++ if fraction.isEmpty then [] else '.' :: fraction
    String.ofList mantissa ++ (if lead < 0 then l.negativeMark else l.positiveMark)
      ++ toString lead.natAbs
  else if 0 ≤ d.exponent then String.ofList (padded digits d.exponent.toNat) ++ l.integerTail
  else
    let places := (-d.exponent).toNat
    if places < digits.length then
      String.ofList (digits.take (digits.length - places) ++
        '.' :: digits.drop (digits.length - places))
    else String.ofList ('0' :: '.' :: (List.replicate (places - digits.length) '0' ++ digits))

end Double

end ConnectionPool
