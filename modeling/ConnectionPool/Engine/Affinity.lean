import ConnectionPool.Double.Decimal
import ConnectionPool.Value

/-!
# Integer affinity

A column of integers takes a value that names an integer as that integer, whatever
class the value comes in: a real without fraction, or text that reads as a number.
Every other value it keeps as it is.

Comparison with an integer column uses the same rule, so a key is found by `2`,
`2.0` and `'2'` alike.
-/

namespace ConnectionPool

namespace Double

/-- The integer a finite double equals, inside the signed 64-bit range without its
two ends. -/
def integer? (x : Double) : Option Int64 :=
  if x.isFinite then
    let (num, den) := x.magnitude.ratio
    if num % den = 0 ∧ num / den < Int64.maxValue.toInt.toNat then
      some (Int64.ofInt (if x.isNegative then -(num / den : Int) else (num / den : Int)))
    else none
  else none

end Double

namespace Engine

/-! ## Numerals -/

/-- A numeral: its sign, its digits with the point removed and the power of ten. -/
structure Numeral where
  /-- A minus sign stands in front. -/
  negative : Bool
  /-- The digits, before and after the point. -/
  digits : List Char
  /-- The power of ten. -/
  exponent : Int
  deriving DecidableEq, Repr

/-- The value of decimal digits. -/
def digitsValue (cs : List Char) : Nat := cs.foldl (fun n c => 10 * n + (c.toNat - '0'.toNat)) 0

/-- A sign, when there is one, and what follows. -/
def splitSign : List Char → Bool × List Char
  | '-' :: rest => (true, rest)
  | '+' :: rest => (false, rest)
  | cs => (false, cs)

/-- The exponent that a text is, all of it: nothing, or a mark with digits. -/
def exponent? : List Char → Option Int
  | [] => some 0
  | c :: rest =>
    if c = 'e' ∨ c = 'E' then
      let (negative, digits) := splitSign rest
      if digits.isEmpty ∨ !digits.all Char.isDigit then none
      else some (if negative then -(digitsValue digits : Int) else (digitsValue digits : Int))
    else none

/-- The numeral that a text is, with blanks around it. -/
def Numeral.ofText? (s : String) : Option Numeral :=
  let inner := (s.toList.dropWhile Char.isWhitespace).reverse.dropWhile Char.isWhitespace
  let (negative, cs) := splitSign inner.reverse
  let whole := cs.takeWhile Char.isDigit
  let rest := cs.dropWhile Char.isDigit
  let (fraction, tail) := match rest with
    | '.' :: rest => (rest.takeWhile Char.isDigit, rest.dropWhile Char.isDigit)
    | rest => ([], rest)
  if whole.isEmpty ∧ fraction.isEmpty then none
  else (exponent? tail).map fun e => ⟨negative, whole ++ fraction, e - fraction.length⟩

/-- The number a numeral names: an integer where it can be one. -/
def Numeral.value (n : Numeral) : Value :=
  let i : Int := if n.negative then -(digitsValue n.digits : Int) else digitsValue n.digits
  if n.exponent = 0 ∧ Int64.minValue.toInt ≤ i ∧ i ≤ Int64.maxValue.toInt then .integer (Int64.ofInt i)
  else
    match Double.ofDecimal? n.negative ⟨digitsValue n.digits, n.exponent⟩ with
    | some x =>
      match x.integer? with
      | some i => .integer i
      | none => .real x
    | none => .real (Double.ofWord n.negative Double.infinityWord)

/-! ## Affinity -/

/-- A value as a column of integers holds it. -/
def integerAffinity : Value → Value
  | .real x =>
    match x.integer? with
    | some i => .integer i
    | none => .real x
  | .text s =>
    match Numeral.ofText? s with
    | some n => n.value
    | none => .text s
  | v => v

/-- The integer a value names, when it names one. -/
def integerKey? (v : Value) : Option Int64 := (integerAffinity v).integer?

end Engine

end ConnectionPool
