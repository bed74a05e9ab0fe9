import ConnectionPool.Double

/-!
# Values

A `Value` is what a statement binds and what a column of a row holds.  There are
the five storage classes of the engine and no others.

Two equalities matter.  The propositional one tells any two words of a double
apart.  `Value.eq` compares doubles as numbers, so that a NaN differs from itself
and the two zeros are equal; values of different classes are never equal, also
when they name the same number.
-/

namespace ConnectionPool

/-- A value of one of the engine's storage classes. -/
inductive Value where
  /-- The absence of a value. -/
  | null
  /-- A signed 64-bit integer. -/
  | integer (i : Int64)
  /-- A double precision number. -/
  | real (x : Double)
  /-- Text. -/
  | text (s : String)
  /-- Bytes. -/
  | blob (bytes : List UInt8)
  deriving DecidableEq, Repr, Inhabited

namespace Value

/-! ## Views -/

/-- The value is null. -/
def isNull : Value → Bool
  | null => true
  | _ => false

/-- The integer, of an integer. -/
def integer? : Value → Option Int64
  | integer i => some i
  | _ => none

/-- The number, of a real or an integer.  An integer goes to the nearest double. -/
def real? : Value → Option Double
  | real x => some x
  | integer i => some (Double.ofInt i.toInt)
  | _ => none

/-- The text, of a text. -/
def text? : Value → Option String
  | text s => some s
  | _ => none

/-- The bytes, of a blob. -/
def blob? : Value → Option (List UInt8)
  | blob b => some b
  | _ => none

/-! ## Making values -/

/-- A truth value is stored as one or zero. -/
def ofBool (b : Bool) : Value := integer (if b then 1 else 0)

/-- A missing value is stored as null. -/
def ofOption : Option Value → Value
  | some v => v
  | none => null

/-! ## Equality -/

/-- Equality with doubles compared as numbers. -/
def eq : Value → Value → Bool
  | null, null => true
  | integer i, integer j => i == j
  | real x, real y => x.eq y
  | text s, text t => s == t
  | blob b, blob c => b == c
  | _, _ => false

end Value

end ConnectionPool
