import ConnectionPool.Arguments
import ConnectionPool.Json

/-!
# Values and arguments as JSON

Values and arguments are written without tags.  A blob is written as an array of
byte numbers, positional arguments as an array and named ones as an object.

`Value.decode?` and `Arguments.decode?` read that form back by trying the classes
in a fixed order.  What was written tells the classes apart: only null is `null`,
an integer has neither point nor exponent while a finite real has one of them,
only text is a string and only a blob is an array.

`Value.ofJson` is another thing: it makes a value to bind out of any JSON value.
Truth values become integers, and arrays and objects become their compact text
with the members of objects in order of name.
-/

namespace ConnectionPool

/-! ## Numbers in range -/

/-- An integer as a signed 64-bit one, when it is in range. -/
def int64? (i : Int) : Option Int64 :=
  if Int64.minValue.toInt ≤ i ∧ i ≤ Int64.maxValue.toInt then some (Int64.ofInt i) else none

namespace Json

/-- The integer, of an integer literal of at least zero and less than `bound`. -/
def natBelow? (bound : Nat) : Json → Option Nat
  | int i => if 0 ≤ i ∧ i < bound then some i.toNat else none
  | _ => none

/-- The number, of any number. -/
def double? : Json → Option Double
  | int i => some (Double.ofInt i)
  | real x => some x
  | _ => none

end Json

namespace Value

/-- A value as JSON, without a tag. -/
def encode : Value → Json
  | null => .null
  | integer i => .int i.toInt
  | real x => .real x
  | text s => .str s
  | blob b => .arr (b.map fun byte => .int byte.toNat)

/-- The integer of an integer literal in the signed 64-bit range. -/
def decodeInteger? : Json → Option Int64
  | .int i => int64? i
  | _ => Option.none

/-- The bytes of an array of byte numbers. -/
def decodeBlob? : Json → Option (List UInt8)
  | .arr items => items.mapM fun j => (j.natBelow? 256).map UInt8.ofNat
  | _ => Option.none

/-- The value that JSON without a tag stands for.  Truth values and objects stand
for none. -/
def decode? (j : Json) : Option Value :=
  match j with
  | .null => some null
  | .str s => some (text s)
  | j =>
    (decodeInteger? j).map integer
      <|> j.double?.map real
      <|> (decodeBlob? j).map blob

/-- The value that binds any JSON value. -/
def ofJson : Json → Value
  | .null => null
  | .bool b => ofBool b
  | .str s => text s
  | .int i =>
    match int64? i with
    | some n => integer n
    | Option.none => real (Double.ofInt i)
  | .real x => real x
  | j => text j.sorted.text

end Value

namespace Arguments

/-- Arguments as JSON, without a tag. -/
def encode : Arguments → Json
  | positional vs => .arr (vs.map Value.encode)
  | named r => .obj (r.entries.map fun e => (e.1, e.2.encode))

/-- The arguments that JSON without a tag stands for. -/
def decode? : Json → Option Arguments
  | .arr items => (items.mapM Value.decode?).map positional
  | .obj members =>
    (members.mapM fun (m : String × Json) => (Value.decode? m.2).map fun v => (m.1, v)).map
      fun entries => named (Record.ofList entries)
  | _ => Option.none

end Arguments

namespace RunResult

/-- A result as JSON: its two fields in order. -/
def encode (r : RunResult) : Json :=
  .obj [("rows_affected", .int r.rowsAffected.toNat), ("last_insert_id", .int r.lastInsertId.toInt)]

end RunResult

end ConnectionPool
