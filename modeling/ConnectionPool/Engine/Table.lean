import ConnectionPool.Engine.Affinity
import ConnectionPool.Engine.Command

/-!
# Tables

A table holds rows in order of key.  The operations say which rows a statement
touches and which constraint it breaks; when a row reaches other connections is
decided elsewhere.

`Tables.danglingReference` is the check of references that is due when a
transaction ends: a value that is not null refers to no key of its parent.
-/

namespace ConnectionPool.Engine

/-- A table with its rows. -/
structure Table where
  /-- Its shape. -/
  layout : Layout
  /-- Its rows, by increasing key. -/
  rows : List (Int64 × Value)
  deriving DecidableEq, Repr

/-- The tables of a database, in the order they were made. -/
abbrev Tables := List Table

/-- A constraint that a row would break. -/
inductive Violation where
  /-- The key names no integer. -/
  | keyType
  /-- The key is taken. -/
  | duplicateKey (table key : String)
  /-- The column would hold a null. -/
  | nullColumn (table column : String)
  /-- A reference would be left without a parent. -/
  | reference
  deriving DecidableEq, Repr

namespace Table

/-- The key that the next row gets when none is asked for. -/
def nextKey (t : Table) : Int64 :=
  match t.rows.getLast? with
  | some (k, _) => k + 1
  | none => 1

/-- A value as the second column holds it. -/
def stored (t : Table) (v : Value) : Value :=
  if t.layout.column.isInteger then integerAffinity v else v

/-- The value may not stand in the second column. -/
def refuses (t : Table) (v : Value) : Bool := t.layout.column.notNull && v.isNull

/-- Puts a row where its key belongs. -/
def place (k : Int64) (v : Value) : List (Int64 × Value) → List (Int64 × Value)
  | [] => [(k, v)]
  | (j, w) :: rest => if j < k then (j, w) :: place k v rest else (k, v) :: (j, w) :: rest

/-- The key a new row asks for.  Null asks for the next one. -/
def askedKey (t : Table) (asked : Value) : Except Violation Int64 :=
  if asked.isNull then .ok t.nextKey
  else
    match integerKey? asked with
    | some k => .ok k
    | none => .error .keyType

/-- The table with a new row, and the row's key. -/
def insert (t : Table) (asked v : Value) : Except Violation (Table × Int64) := do
  let k ← t.askedKey asked
  if t.refuses v then throw (.nullColumn t.layout.name t.layout.column.name)
  if t.rows.any (·.1 == k) then throw (.duplicateKey t.layout.name t.layout.key)
  return ({ t with rows := place k (t.stored v) t.rows }, k)

/-- The row is meant: there is no condition, or its key satisfies it. -/
def matchesKey (condition : Option Value) (k : Int64) : Bool :=
  match condition with
  | none => true
  | some v => integerKey? v == some k

/-- The table with the second column set in the rows meant, and their number. -/
def update (t : Table) (v : Value) (condition : Option Value) : Except Violation (Table × Nat) :=
  let count := t.rows.countP fun r => matchesKey condition r.1
  if 0 < count ∧ t.refuses v then .error (.nullColumn t.layout.name t.layout.column.name)
  else
    let rows := t.rows.map fun r => if matchesKey condition r.1 then (r.1, t.stored v) else r
    .ok ({ t with rows }, count)

/-- The table without the rows meant, and their number. -/
def delete (t : Table) (condition : Option Value) : Table × Nat :=
  let kept := t.rows.filter fun r => !matchesKey condition r.1
  ({ t with rows := kept }, t.rows.length - kept.length)

/-- The rows meant, in order of key. -/
def select (t : Table) (condition : Option Value) : List (Int64 × Value) :=
  t.rows.filter fun r => matchesKey condition r.1

/-- The value of a named column in a row, when there is such a column. -/
def column? (t : Table) (name : String) (row : Int64 × Value) : Option Value :=
  if name == t.layout.key then some (.integer row.1)
  else if name == t.layout.column.name then some row.2
  else none

end Table

namespace Tables

/-- The table with a name. -/
def get? (ts : Tables) (name : String) : Option Table := ts.find? (·.layout.name == name)

/-- The names of the tables. -/
def names (ts : Tables) : List String := ts.map (·.layout.name)

/-- The tables with one of them replaced by a table of the same name. -/
def put (ts : Tables) (t : Table) : Tables :=
  ts.map fun u => if u.layout.name == t.layout.name then t else u

/-- A row of some table refers to a key that its parent does not have. -/
def danglingReference (ts : Tables) : Bool :=
  ts.any fun t =>
    match t.layout.column.parent with
    | none => false
    | some parent =>
      let keys := ((get? ts parent).map (·.rows.map Prod.fst)).getD []
      t.rows.any fun r =>
        !r.2.isNull &&
          match r.2.integer? with
          | some k => !keys.contains k
          | none => true

end Tables

end ConnectionPool.Engine
