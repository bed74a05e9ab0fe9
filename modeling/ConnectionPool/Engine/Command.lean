import ConnectionPool.IsolationMode
import ConnectionPool.Value

/-!
# Commands of the engine

A `Command` is one statement after reading.  A table has two columns: an integer
key and one more.  A term is a value or the number of the slot that a placeholder
stands for.

Slots are numbered from one.  A numbered placeholder uses its slot; any other
takes the one after the largest so far, except that a name seen before keeps its
slot.  `Slots` holds the spelling that first named each slot; a bare question mark
names none.
-/

namespace ConnectionPool.Engine

/-! ## Slots -/

/-- The spelling that names each slot, in order of slots. -/
abbrev Slots := List (Option String)

/-- The number after a question mark, of a numbered placeholder. -/
def numberedSlot? (spelling : List Char) : Option Nat :=
  match spelling with
  | '?' :: c :: rest => (String.ofList (c :: rest)).toNat?
  | _ => none

/-- Gives slot `n`, counted from one, the name if it has none. -/
def Slots.nameSlot (slots : Slots) (n : Nat) (name : String) : Slots :=
  let slots := slots ++ List.replicate (n - slots.length) none
  slots.set (n - 1) (some ((slots[n - 1]?.join).getD name))

/-- The slot of a placeholder, and the slots with it. -/
def Slots.place (slots : Slots) (spelling : List Char) : Nat × Slots :=
  match numberedSlot? spelling with
  | some n => (n, slots.nameSlot n (String.ofList spelling))
  | none =>
    if spelling = ['?'] then (slots.length + 1, slots ++ [none])
    else
      match slots.findIdx? (· == some (String.ofList spelling)) with
      | some i => (i + 1, slots)
      | none => (slots.length + 1, slots ++ [some (String.ofList spelling)])

/-! ## Tables -/

/-- The column of a table beside its key. -/
structure Column where
  /-- The name of the column. -/
  name : String
  /-- The column takes integers as integers. -/
  isInteger : Bool
  /-- The column holds no null. -/
  notNull : Bool
  /-- The table whose keys the column refers to.  The reference is checked when the
  transaction ends. -/
  parent : Option String
  deriving DecidableEq, Repr

/-- The shape of a table. -/
structure Layout where
  /-- The name of the table. -/
  name : String
  /-- The name of the key. -/
  key : String
  /-- The other column. -/
  column : Column
  deriving DecidableEq, Repr

/-! ## Commands -/

/-- A value in a command. -/
inductive Term where
  /-- A value written out. -/
  | literal (v : Value)
  /-- The value bound to a slot. -/
  | slot (n : Nat)
  deriving DecidableEq, Repr

/-- What a query gives of each row. -/
inductive Selection where
  /-- Columns by name. -/
  | columns (names : List String)
  /-- Both columns. -/
  | every
  /-- The number of rows, under a name. -/
  | count (name : String)
  deriving DecidableEq, Repr

/-- One statement. -/
inductive Command where
  /-- Makes a table. -/
  | create (layout : Layout)
  /-- Adds a row with values for the named columns. -/
  | insert (table : String) (columns : List String) (terms : List Term)
  /-- Sets a column of every row, or of the row with a key. -/
  | update (table column : String) (term : Term) (key : Option Term)
  /-- Removes every row, or the row with a key. -/
  | delete (table : String) (key : Option Term)
  /-- Reads every row in order of key, or the row with a key. -/
  | query (selection : Selection) (table : String) (key : Option Term)
  /-- Computes one row from terms, with the names of its columns. -/
  | compute (columns : List (String × Term))
  /-- Opens a transaction. -/
  | start (mode : IsolationMode)
  /-- Ends the transaction and keeps what it did. -/
  | commit
  /-- Ends the transaction and discards what it did. -/
  | rollback
  /-- Rebuilds the storage. -/
  | vacuum
  deriving DecidableEq, Repr

end ConnectionPool.Engine
