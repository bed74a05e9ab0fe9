import ConnectionPool.Engine.Fault
import ConnectionPool.Engine.Lock

/-!
# Sessions

A `Session` is one native connection to a storage.  Outside a transaction each
statement is a transaction of its own; `start` opens one that lasts until it is
committed or rolled back.

A session that has written works on a `draft` of the tables.  Others see the
tables of the storage, which `finish` replaces by the draft.  To do so it needs the
storage for itself.  Because readers keep their locks until their transaction ends,
nobody sees the tables change under a transaction.

A session remembers the names of the tables it knows of.  A table that is not among
them is looked for again, when the storage can be read at that moment.

It also remembers the statements it has prepared.  One that is executed again is not
looked at anew: it asks for its lock first, and only then finds out what has become
of its table.  It is forgotten when its table turns out to be made already.  Undoing the
making of a table forgets all statements, and `vacuum` forgets the tables.
-/

namespace ConnectionPool.Engine

/-- What the sessions of one database share. -/
structure Storage where
  /-- The committed tables. -/
  tables : Tables := []
  /-- The locks held. -/
  locks : Locks := []
  deriving Inhabited

/-- One native connection. -/
structure Session where
  /-- The storage it works on, by number. -/
  storage : Nat
  /-- A transaction was opened and has not ended. -/
  inTransaction : Bool := false
  /-- The tables as the session sees them, once it has written. -/
  draft : Option Tables := none
  /-- The names of the tables the session knows of, once it has looked. -/
  catalog : Option (List String) := none
  /-- The statements it has prepared, by the text they stand in and their place there. -/
  prepared : List (String × Nat) := []
  /-- The number of rows the last statement that could change rows changed. -/
  changes : Nat := 0
  /-- The key of the row inserted last. -/
  lastRow : Int64 := 0
  deriving Inhabited

/-! ## A session at its storage -/

/-- A session with the storage it works on. -/
structure Seat where
  /-- The number of the session. -/
  id : Nat
  /-- The session. -/
  session : Session
  /-- Its storage. -/
  storage : Storage

/-- Rows by column, in order. -/
abbrev Rows := List (List (String × Value))

/-- What a statement leads to. -/
abbrev Seat.Result := Seat × Except Fault Rows

namespace Seat

/-- The tables as the session sees them. -/
def view (s : Seat) : Tables := s.session.draft.getD s.storage.tables

/-- Asks for a lock. -/
def request (s : Seat) (level : LockLevel) : Seat × Bool :=
  let (locks, granted) := s.storage.locks.request s.id level
  ({ s with storage := { s.storage with locks } }, granted)

/-- Gives back the lock. -/
def release (s : Seat) : Seat :=
  { s with storage := { s.storage with locks := s.storage.locks.release s.id } }

/-- Gives back the lock, unless a transaction keeps it. -/
def releaseOutside (s : Seat) : Seat := if s.session.inTransaction then s else s.release

/-- Sets the number of rows changed. -/
def setChanges (s : Seat) (n : Nat) : Seat := { s with session := { s.session with changes := n } }

/-- Ends the transaction and forgets the draft. -/
def discard (s : Seat) : Seat :=
  let made := s.session.draft.any fun ts => ts.length != s.storage.tables.length
  release { s with session := { s.session with
    inTransaction := false, draft := none
    catalog := if made then none else s.session.catalog
    prepared := if made then [] else s.session.prepared } }

/-- The session may write, or did. -/
def holdsWrite (s : Seat) : Bool := (s.storage.locks.level? s.id).any (· != .read)

/-- Ends the transaction and makes the draft the tables of the storage.  References
are checked first.  Then a session that holds the write lock needs the storage for
itself, whether or not a row changed. -/
def finish (s : Seat) : Seat × Option Fault :=
  if s.session.draft.any Tables.danglingReference then (s, some (.violation .reference))
  else
    let (s, granted) := if s.holdsWrite then s.request .exclusive else (s, true)
    if granted then
      (release { s with
        session := { s.session with inTransaction := false, draft := none }
        storage := { s.storage with tables := s.view } }, none)
    else (s, some .locked)

/-- Ends the transaction that a statement outside a transaction is. -/
def finishOutside (s : Seat) : Seat × Option Fault :=
  if s.session.inTransaction then (s, none)
  else
    match s.finish with
    | (s, none) => (s, none)
    | (s, some fault) => (s.discard, some fault)

/-! ## Knowing tables -/

/-- Looks at the tables, if the storage can be read now. -/
def look (s : Seat) : Seat × Bool :=
  if (s.request .read).2 then
    ({ s with session := { s.session with catalog := some s.view.names } }, true)
  else (s, false)

/-- Makes sure that the session knows of tables at all. -/
def informed (s : Seat) : Except Fault Seat :=
  if s.session.catalog.isSome then .ok s
  else
    match s.look with
    | (s, true) => .ok s
    | (_, false) => .error .locked

/-- The session knows of a table. -/
def knows (s : Seat) (table : String) : Bool := (s.session.catalog.getD []).contains table

/-- The statement was prepared before. -/
def hasPrepared (s : Seat) (statement : String × Nat) : Bool :=
  s.session.prepared.contains statement

/-- Remembers that a statement was prepared. -/
def remember (s : Seat) (statement : String × Nat) : Seat :=
  if s.hasPrepared statement then s
  else { s with session := { s.session with prepared := statement :: s.session.prepared } }

/-- Forgets that a statement was prepared. -/
def forget (s : Seat) (statement : String × Nat) : Seat :=
  { s with session := { s.session with prepared := s.session.prepared.erase statement } }

/-- The seat that knows of a table that must exist.  One that it does not know of is
looked for. -/
def resolve (s : Seat) (table : String) : Seat × Except Fault Table :=
  match s.informed with
  | .error fault => (s, .error fault)
  | .ok s =>
    let s := if s.knows table then s else s.look.1
    match s.view.get? table with
    | some t => if s.knows table then (s, .ok t) else (s, .error (.noSuchTable table))
    | none => (s, .error (.noSuchTable table))

/-! ## Statements -/

/-- Does work under a lock.  A session that is refused keeps what it held. -/
def withLock (s : Seat) (level : LockLevel) (work : Seat → Result) : Result :=
  match s.request level with
  | (s, true) => work { s with session := { s.session with catalog := some s.view.names } }
  | (s, false) => (s.releaseOutside, .error .locked)

/-- Replaces the tables the session sees. -/
def write (s : Seat) (tables : Tables) : Seat :=
  { s with session := { s.session with draft := some tables } }

/-- The outcome of a change to rows: how many, or the constraint in the way. -/
def afterChange (s : Seat) : Except Violation Nat → Result
  | .ok n =>
    match s.finishOutside with
    | (s, none) => (s.setChanges n, .ok [])
    | (s, some fault) => (s.setChanges 0, .error fault)
  | .error v => ((s.setChanges 0).releaseOutside, .error (.violation v))

/-- Changes rows of a table under the write lock. -/
def changeRows (s : Seat) (work : Seat → Result) : Result :=
  match s.withLock .write work with
  | (s, .error .locked) => (s.setChanges 0, .error .locked)
  | result => result

/-- The value given for a column, when one is. -/
def given? (columns : List String) (values : List Value) (name : String) : Option Value :=
  ((columns.zip values).find? (·.1 == name)).map (·.2)

/-- Adds a row. -/
def insert (s : Seat) (t : Table) (columns : List String) (values : List Value) : Result :=
  s.changeRows fun s =>
    let asked := (given? columns values t.layout.key).getD .null
    let v := (given? columns values t.layout.column.name).getD .null
    match (s.view.get? t.layout.name).getD t |>.insert asked v with
    | .ok (t, k) =>
      let s := s.write (s.view.put t)
      afterChange { s with session := { s.session with lastRow := k } } (.ok 1)
    | .error v => s.afterChange (.error v)

/-- Sets a column of rows. -/
def update (s : Seat) (t : Table) (v : Value) (key : Option Value) : Result :=
  s.changeRows fun s =>
    match (s.view.get? t.layout.name).getD t |>.update v key with
    | .ok (t, n) => (s.write (s.view.put t)).afterChange (.ok n)
    | .error v => s.afterChange (.error v)

/-- Removes rows. -/
def delete (s : Seat) (t : Table) (key : Option Value) : Result :=
  s.changeRows fun s =>
    let (t, n) := (s.view.get? t.layout.name).getD t |>.delete key
    (s.write (s.view.put t)).afterChange (.ok n)

/-- The seat that knows of no table of a name, which is to be made.  One that it does
know of makes it look whether that is still so. -/
def resolveNew (s : Seat) (table : String) : Seat × Option Fault :=
  match s.informed with
  | .error fault => (s, some fault)
  | .ok s => if s.knows table then (s.look.1, some (.tableExists table)) else (s, none)

/-- Makes a table. -/
def create (s : Seat) (layout : Layout) : Result :=
  s.withLock .write fun s =>
    if (s.view.get? layout.name).isSome then (s.releaseOutside, .error (.tableExists layout.name))
    else
      let s := s.write (s.view ++ [⟨layout, []⟩])
      let s := { s with session := { s.session with catalog := some s.view.names } }
      match s.finishOutside with
      | (s, none) => (s, .ok [])
      | (s, some fault) => (s, .error fault)

/-- The rows a query gives. -/
def select (t : Table) (selection : Selection) (key : Option Value) : Rows :=
  let rows := t.select key
  match selection with
  | .count label => [[(label, .integer (Int64.ofNat rows.length))]]
  | .every => rows.map fun r =>
    [(t.layout.key, .integer r.1), (t.layout.column.name, r.2)]
  | .columns names => rows.map fun r => names.map fun n => (n, (t.column? n r).getD .null)

/-- The first column a selection asks for that the table does not have. -/
def missingColumn? (t : Table) : Selection → Option String
  | .columns names => names.find? fun n => n != t.layout.key && n != t.layout.column.name
  | _ => none

/-- Reads rows. -/
def query (s : Seat) (t : Table) (selection : Selection) (key : Option Value) : Result :=
  s.withLock .read fun s =>
    (s.releaseOutside, .ok (select ((s.view.get? t.layout.name).getD t) selection key))

/-- The lock that opening a transaction takes. -/
def modeLevel? : IsolationMode → Option LockLevel
  | .deferred => none
  | .immediate => some .write
  | .exclusive => some .exclusive

/-- Opens a transaction.  The lock is asked for before anything else, unless the session
writes already.  A session that held nothing holds nothing after a refusal. -/
def start (s : Seat) (mode : IsolationMode) : Result :=
  let idle := (s.storage.locks.level? s.id).isNone
  let (s, granted) := match modeLevel? mode with
    | none => (s, true)
    | some level => if s.holdsWrite then (s, true) else s.request level
  if !granted then (if idle then s.release else s, .error .locked)
  else if s.session.inTransaction then (s, .error .transactionOpen)
  else ({ s with session := { s.session with inTransaction := true } }, .ok [])

/-- Commits the transaction.  It stays open when that fails. -/
def commit (s : Seat) : Result :=
  if !s.session.inTransaction then (s, .error (.noTransaction "commit"))
  else
    match s.finish with
    | (s, none) => (s, .ok [])
    | (s, some fault) => (s, .error fault)

/-- Rolls the transaction back. -/
def rollback (s : Seat) : Result :=
  if s.session.inTransaction then (s.discard, .ok [])
  else (s, .error (.noTransaction "rollback"))

/-- Rebuilds the storage, which must be free of other locks.  Done or refused, the
session has to look for its tables again. -/
def vacuum (s : Seat) : Result :=
  if s.session.inTransaction then (s, .error .vacuumInTransaction)
  else
    let (s, result) := s.withLock .exclusive fun s => (s.release, .ok [])
    ({ s with session := { s.session with catalog := none } }, result)

end Seat

end ConnectionPool.Engine
