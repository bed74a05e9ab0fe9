import ConnectionPool.Transaction
import ConnectionPool.WorkQueue

/-!
# Transactions that share a connection

A `Shared` connection is used by any number of transactions and by others.  Each
transaction is a `Party`: its coordinator, what it waits for, and the history of what it
did, which only the theorems read.  All submit to one work queue.  A coordinator takes its
steps by `Transaction.step`, and the queue is served by `WorkQueue.turn`.

Of the engine only this is modelled: which transaction is open on the connection, and who
opened it.  What an operation does to it is its `Control`.  The statements of a coordinator
have the control that their text says.  Operations of others have any control, and one
whose effect is not known may end the open transaction or open one.  Everything else is
left to chance: which statement fails, when a turn comes, when somebody leaves, when the
connection is closed.

A reply is sent when an operation is over, and taken by its coordinator in a step of its
own.  A transaction that is dropped first leaves the operation it waits for.  Its unit of
work leaves its own in steps of their own, or never: it may have handed its connection on.
-/

namespace ConnectionPool

/-! ## Operations -/

/-- Who submits an operation. -/
inductive Author where
  /-- The coordinator of a transaction. -/
  | coordinator (t : Nat)
  /-- The unit of work of a transaction. -/
  | work (t : Nat)
  /-- Somebody else. -/
  | other
  deriving DecidableEq, Repr

/-- The transaction on whose behalf an operation is submitted. -/
def Author.party? : Author → Option Nat
  | coordinator t | work t => some t
  | other => none

/-- What an operation does to the transaction that is open on its connection. -/
inductive Control where
  /-- It opens one. -/
  | opens
  /-- It commits it. -/
  | commits
  /-- It rolls it back. -/
  | rollsBack
  /-- It leaves it as it is. -/
  | keeps
  /-- It may end it, also by failing, or open one. -/
  | unknown
  deriving DecidableEq, Repr

namespace Control

/-- The control of a statement that a coordinator submits. -/
def ofStatement (sql : String) : Control :=
  if sql = Transaction.commitStatement then .commits
  else if sql = Transaction.rollbackStatement then .rollsBack
  else if IsolationMode.all.any (·.beginStatement == sql) then .opens
  else .unknown

theorem ofStatement_begin (m : IsolationMode) : ofStatement m.beginStatement = .opens := by
  cases m <;> decide

theorem ofStatement_commit : ofStatement Transaction.commitStatement = .commits := by decide

theorem ofStatement_rollback : ofStatement Transaction.rollbackStatement = .rollsBack := by
  decide

/-- It may end an open transaction. -/
def mayEnd : Control → Bool
  | commits | rollsBack | unknown => true
  | opens | keeps => false

/-- It ends a transaction. -/
def isTerminal : Control → Bool
  | commits | rollsBack => true
  | _ => false

/-- The operation of an author may end so, given who holds the open transaction before
and after it.  A transaction is not opened inside another.  A statement that is to end one
may end it and fail all the same. -/
def allows (a : Author) (before after : Option Author) (ok : Bool) : Control → Bool
  | opens => if ok then before == none && after == some a else after == before
  | commits | rollsBack =>
    if ok then before.isSome && after == none else after == before || after == none
  | keeps => after == before
  | unknown => after == before || after == none || after == some a

end Control

/-- An operation as far as it matters here. -/
structure Request where
  /-- Who submits it. -/
  author : Author
  /-- What it does to the open transaction. -/
  control : Control
  deriving DecidableEq, Repr

/-! ## Parties -/

/-- Something a transaction did or saw. -/
inductive Mark where
  /-- It showed a state. -/
  | state (s : TransactionState)
  /-- It got its lease. -/
  | leased
  /-- It or its unit of work submitted an operation, which was accepted or refused. -/
  | submitted (id : Nat) (r : Request) (detached accepted : Bool)
  /-- It saw a statement succeed or fail. -/
  | answered (id : Nat) (c : Control) (ok : Bool)
  /-- Its unit of work ended, with a value or without. -/
  | unitEnded (ok : Bool)
  /-- It gave its lease back. -/
  | released
  /-- It was dropped. -/
  | dropped
  deriving DecidableEq, Repr

/-- A transaction on a shared connection. -/
structure Party (α : Type) where
  /-- Its coordinator. -/
  coordinator : Transaction α
  /-- The number of the operation it waits for, and its control. -/
  awaiting : Option (Nat × Control) := none
  /-- What it did so far. -/
  history : List Mark := []

/-- A connection that transactions and others share. -/
structure Shared (α : Type) where
  /-- The transactions. -/
  party : Nat → Party α
  /-- The operations. -/
  queue : WorkQueue Request := {}
  /-- Who opened the transaction that is open. -/
  holder : Option Author := none
  /-- The replies that were sent. -/
  replies : List (Nat × Bool) := []
  /-- All operations that were accepted, in order of submission. -/
  log : List (WorkItem Request) := []
  /-- All operations that were started, in order. -/
  started : List (WorkItem Request) := []
  /-- The operations that ended a transaction, with who had opened it. -/
  ends : List (Author × WorkItem Request) := []
  /-- The next number that is free. -/
  fresh : Nat := 0

/-- The unit of work ended with a value. -/
def UnitOutcome.isValue {α : Type} : UnitOutcome α → Bool
  | .value _ => true
  | .error _ | .panic _ => false

/-- The coordinator was started and has not ended. -/
def Transaction.Phase.isActive {α : Type} : Transaction.Phase α → Bool
  | .idle | .finished => false
  | _ => true

namespace Shared

variable {α : Type}

/-- A connection on which nothing happened. -/
def new (mode : Nat → IsolationMode) : Shared α :=
  { party := fun t => { coordinator := { mode := mode t } } }

/-- What the coordinator of a transaction waits for. -/
def phase (s : Shared α) (t : Nat) : Transaction.Phase α := (s.party t).coordinator.phase

/-- What a transaction did. -/
def history (s : Shared α) (t : Nat) : List Mark := (s.party t).history

/-- Changes a party. -/
def modify (s : Shared α) (t : Nat) (f : Party α → Party α) : Shared α :=
  { s with party := fun u => if u = t then f (s.party u) else s.party u }

/-- A transaction did something. -/
def note (s : Shared α) (t : Nat) (m : Mark) : Shared α :=
  s.modify t fun p => { p with history := p.history ++ [m] }

/-- Submits an operation.  It is lost if work is refused. -/
def enqueue (s : Shared α) (r : Request) (detached : Bool) : Shared α :=
  let item : WorkItem Request := { id := s.fresh, work := r, detached }
  match s.queue.submit item with
  | some queue => { s with queue, log := s.log ++ [item], fresh := s.fresh + 1 }
  | none => { s with replies := s.replies ++ [(s.fresh, false)], fresh := s.fresh + 1 }

/-- Submits an operation on behalf of a transaction. -/
def submitFor (s : Shared α) (t : Nat) (r : Request) (detached : Bool) : Shared α :=
  (s.enqueue r detached).note t (.submitted s.fresh r detached (!s.queue.refuses))

/-! ## Coordinators -/

/-- What a coordinator does, is done. -/
def perform (t : Nat) (s : Shared α) : Transaction.Action α → Shared α
  | .trace _ target => s.note t (.state target)
  | .submit sql =>
    let control := Control.ofStatement sql
    (s.submitFor t ⟨.coordinator t, control⟩ false).modify t fun p =>
      { p with awaiting := some (s.fresh, control) }
  | .detach sql => s.submitFor t ⟨.coordinator t, Control.ofStatement sql⟩ true
  | .release => s.note t .released
  | .acquire | .runUnit | .noteRollbackFailed | .noteDropped _ | .conclude _ => s

/-- A coordinator takes a step. -/
def conduct (s : Shared α) (t : Nat) (e : Transaction.Event α) : Shared α :=
  let (coordinator, actions) := (s.party t).coordinator.step e
  actions.foldl (perform t) (s.modify t fun p => { p with coordinator })

/-- A coordinator takes a reply. -/
def answer (s : Shared α) (t id : Nat) (c : Control) (ok : Bool) (e : ConnectionError) :
    Shared α :=
  ((s.modify t fun p => { p with awaiting := none }).note t (.answered id c ok)).conduct t
    (if ok then .succeeded else .failed e)

/-- The queue when a transaction has left the operation it waits for. -/
def leftQueue (s : Shared α) (t : Nat) : WorkQueue Request :=
  match (s.party t).awaiting with
  | some (id, _) => s.queue.leave id
  | none => s.queue

/-- A transaction is dropped. -/
def drop (s : Shared α) (t : Nat) : Shared α :=
  (({ s with queue := s.leftQueue t }.modify t fun p => { p with awaiting := none }).note t
    .dropped).conduct t .dropped

/-! ## The queue -/

/-- The queue goes on. -/
def turn (s : Shared α) : Shared α :=
  match s.queue.turn with
  | (_, .rest) => s
  | (queue, .skip _) => { s with queue }
  | (queue, .start i) => { s with queue, started := s.started ++ [i] }
  | (queue, .finish cancelled) =>
    { s with queue, holder := none, replies := s.replies ++ cancelled.map fun i => (i.id, false) }

/-- The transaction that an operation ended, given who held one before and after it. -/
def ended (before after : Option Author) (i : WorkItem Request) :
    List (Author × WorkItem Request) :=
  match before with
  | some a => if after = some a then [] else [(a, i)]
  | none => []

theorem mem_ended {before after : Option Author} {i : WorkItem Request}
    {e : Author × WorkItem Request} (mem : e ∈ ended before after i) :
    before = some e.1 ∧ e.2 = i := by
  cases before with
  | none => cases mem
  | some a =>
      rw [ended] at mem
      split at mem
      · cases mem
      · cases List.mem_singleton.mp mem
        exact ⟨rfl, rfl⟩

/-- The operation in flight is over. -/
def complete (s : Shared α) (i : WorkItem Request) (ok : Bool) (after : Option Author) :
    Shared α :=
  { s with
    queue := s.queue.finishCurrent
    holder := after
    replies := s.replies ++ [(i.id, ok)]
    ends := s.ends ++ ended s.holder after i }

/-- The operation in flight broke the connection. -/
def crash (s : Shared α) (i : WorkItem Request) : Shared α :=
  { s with
    queue := s.queue.crash.1
    holder := none
    replies := s.replies ++ (i :: s.queue.crash.2).map fun i => (i.id, false) }

/-! ## Steps -/

/-- One step of anybody. -/
inductive Step (s : Shared α) : Shared α → Prop where
  /-- A transaction is started. -/
  | start (t : Nat) : s.phase t = .idle → Step s (s.conduct t .start)
  /-- It gets its lease. -/
  | leased (t : Nat) : s.phase t = .acquiring → Step s ((s.note t .leased).conduct t .leased)
  /-- It gets none. -/
  | notLeased (t : Nat) (e : ConnectionError) : s.phase t = .acquiring →
      Step s (s.conduct t (.notLeased e))
  /-- It takes the reply it waits for. -/
  | answer (t id : Nat) (c : Control) (ok : Bool) (e : ConnectionError) :
      (s.party t).awaiting = some (id, c) → (id, ok) ∈ s.replies → Step s (s.answer t id c ok e)
  /-- Its unit of work submits an operation. -/
  | work (t : Nat) (c : Control) (detached : Bool) : s.phase t = .running →
      Step s (s.submitFor t ⟨.work t, c⟩ detached)
  /-- Its unit of work ends. -/
  | unitDone (t : Nat) (outcome : UnitOutcome α) : s.phase t = .running →
      Step s ((s.note t (.unitEnded outcome.isValue)).conduct t (.unitDone outcome))
  /-- Its caller gives up. -/
  | drop (t : Nat) : (s.phase t).isActive → Step s (s.drop t)
  /-- Somebody else submits an operation. -/
  | submit (c : Control) (detached : Bool) : Step s (s.enqueue ⟨.other, c⟩ detached)
  /-- The caller of an operation leaves, which is not a coordinator. -/
  | leave (id : Nat) :
      (∀ i ∈ s.queue.pending ++ s.queue.current.toList, i.id = id →
        ∀ t, i.work.author ≠ .coordinator t) →
      Step s { s with queue := s.queue.leave id }
  /-- The queue goes on. -/
  | turn : Step s s.turn
  /-- The operation in flight is over. -/
  | complete (i : WorkItem Request) (ok : Bool) (after : Option Author) :
      s.queue.current = some i →
      i.work.control.allows i.work.author s.holder after ok →
      Step s (s.complete i ok after)
  /-- The operation in flight broke the connection. -/
  | crash (i : WorkItem Request) : s.queue.current = some i → Step s (s.crash i)
  /-- The connection is to be closed. -/
  | requestClose : Step s { s with queue := s.queue.requestClose }

/-- Any number of steps. -/
inductive Steps (s : Shared α) : Shared α → Prop where
  | refl : Steps s s
  | tail {s' s'' : Shared α} : Steps s s' → Step s' s'' → Steps s s''

/-- A state comes about by steps. -/
def Reachable (s : Shared α) : Prop := ∃ mode, Steps (new mode) s

theorem Steps.trans {s s' s'' : Shared α} (h : Steps s s') (h' : Steps s' s'') :
    Steps s s'' := by
  induction h' with
  | refl => exact h
  | tail _ step ih => exact ih.tail step

theorem Reachable.steps {s s' : Shared α} (h : Reachable s) (h' : Steps s s') : Reachable s' := by
  obtain ⟨mode, steps⟩ := h
  exact ⟨mode, steps.trans h'⟩

/-! ### A transaction that has begun -/

/-- A connection on which one transaction has begun. -/
def begun : Shared Unit :=
  let asked := (((new fun _ => .deferred).conduct 0 .start).note 0 .leased).conduct 0 .leased
  (asked.turn.complete ⟨0, ⟨.coordinator 0, .opens⟩, false, false⟩ true
    (some (.coordinator 0))).answer 0 0 .opens true .cancelled

theorem begun_reachable : Reachable begun := by
  refine ⟨fun _ => .deferred, ?_⟩
  have started := Steps.refl.tail (.start (s := (new fun _ => .deferred : Shared Unit)) 0 rfl)
  have asked := started.tail (.leased 0 rfl)
  have taken := asked.tail .turn
  have opened := taken.tail
    (.complete ⟨0, ⟨.coordinator 0, .opens⟩, false, false⟩ true (some (.coordinator 0)) rfl rfl)
  exact opened.tail (.answer 0 0 .opens true .cancelled rfl (.head _))

end Shared

end ConnectionPool
