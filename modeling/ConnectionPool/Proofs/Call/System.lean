import ConnectionPool.Proofs.Queue.Turns
import ConnectionPool.Proofs.Shared.Moves

/-!
# Calls

A `Call` is one transaction on a pooled connection, from its start on, with what the
connection's queue and its store hold.  The coordinator takes its steps by
`Transaction.step`, and the queue is served by `WorkQueue.turn`.

Nobody else uses the connection while the coordinator has its lease.  Others may use it
before and after, in any way, and what they submitted may still be in the queue: they may
also have left a transaction open.  The unit of work submits ordinary statements, as many as
it likes, while it runs.  It may leave them, and need not wait for them.

`Store.Runs` says what the engine may do.  A statement that fails has no effect.  Only a
beginning opens a transaction, only a commit publishes what the transaction did, all of it at
once, and a rollback inside a transaction succeeds.  What is open is discarded when the
connection closes.  Which statement fails is left open, and so is whether a statement has its
effect that is given up while it runs.
-/

namespace ConnectionPool

/-! ## The store -/

/-- An operation on the connection of a call. -/
inductive Op (β : Type) where
  /-- The coordinator controls the transaction. -/
  | control (c : Control)
  /-- An ordinary statement of the unit of work has an effect. -/
  | statement (b : β)
  /-- Somebody else does something. -/
  | foreign

/-- Who opened the transaction that is open. -/
inductive Opener where
  /-- The call. -/
  | call
  /-- Somebody else. -/
  | others

/-- The transaction that is open on a connection, and what the unit of work did. -/
structure Store (β : Type) where
  /-- Who opened the transaction that is open. -/
  opener : Option Opener := none
  /-- The effects of the unit of work that wait for a commit. -/
  held : List β := []
  /-- The effects of the unit of work that are committed. -/
  published : List β := []

namespace Store

variable {β : Type}

/-- The connection closes. -/
def close (s : Store β) : Store β := { s with opener := none, held := [] }

/-- A statement of the unit of work has its effect, at once if no transaction is open. -/
def take (s : Store β) (b : β) : Store β :=
  if s.opener.isSome then { s with held := s.held ++ [b] }
  else { s with published := s.published ++ [b] }

/-- The engine may run an operation so. -/
inductive Runs (s : Store β) : Op β → Except ConnectionError Unit → Store β → Prop where
  /-- It fails.  A rollback fails only outside of a transaction. -/
  | fails {op : Op β} (e : ConnectionError) : (op = .control .rollsBack → s.opener = none) →
      Runs s op (.error e) s
  /-- A transaction is opened. -/
  | opens : s.opener = none → Runs s (.control .opens) (.ok ()) { s with opener := some .call }
  /-- What is held is committed. -/
  | commits : s.opener.isSome → Runs s (.control .commits) (.ok ())
      { opener := none, held := [], published := s.published ++ s.held }
  /-- What is held is discarded. -/
  | rollsBack : s.opener.isSome →
      Runs s (.control .rollsBack) (.ok ()) { s with opener := none, held := [] }
  /-- A statement has its effect. -/
  | statement (b : β) : Runs s (.statement b) (.ok ()) (s.take b)
  /-- Others do something that leaves the open transaction. -/
  | keeps (r : Except ConnectionError Unit) : Runs s .foreign r s
  /-- Others commit the open transaction or roll it back, and may open another. -/
  | foreign (r : Except ConnectionError Unit) {opener : Option Opener} (commits : Bool) :
      opener ≠ some .call → Runs s .foreign r
        { opener, held := [],
          published := if commits then s.published ++ s.held else s.published }

end Store

/-- The effect of an operation that ended with a result. -/
def Op.effect {β : Type} : Op β → Except ConnectionError Unit → List β
  | statement b, .ok _ => [b]
  | _, _ => []

/-- What a reply is to the coordinator. -/
def Transaction.Event.ofReply {α : Type} : Except ConnectionError Unit → Transaction.Event α
  | .ok _ => .succeeded
  | .error e => .failed e

/-! ## Calls -/

/-- A call that runs a unit of work in a transaction. -/
structure Call (α β : Type) where
  /-- Its coordinator. -/
  coordinator : Transaction α
  /-- The number of the operation that it waits for. -/
  awaiting : Option Nat := none
  /-- The reply to it. -/
  reply : Option (Except ConnectionError Unit) := none
  /-- The operations on the connection. -/
  queue : WorkQueue (Op β) := {}
  /-- The store. -/
  store : Store β := {}
  /-- The next number that is free. -/
  fresh : Nat := 0
  /-- What happened to the coordinator so far. -/
  taken : List (Transaction.Event α) := []
  /-- What the caller is told. -/
  outcome : Option (UnitOutcome α) := none
  /-- All effects that statements of the unit of work had. -/
  effects : List β := []

namespace Call

variable {α β : Type}

/-- What the coordinator waits for. -/
def phase (s : Call α β) : Transaction.Phase α := s.coordinator.phase

/-- The operations in the queue. -/
def items (s : Call α β) : List (WorkItem (Op β)) :=
  s.queue.current.toList ++ s.queue.pending

/-- An operation is submitted.  It is lost if work is refused. -/
def submit (s : Call α β) (op : Op β) (detached : Bool) : Call α β :=
  match s.queue.submit { id := s.fresh, work := op, detached } with
  | some queue => { s with queue, fresh := s.fresh + 1 }
  | none => { s with fresh := s.fresh + 1 }

/-- The coordinator submits a statement and waits for it. -/
def ask (s : Call α β) (c : Control) : Call α β :=
  { s.submit (.control c) false with
    awaiting := some s.fresh
    reply := if s.queue.refuses then some (.error .closed) else none }

/-- What a coordinator does, is done. -/
def perform (s : Call α β) : Transaction.Action α → Call α β
  | .submit sql => s.ask (.ofStatement sql)
  | .detach sql => s.submit (.control (.ofStatement sql)) true
  | .conclude outcome => { s with outcome := some outcome }
  | .trace _ _ | .acquire | .runUnit | .noteRollbackFailed | .noteDropped _ | .release => s

/-- Something happens to the coordinator. -/
def conduct (s : Call α β) (e : Transaction.Event α) : Call α β :=
  let (coordinator, actions) := s.coordinator.step e
  actions.foldl perform { s with coordinator, taken := s.taken ++ [e] }

/-- The coordinator waits for nothing any more. -/
def free (s : Call α β) : Call α β := { s with awaiting := none, reply := none }

/-- The coordinator takes the reply. -/
def answer (s : Call α β) (r : Except ConnectionError Unit) : Call α β :=
  s.free.conduct (.ofReply r)

/-- The queue when the coordinator has left the operation it waits for. -/
def leftQueue (s : Call α β) : WorkQueue (Op β) :=
  match s.awaiting with
  | some id => s.queue.leave id
  | none => s.queue

/-- The caller gives up. -/
def drop (s : Call α β) : Call α β :=
  { s.free with queue := s.leftQueue }.conduct .dropped

/-- Some operations are replied to. -/
def sendReply (s : Call α β) (ended : List (WorkItem (Op β))) (r : Except ConnectionError Unit) :
    Call α β :=
  { s with reply := if ended.any fun i => s.awaiting == some i.id then some r else s.reply }

/-- The queue goes on. -/
def turn (s : Call α β) : Call α β :=
  match s.queue.turn with
  | (_, .rest) => s
  | (queue, .skip _) | (queue, .start _) => { s with queue }
  | (queue, .finish cancelled) =>
    { s with queue, store := s.store.close }.sendReply cancelled (.error .cancelled)

/-- The operation in flight is over. -/
def complete (s : Call α β) (i : WorkItem (Op β)) (r : Except ConnectionError Unit)
    (store : Store β) : Call α β :=
  { s with
    queue := s.queue.finishCurrent
    store
    effects := s.effects ++ i.work.effect r }.sendReply [i] r

/-- The operation in flight broke the connection. -/
def crash (s : Call α β) (i : WorkItem (Op β)) : Call α β :=
  { s with queue := s.queue.crash.1, store := s.store.close }.sendReply
    (i :: s.queue.crash.2) (.error .cancelled)

/-- One step of anybody. -/
inductive Step (s : Call α β) : Call α β → Prop where
  /-- The call is started. -/
  | start : s.phase = .idle → Step s (s.conduct .start)
  /-- It gets its lease. -/
  | leased : s.phase = .acquiring → Step s (s.conduct .leased)
  /-- It gets none. -/
  | notLeased (e : ConnectionError) : s.phase = .acquiring → Step s (s.conduct (.notLeased e))
  /-- It takes the reply to the statement it waits for. -/
  | answer (r : Except ConnectionError Unit) : s.awaiting.isSome → s.reply = some r →
      Step s (s.answer r)
  /-- The unit of work submits a statement. -/
  | work (b : β) (detached : Bool) : s.phase = .running → Step s (s.submit (.statement b) detached)
  /-- The unit of work ends. -/
  | unitDone (outcome : UnitOutcome α) : s.phase = .running →
      Step s (s.conduct (.unitDone outcome))
  /-- The caller gives up. -/
  | drop : s.phase.isActive → Step s s.drop
  /-- Somebody else submits an operation. -/
  | submit (detached : Bool) : s.phase.isLeased = false → Step s (s.submit .foreign detached)
  /-- The caller of an operation leaves, which is not the coordinator. -/
  | leave (id : Nat) : s.awaiting ≠ some id → Step s { s with queue := s.queue.leave id }
  /-- The queue goes on. -/
  | turn : Step s s.turn
  /-- The operation in flight is over. -/
  | complete (i : WorkItem (Op β)) (r : Except ConnectionError Unit) (after : Store β) :
      s.queue.current = some i → s.store.Runs i.work r after → Step s (s.complete i r after)
  /-- The operation in flight is given up before it has its effect. -/
  | giveUp (i : WorkItem (Op β)) : s.queue.current = some i → i.isGivenUp →
      Step s (s.complete i (.error .cancelled) s.store)
  /-- The operation in flight broke the connection. -/
  | crash (i : WorkItem (Op β)) : s.queue.current = some i → Step s (s.crash i)
  /-- The connection is to be closed. -/
  | close : Step s { s with queue := s.queue.requestClose }

/-- Any number of steps. -/
inductive Steps (s : Call α β) : Call α β → Prop where
  | refl : Steps s s
  | tail {s' s'' : Call α β} : Steps s s' → Step s' s'' → Steps s s''

/-- A call comes about by steps. -/
def Reachable (s : Call α β) : Prop :=
  ∃ mode : IsolationMode, Steps { coordinator := { mode } } s

theorem Reachable.step {s s' : Call α β} (h : Reachable s) (step : Step s s') : Reachable s' := by
  obtain ⟨mode, steps⟩ := h
  exact ⟨mode, steps.tail step⟩

theorem Reachable.steps {s s' : Call α β} (h : Reachable s) (h' : Steps s s') : Reachable s' := by
  induction h' with
  | refl => exact h
  | tail _ step ih => exact ih.step step

end Call

end ConnectionPool
