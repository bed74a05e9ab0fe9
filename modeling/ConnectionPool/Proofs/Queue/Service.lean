import ConnectionPool.Proofs.Queue.History
import ConnectionPool.Proofs.Queue.Turns
import ConnectionPool.RetryStrategy

/-!
# Serving a queue

A `Service` is a work queue together with what happened to its operations, in order, which
only the theorems read.  Anybody may submit, leave, and ask for closing, at any time.  What
an operation does and returns is left open; only a panic is left out.  An operation in
flight may pause to wait for a lock, any number of times.

A pause is ended by a wake or by time.  When the operation looks, it goes on as
`PauseState.of` says.  When its pause is over and the connection closes, it may notice
either first.
-/

namespace ConnectionPool

/-- How an operation ends that returned a result. -/
def WorkItem.ending {α ρ : Type} (i : WorkItem α) (r : Except ConnectionError ρ) :
    WorkQueue.Ending ρ :=
  if i.isAwaited then .delivered r else if i.detached then .done else .abandoned

namespace WorkQueue

/-! ## Services -/

/-- A queue that is served. -/
structure Service (α ρ : Type) where
  /-- The queue. -/
  queue : WorkQueue α := {}
  /-- The pause of the operation in flight, and whether it is over. -/
  pause : Option Bool := none
  /-- What happened so far. -/
  history : List (Mark α ρ) := []
  /-- The next number that is free. -/
  fresh : Nat := 0

namespace Service

variable {α ρ : Type}

/-- What somebody does. -/
inductive Event (α ρ : Type) where
  /-- An operation is submitted. -/
  | submit (work : α) (detached : Bool)
  /-- The caller of an operation leaves. -/
  | leave (id : Nat)
  /-- The queue goes on. -/
  | turn
  /-- The operation in flight begins to pause. -/
  | pause
  /-- Its pause is over, by a wake or by time. -/
  | endPause
  /-- It looks how its pause stands. -/
  | look
  /-- It notices that the connection closes. -/
  | notice
  /-- It returns a result. -/
  | finish (r : Except ConnectionError ρ)
  /-- It is dropped, because its caller left. -/
  | giveUp
  /-- Closing is asked for. -/
  | close

/-- Somebody can do so. -/
def permits (s : Service α ρ) : Event α ρ → Bool
  | .submit _ _ | .turn | .close => true
  | .leave id => s.history.any (·.isAwaited id)
  | .pause => s.queue.current.isSome && s.pause.isNone
  | .endPause => s.pause == some false
  | .look => s.pause.isSome
  | .notice => s.pause.isSome && s.queue.closing
  | .finish _ => s.queue.current.isSome && s.pause.isNone
  | .giveUp => s.queue.current.any (·.isGivenUp)

/-- Something happened. -/
def note (s : Service α ρ) (marks : List (Mark α ρ)) : Service α ρ :=
  { s with history := s.history ++ marks }

@[simp] theorem history_note (s : Service α ρ) (marks : List (Mark α ρ)) :
    (s.note marks).history = s.history ++ marks := rfl

@[simp] theorem queue_note (s : Service α ρ) (marks : List (Mark α ρ)) :
    (s.note marks).queue = s.queue := rfl

@[simp] theorem pause_note (s : Service α ρ) (marks : List (Mark α ρ)) :
    (s.note marks).pause = s.pause := rfl

@[simp] theorem fresh_note (s : Service α ρ) (marks : List (Mark α ρ)) :
    (s.note marks).fresh = s.fresh := rfl

/-- What is done with the operation in flight. -/
def withCurrent (s : Service α ρ) (f : WorkItem α → Service α ρ) : Service α ρ :=
  match s.queue.current with
  | some i => f i
  | none => s

/-- Nothing is in flight, and so many operations wait. -/
def idle (s : Service α ρ) (pending : List (WorkItem α)) : Service α ρ :=
  { s with queue := { s.queue.finishCurrent with pending }, pause := none }

@[simp] theorem history_idle (s : Service α ρ) (pending : List (WorkItem α)) :
    (s.idle pending).history = s.history := rfl

@[simp] theorem closing_idle (s : Service α ρ) (pending : List (WorkItem α)) :
    (s.idle pending).queue.closing = s.queue.closing := rfl

/-- Nothing is in flight any more. -/
def free (s : Service α ρ) : Service α ρ := s.idle s.queue.pending

/-- The operation in flight returns a result. -/
def finish (s : Service α ρ) (r : Except ConnectionError ρ) : Service α ρ :=
  s.withCurrent fun i => s.free.note [.returned i.id r, .ended i.id (i.ending r)]

/-- An operation is submitted. -/
def submit (s : Service α ρ) (work : α) (detached : Bool) : Service α ρ :=
  let s' := { s with fresh := s.fresh + 1 }
  match s.queue.submit { id := s.fresh, work, detached } with
  | some queue => { s' with queue }.note [.submitted s.fresh work detached true]
  | none => s'.note [.submitted s.fresh work detached false]

/-- The queue goes on. -/
def turn (s : Service α ρ) : Service α ρ :=
  match s.queue.turn with
  | (_, .rest) => s
  | (queue, .skip i) => { s with queue }.note [.ended i.id .skipped]
  | (queue, .start i) => { s with queue }.note [.started i.id i.work]
  | (queue, .finish cancelled) =>
    { s with queue }.note (cancelled.map fun i : WorkItem α => .ended i.id .cancelled)

/-- The operation in flight looks how its pause stands. -/
def look (s : Service α ρ) (isOver : Bool) : Service α ρ :=
  match PauseState.of isOver s.queue.closing with
  | .passed => s.withCurrent fun i => { s with pause := none }.note [.resumed i.id]
  | .cancelled => s.finish (.error .cancelled)
  | .lasts => s

/-- The service after an event. -/
def after (s : Service α ρ) : Event α ρ → Service α ρ
  | .submit work detached => s.submit work detached
  | .leave id => { s with queue := s.queue.leave id }.note [.left id]
  | .turn => s.turn
  | .pause => s.withCurrent fun i => { s with pause := some false }.note [.paused i.id]
  | .endPause => { s with pause := some true }
  | .look => s.look (s.pause == some true)
  | .notice => s.finish (.error .cancelled)
  | .finish r => s.finish r
  | .giveUp => s.withCurrent fun i => s.free.note [.ended i.id .abandoned]
  | .close => { s with queue := s.queue.requestClose }.note [.closing]

/-- Any number of events, from one service to another. -/
inductive Steps (s : Service α ρ) : Service α ρ → Prop where
  | refl : Steps s s
  | tail {s' : Service α ρ} (e : Event α ρ) : Steps s s' → s'.permits e → Steps s (s'.after e)

/-- A service comes about by events. -/
def Reachable (s : Service α ρ) : Prop := Steps {} s

theorem Steps.trans {s s' s'' : Service α ρ} (h : Steps s s') (h' : Steps s' s'') :
    Steps s s'' := by
  induction h' with
  | refl => exact h
  | tail e _ permitted ih => exact ih.tail e permitted

end Service

end WorkQueue

end ConnectionPool
