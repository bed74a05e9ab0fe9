import ConnectionPool.Scenario.World

/-!
# Workers

The worker of a connection takes the work of its queue in turn.  Letting it run does
one step: it starts the next work, or carries the work in flight on as far as that
goes, or ends the queue.  After each piece of work it lets the others go first.

When the caller of work in flight leaves, either that is noticed first and the work is
dropped where it stands, or the work goes on once more.  In the latter case it may come to
its end, although nobody is told; otherwise it is dropped as soon as it waits.
-/

namespace ConnectionPool.Scenario.Sim

/-! ## Replies -/

/-- Hands the reply of a work item to the task that waits for it, if one does. -/
def deliver (waits : Bool) (item : Nat) (r : Reply) : Sim Unit := do
  if waits then
    modify fun w => { w with replies := w.replies ++ [(item, r)] }
    wakeTasks fun f =>
      match f with
      | .item _ id => id == item
      | _ => false

/-- Sets how far the work in flight is. -/
def setStage (c : Nat) (stage : Flight.Stage) : Sim Unit :=
  modifyConn c fun x => { x with flight := x.flight.map fun f => { f with stage } }

/-- The work in flight is tried again. -/
def tryAgain (c : Nat) : Sim Unit :=
  modifyConn c fun x =>
    { x with flight := x.flight.map fun f => { f with attempt := f.attempt + 1, stage := .ready } }

/-! ## Policies -/

/-- A policy. -/
def policy (n : Nat) : Sim (Option Policy) := do return (← get).policies[n]?

/-- Changes a policy. -/
def modifyPolicy (n : Nat) (f : Policy → Policy) : Sim Unit := modify fun w =>
  { w with policies := w.policies.modify n f }

/-- A connection's work waits by a policy no longer: the next in line has its turn. -/
def leavePolicy (n c : Nat) : Sim Unit := do
  if let some p ← policy n then
    if p.user == some c then
      modifyPolicy n fun p => { p with user := p.line.head?, line := p.line.drop 1 }
      if let some next := p.line.head? then wake (.worker next)
    else modifyPolicy n fun p => { p with line := p.line.erase c }

/-! ## Ending work -/

/-- What work leaves behind, wherever it stands: a wake it owes is passed on. -/
def discardWork (work : Work) : Sim Unit := do
  match work with
  | .query _ _ retry => endRetries retry
  | _ => pure ()

/-- The work in flight is over.  A wake it owes is passed on before the reply. -/
def complete (c : Nat) (item : WorkItem Work) (r : Reply) : Sim Progress := do
  discardWork item.work
  match item.work with
  | .await n _ _ => leavePolicy n c
  | _ => pure ()
  let waits := (← conn c).queue.current.any (·.isAwaited)
  modifyConn c fun x => { x with flight := none, queue := x.queue.finishCurrent }
  deliver waits item.id r
  return .ended item r

/-- The work in flight is dropped where it stands. -/
def dropFlight (c : Nat) (f : Flight) : Sim Progress := do
  match f.stage with
  | .atGate name ticket => leaveGate name ticket
  | _ => pure ()
  match f.item.work with
  | .await n _ _ =>
    if let some p ← policy n then stepRetry p.retry Pool.cancelPause
    leavePolicy n c
  | _ => pure ()
  discardWork f.item.work
  modifyConn c fun x => { x with flight := none, queue := x.queue.finishCurrent }
  return .yielded

/-! ## Pauses -/

/-- How a pause stands that lasts at most until the deadline. -/
def pauseState (deadline : Nat) (ticket : Option (PoolRef × Nat)) (closing : Bool) :
    Sim PauseState := do
  let woken ← match ticket with
    | none => pure false
    | some (r, n) => do
      pure ((← pool? r).any fun p => (p.receiver? n).any (·.woken))
  return .of (woken || deadline ≤ (← get).clock) closing

/-- The work in flight begins to pause after the attempt of a number. -/
def beginPause (c : Nat) (f : Flight) (retry : Option (PoolRef × Nat)) (delay attempt : Nat) :
    Sim Progress := do
  let stage ← pause c retry delay attempt
  setStage c stage
  if let .paused deadline _ := stage then startTimer deadline (.flight c f.item.id)
  return .moved

/-! ## Kinds of work -/

/-- A query is over with its last attempt. -/
def endQuery (c : Nat) (f : Flight) (kind : QueryKind) (a : QueryAttempt) : Sim Progress := do
  match a.result with
  | .ok r =>
    if let .ran result := r then
      modifyConn c fun x => { x with lastRow := result.lastInsertId }
    complete c f.item (.query r)
  | .error e =>
    if let .engine e := e then
      modifyConn c fun x => { x with lastError := some e.text }
    let seen := if kind == .each then some a.delivered else none
    complete c f.item (.failed (.connection e) seen)

/-- A query that looked goes on as its pause stands. -/
def leavePause (c : Nat) (f : Flight) (retry : Option (PoolRef × Nat)) :
    PauseState → Sim Progress
  | .passed => do
    stepRetry retry Pool.resume
    tryAgain c
    return .moved
  | .cancelled => do
    stepRetry retry Pool.cancelPause
    complete c f.item (.refused .cancelled)
  | .lasts => return .blocked

/-- Carries a query on. -/
def runQuery (c : Nat) (f : Flight) (kind : QueryKind) (s : Statement)
    (retry : Option (PoolRef × Nat)) : Sim Progress := do
  let x ← conn c
  match f.stage with
  | .paused deadline ticket =>
    leavePause c f retry (← pauseState deadline ticket x.queue.closing)
  | _ =>
    let w ← get
    let (engine, a) := w.engine.attempt x.session kind s
    set { w with engine }
    if a.isRetried x.config.maxLockRetries f.attempt then
      beginPause c f retry x.config.lockRetryDelay f.attempt
    else endQuery c f kind a

/-- The end of appended work. -/
def appendResult (ok : String) (fail : Option String) : Reply :=
  match fail with
  | some message => .refused (.invalidArguments message)
  | none => .text ok

/-- Carries appended work on. -/
def runAppend (c : Nat) (f : Flight) (ok : String) (gate fail : Option String) :
    Sim Progress := do
  match f.stage with
  | .atGate name ticket =>
    if ← takePass name ticket then complete c f.item (appendResult ok fail)
    else return .blocked
  | _ =>
    event ("start " ++ ok)
    match gate with
    | none => complete c f.item (appendResult ok fail)
    | some name =>
      match ← askPass name (.worker c) with
      | none => complete c f.item (appendResult ok fail)
      | some ticket =>
        setStage c (.atGate name ticket)
        return .moved

/-- Begins to wait by a policy whose turn it is. -/
def beginAwait (c : Nat) (f : Flight) (p : Policy) (attempt : Nat) (code : Int) :
    Sim Progress := do
  if retriesExhausted p.limit attempt then
    complete c f.item (.refused (.engine { code, text := "database is locked" }))
  else beginPause c f p.retry p.delay attempt

/-- Carries a wait by a policy on. -/
def runAwait (c : Nat) (f : Flight) (n attempt : Nat) (code : Int) : Sim Progress := do
  match ← policy n with
  | none => complete c f.item (.refused .cancelled)
  | some p =>
    match f.stage with
    | .paused deadline ticket =>
      match ← pauseState deadline ticket p.closing with
      | .passed =>
        stepRetry p.retry Pool.resume
        complete c f.item (.text "again")
      | .cancelled =>
        stepRetry p.retry Pool.cancelPause
        complete c f.item (.refused .cancelled)
      | .lasts => return .blocked
    | .atPolicy =>
      if p.user == some c then beginAwait c f p attempt code else return .blocked
    | _ =>
      match p.user with
      | none =>
        modifyPolicy n fun p => { p with user := some c }
        beginAwait c f p attempt code
      | some _ =>
        modifyPolicy n fun p => { p with line := p.line ++ [c] }
        setStage c .atPolicy
        return .moved

/-- Carries the work in flight on. -/
def runFlight (c : Nat) (f : Flight) : Sim Progress := do
  match f.item.work with
  | .query kind s retry => runQuery c f kind s retry
  | .autocommit =>
    complete c f.item (.flag ((← get).engine.autocommit (← conn c).session))
  | .append ok gate fail => runAppend c f ok gate fail
  | .await n attempt code => runAwait c f n attempt code
  | .detached sql =>
    let w ← get
    let (engine, _) := w.engine.attempt (← conn c).session .run ⟨sql, .none⟩
    set { w with engine }
    complete c f.item .done

/-! ## The worker -/

/-- Ends a queue: what is left is cancelled, the session is closed, and whoever waits
for the end goes on. -/
def endQueue (c : Nat) (cancelled : List (WorkItem Work)) : Sim Unit := do
  for item in cancelled do
    discardWork item.work
    deliver item.isAwaited item.id (.refused .cancelled)
  let session := (← conn c).session
  modify fun w => { w with engine := w.engine.closeSession session }
  wakeTasks fun f =>
    match f with
    | .closing n asked => n == c && asked
    | _ => false

/-- Carries the work in flight on, as far as that goes at once.  Work that waits then is dropped. -/
def outrunLeaving (c : Nat) (f : Flight) : Sim Progress := do
  match ← runFlight c f with
  | .blocked => dropFlight c f
  | p => return p

/-- Lets the worker of a connection run. -/
def runWorker (c : Nat) : Sim Progress := do
  let x ← conn c
  match x.flight with
  | some f =>
    if !x.queue.current.any (·.isGivenUp) then runFlight c f
    else if (← get).outruns f.item.id then outrunLeaving c f
    else dropFlight c f
  | none =>
    let (queue, turn) := x.queue.turn
    modifyConn c fun x => { x with queue }
    match turn with
    | .rest => return .blocked
    | .skip item =>
      discardWork item.work
      return .yielded
    | .start item =>
      modifyConn c fun x => { x with flight := some { item } }
      return .moved
    | .finish cancelled =>
      endQueue c cancelled
      return .blocked

end ConnectionPool.Scenario.Sim
