import ConnectionPool.Registry
import ConnectionPool.Scenario.Answer
import ConnectionPool.Scenario.Script
import ConnectionPool.Transaction
import ConnectionPool.WorkQueue

/-!
# The world of a scenario

A `World` holds everything a script can act on: a clock, the engine, the registries
with their pools, the connections with their queues, gates, policies, objects by
name, and the tasks.

Two kinds of actors run, one at a time: tasks, and the worker of each connection.
An actor that can go on stands in the line `ready`, and is put there, behind the
others, when something it waits for happens.

A task is a stack of frames, the innermost first.  A frame is a wait, with what has to
be done afterwards.  Dropping a task drops its frames from the innermost outwards.

A connection lives as long as something holds it: an object, a task, an idle place in
a pool.  `reap` drops what nothing holds.
-/

namespace ConnectionPool.Scenario

/-! ## Parts -/

/-- A pool by number, in a registry by number. -/
structure PoolRef where
  /-- The registry. -/
  registry : Nat
  /-- The pool in it. -/
  pool : Nat
  deriving DecidableEq, Repr

/-- A lease on a connection. -/
structure LeaseRef where
  /-- The connection. -/
  conn : Nat
  /-- The connection is a pooled one. -/
  pooled : Bool
  /-- The pool the lease goes back to. -/
  pool : Option PoolRef
  deriving DecidableEq, Repr

/-- Work on a connection's queue. -/
inductive Work where
  /-- A query, with the number under which the pool keeps its retries. -/
  | query (kind : QueryKind) (s : Statement) (retry : Option (PoolRef × Nat))
  /-- Asks whether the connection is outside a transaction. -/
  | autocommit
  /-- Tells that it starts, passes a gate, and returns a text or fails. -/
  | append (ok : String) (gate fail : Option String)
  /-- Waits by a policy. -/
  | await (policy attempt : Nat) (code : Int)
  /-- A statement whose result nobody reads. -/
  | detached (sql : String)

/-- How far the work in flight is. -/
inductive Flight.Stage where
  /-- It can go on. -/
  | ready
  /-- It waits at a gate, with a ticket. -/
  | atGate (name : String) (ticket : Nat)
  /-- It waits for its turn with a policy. -/
  | atPolicy
  /-- It waits to try again, at most until the deadline. -/
  | paused (deadline : Nat) (ticket : Option (PoolRef × Nat))
  deriving DecidableEq, Repr

/-- The work in flight on a connection. -/
structure Flight where
  /-- The work. -/
  item : WorkItem Work
  /-- The number of the attempt. -/
  attempt : Nat := 0
  /-- How far it is. -/
  stage : Flight.Stage := .ready

/-- A connection. -/
structure Connection extends Membership PoolRef where
  /-- Its session with the engine. -/
  session : Nat
  /-- The path it was opened with. -/
  path : DatabasePath
  /-- Its settings. -/
  config : Config
  /-- Nothing holds it any more. -/
  dropped : Bool := false
  /-- Its work. -/
  queue : WorkQueue Work := {}
  /-- The work in flight. -/
  flight : Option Flight := none
  /-- The row id of the last statement that was run with success. -/
  lastRow : Int64 := 0
  /-- The message of the last engine error a query ended with. -/
  lastError : Option String := none
  /-- Its label, once it was shown. -/
  label : Option Nat := none

instance : Inhabited Connection :=
  ⟨{ role := .primary, pool := none, session := 0, path := ⟨""⟩, config := {} }⟩

/-- The connection accepts work. -/
def Connection.isOpen (c : Connection) : Bool := !c.closed && !c.queue.closing

/-- Something that runs. -/
inductive Actor where
  /-- A task. -/
  | task (n : Nat)
  /-- The worker of a connection. -/
  | worker (conn : Nat)
  deriving DecidableEq, Repr

/-- A gate: passes that are left, and those who wait for one. -/
structure Gate where
  /-- Passes that nobody took. -/
  passes : Nat := 0
  /-- Who waits, by ticket, first come first. -/
  waiting : List (Nat × Actor) := []
  /-- Tickets that got a pass and did not go on yet. -/
  granted : List Nat := []

/-- What happens when a timer is due. -/
inductive Timer.Target where
  /-- The work in flight on a connection goes on. -/
  | flight (conn item : Nat)
  /-- An idle connection is closed. -/
  | grace (pool : PoolRef) (timer : Nat)
  deriving DecidableEq, Repr

/-- A timer. -/
structure Timer where
  /-- When it is due. -/
  deadline : Nat
  /-- What happens then. -/
  target : Timer.Target
  deriving DecidableEq, Repr

/-- The policy of an operation that may retry, used by one wait at a time. -/
structure Policy where
  /-- How long a wait lasts. -/
  delay : Nat
  /-- The limit on retries. -/
  limit : Option Nat
  /-- The number under which its pool keeps its retries. -/
  retry : Option (PoolRef × Nat)
  /-- It was told that the connection closes, or was dropped. -/
  closing : Bool := false
  /-- No name leads to it. -/
  forgotten : Bool := false
  /-- It is gone. -/
  ended : Bool := false
  /-- The connection whose work waits by it. -/
  user : Option Nat := none
  /-- The connections whose work waits for its turn. -/
  line : List Nat := []

/-- An object that scripts name. -/
inductive Object where
  /-- A connection. -/
  | connection (conn : Nat)
  /-- A database: a connection and a registry. -/
  | database (conn registry : Nat)
  /-- A lease. -/
  | lease (l : LeaseRef)
  deriving DecidableEq, Repr

/-- What a frame gets from the one inside it. -/
inductive Reply where
  /-- Nothing to tell. -/
  | done
  /-- A truth value. -/
  | flag (b : Bool)
  /-- A text. -/
  | text (s : String)
  /-- The result of a query. -/
  | query (r : QueryResult)
  /-- An object. -/
  | object (o : Object)
  /-- The results of a unit of work. -/
  | items (answers : List Answer)
  /-- An error, and the rows delivered before it where that is told. -/
  | failed (e : Error) (seen : Option (List Row))
  /-- A panic. -/
  | panicked (message : String)

/-- A failure of a connection. -/
def Reply.refused (e : ConnectionError) : Reply := .failed (.connection e) none

/-! ## Tasks -/

/-- A pending acquisition. -/
structure Acquiring where
  /-- The pool. -/
  pool : PoolRef
  /-- The ticket in it. -/
  ticket : Nat
  /-- The path. -/
  path : DatabasePath
  /-- The initializer. -/
  init : Option (List InitStep)
  /-- The connection it opened. -/
  conn : Option Nat := none
  /-- What is left of the initializer. -/
  steps : List InitStep := []
  /-- The error the initializer failed with. -/
  failure : Option Error := none

/-- A transaction under way. -/
structure Transacting where
  /-- Its number among the transactions shown. -/
  number : Nat
  /-- Its coordinator. -/
  coordinator : Transaction (List Answer)
  /-- What the coordinator asked for and is not done. -/
  actions : List (Transaction.Action (List Answer)) := []
  /-- The connection its lease is asked for. -/
  primary : Nat
  /-- The connection of the outermost transaction. -/
  outermost : Nat
  /-- The registry. -/
  registry : Nat
  /-- How it is run. -/
  plan : Plan UnitItem
  /-- Its lease. -/
  lease : Option LeaseRef := none
  /-- Its connection. -/
  conn : Nat := 0
  /-- The items of the unit that are left. -/
  items : List UnitItem
  /-- The results so far. -/
  results : List Answer := []
  /-- The item under way keeps an error as its result. -/
  catching : Bool := false

/-- A wait, with what has to be done afterwards. -/
inductive Frame where
  /-- Starts an operation. -/
  | start (op : Operation)
  /-- Waits for work on a queue. -/
  | item (conn id : Nat)
  /-- Waits at a gate, with a ticket once it asked. -/
  | gate (name : String) (ticket : Option Nat)
  /-- Closes a connection, and waits for the end if it asked first. -/
  | closing (conn : Nat) (asked : Bool)
  /-- Acquires a pooled connection. -/
  | acquiring (a : Acquiring)
  /-- Runs a transaction. -/
  | transacting (t : Transacting)
  /-- Closes connections that were idle, pool by pool: the pool whose turn it is, the
  pools after it, and the connections of the former that are left. -/
  | shutdown (current : Option PoolRef) (pools : List PoolRef) (conns : List Nat)
  /-- Takes an idle connection whose time is over, to close it. -/
  | expire (pool : PoolRef) (timer : Nat)
  /-- Turns the object of a reply into a database. -/
  | asDatabase (registry : Nat)
  /-- Forgets what a statement reports. -/
  | forgetResult
  /-- Tells the rows delivered also when the query failed. -/
  | tellDelivered

/-- A task. -/
structure Task where
  /-- Its name, if scripts can see it. -/
  name : Option String
  /-- Its frames, innermost first. -/
  frames : List Frame
  /-- The reply that the innermost frame has to take. -/
  incoming : Option Reply := none
  /-- The connections it holds until it ends. -/
  conns : List Nat := []
  /-- The registries it holds until it ends. -/
  registries : List Nat := []
  /-- How it ended. -/
  outcome : Option Outcome := none
  /-- Its end was told. -/
  told : Bool := false

instance : Inhabited Task := ⟨{ name := none, frames := [] }⟩

/-- Everything a script can act on. -/
structure World where
  /-- The time, in milliseconds. -/
  clock : Nat := 0
  /-- The engine. -/
  engine : Engine := {}
  /-- The registries.  The first is the scenario's. -/
  registries : List Registry
  /-- The connections. -/
  conns : List Connection := []
  /-- The gates by name. -/
  gates : List (String × Gate) := []
  /-- The policies. -/
  policies : List Policy := []
  /-- The timers, in the order they were started. -/
  timers : List Timer := []
  /-- The tasks, in the order they were started. -/
  tasks : List Task := []
  /-- The actors that can go on. -/
  ready : List Actor := []
  /-- Replies that no task took yet, by work item. -/
  replies : List (Nat × Reply) := []
  /-- Connections, databases and leases by name. -/
  objects : List (String × Object) := []
  /-- Native connections that the registry does not know, by name. -/
  outsides : List (String × Nat) := []
  /-- Receivers of lock retries by name: pool and ticket. -/
  receivers : List (String × (PoolRef × Nat)) := []
  /-- Policies by name. -/
  policyNames : List (String × Nat) := []
  /-- The paths named so far. -/
  paths : List DatabasePath := []
  /-- What happened since the last step, latest first. -/
  events : List String := []
  /-- The next free ticket or work item. -/
  fresh : Nat := 0
  /-- The number of connections shown. -/
  shown : Nat := 0
  /-- The number of transactions shown. -/
  transactions : Nat := 0
  /-- Whether work in flight, by number, goes on once more before it is noticed that its caller
  left.  Nothing decides which of the two happens first. -/
  outruns : Nat → Bool := fun _ => false

/-- A computation in a world. -/
abbrev Sim := StateM World

/-- Whether an actor that was let run can go on. -/
inductive Progress where
  /-- It went on and can go on at once. -/
  | moved
  /-- It went on and lets the others go first. -/
  | yielded
  /-- It came to the end of some work, and lets the others go first. -/
  | ended (item : WorkItem Work) (result : Reply)
  /-- It waits. -/
  | blocked

namespace Sim

/-! ## Basics -/

/-- Notes what happened. -/
def event (text : String) : Sim Unit := modify fun w => { w with events := text :: w.events }

/-- A number that was not used. -/
def fresh : Sim Nat := modifyGet fun w => (w.fresh, { w with fresh := w.fresh + 1 })

/-- Lets an actor go on, after those that can already. -/
def wake (a : Actor) : Sim Unit := modify fun w =>
  if w.ready.contains a then w else { w with ready := w.ready ++ [a] }

/-- A connection. -/
def conn (c : Nat) : Sim Connection := do return (← get).conns.getD c default

/-- Changes a connection. -/
def modifyConn (c : Nat) (f : Connection → Connection) : Sim Unit := modify fun w =>
  { w with conns := w.conns.modify c f }

/-- An object by name. -/
def object? (name : String) : Sim (Option Object) := do
  return ((← get).objects.find? (·.1 == name)).map (·.2)

/-- Changes a task. -/
def modifyTask (n : Nat) (f : Task → Task) : Sim Unit := modify fun w =>
  { w with tasks := w.tasks.modify n f }

/-- Starts a task, and lets it go on after those that can already. -/
def spawn (t : Task) : Sim Unit := do
  let n := (← get).tasks.length
  modify fun w => { w with tasks := w.tasks ++ [t] }
  wake (.task n)

/-- Wakes the tasks whose innermost frame satisfies a test. -/
def wakeTasks (test : Frame → Bool) : Sim Unit := do
  let w ← get
  for (t, n) in w.tasks.zipIdx do
    if t.outcome.isNone && t.frames.head?.any test then wake (.task n)

/-! ## Pools -/

/-- A pool, while it is there. -/
def pool? (r : PoolRef) : Sim (Option Pool) := do
  let w ← get
  return ((w.registries[r.registry]?.bind fun reg => reg.get? r.pool).map (·.pool))

/-- Replaces a pool. -/
def putPool (r : PoolRef) (p : Pool) : Sim Unit := modify fun w =>
  { w with registries := w.registries.modify r.registry fun reg => reg.put r.pool p }

/-- Changes a pool that is there. -/
def modifyPool (r : PoolRef) (f : Pool → Pool) : Sim Unit := do
  if let some p ← pool? r then putPool r (f p)

/-- The flight waits with the ticket of a pool. -/
def flightWaits (r : PoolRef) (ticket : Nat) (c : Connection) : Bool :=
  c.flight.any fun f =>
    match f.stage with
    | .paused _ t => t == some (r, ticket)
    | _ => false

/-- The frame waits with the ticket of a pool. -/
def frameWaits (r : PoolRef) (ticket : Nat) : Frame → Bool
  | .acquiring a => a.pool == r && a.ticket == ticket
  | _ => false

/-- Lets whoever a waiter stands for go on. -/
def notify (r : PoolRef) (woken : Option Waiter) : Sim Unit := do
  match woken with
  | none => pure ()
  | some w =>
    match w.kind with
    | .acquisition => wakeTasks (frameWaits r w.ticket)
    | .retry =>
      for (c, n) in (← get).conns.zipIdx do
        if flightWaits r w.ticket c then wake (.worker n)

/-- Does a step of a pool that may wake a waiter. -/
def stepPool (r : PoolRef) (f : Pool → Pool × Option Waiter) : Sim Unit := do
  if let some p ← pool? r then
    let (p, woken) := f p
    putPool r p
    notify r woken

/-- The pool of a path in a registry, made if it is missing. -/
def poolFor (registry : Nat) (path : DatabasePath) : Sim PoolRef := do
  let w ← get
  match w.registries[registry]? with
  | none => return ⟨registry, 0⟩
  | some reg =>
    let (reg, p) := reg.entry path
    set { w with registries := w.registries.set registry reg }
    return ⟨registry, p.id⟩

/-- The pool, if it is still there. -/
def liveRef (r : Option PoolRef) : Sim (Option PoolRef) := do
  match r with
  | none => return none
  | some r => return if (← pool? r).isSome then some r else none

/-! ## Showing connections -/

/-- The label of a connection, given to it now if it has none. -/
def label (c : Nat) : Sim Nat := do
  match (← conn c).label with
  | some n => return n
  | none =>
    let n := (← get).shown + 1
    modify fun w => { w with shown := n }
    modifyConn c fun x => { x with label := some n }
    return n

/-- A connection as it is shown. -/
def info (c : Nat) : Sim ConnectionInfo := do
  let n ← label c
  let x ← conn c
  return ⟨n, x.role, x.path.isMemory, x.isOpen, x.path⟩

/-! ## Gates -/

/-- A gate. -/
def gate (name : String) : Sim Gate := do
  return (((← get).gates.find? (·.1 == name)).map (·.2)).getD {}

/-- Replaces a gate. -/
def putGate (name : String) (g : Gate) : Sim Unit := modify fun w =>
  { w with gates := w.gates.filter (·.1 != name) ++ [(name, g)] }

/-- Asks for a pass: nothing if it was given at once, otherwise a ticket. -/
def askPass (name : String) (who : Actor) : Sim (Option Nat) := do
  let g ← gate name
  if 0 < g.passes then
    putGate name { g with passes := g.passes - 1 }
    return none
  else
    let ticket ← fresh
    putGate name { g with waiting := g.waiting ++ [(ticket, who)] }
    return some ticket

/-- Goes on with a pass that was given to a ticket. -/
def takePass (name : String) (ticket : Nat) : Sim Bool := do
  let g ← gate name
  if g.granted.contains ticket then
    putGate name { g with granted := g.granted.erase ticket }
    return true
  else return false

/-- Gives one pass, to the first who waits. -/
def givePass (name : String) : Sim Unit := do
  let g ← gate name
  match g.waiting with
  | [] => putGate name { g with passes := g.passes + 1 }
  | (ticket, who) :: rest =>
    putGate name { g with waiting := rest, granted := g.granted ++ [ticket] }
    wake who

/-- Gives passes. -/
def givePasses (name : String) : (count : Nat) → Sim Unit
  | 0 => pure ()
  | count + 1 => do
    givePass name
    givePasses name count

/-- Waits no longer.  A pass that was given goes to the next. -/
def leaveGate (name : String) (ticket : Nat) : Sim Unit := do
  let g ← gate name
  if g.granted.contains ticket then
    putGate name { g with granted := g.granted.erase ticket }
    givePass name
  else putGate name { g with waiting := g.waiting.filter (·.1 != ticket) }

/-! ## Retries -/

/-- A new operation that may retry, on a connection of the pool. -/
def beginRetries (r : Option PoolRef) : Sim (Option (PoolRef × Nat)) := do
  match r with
  | none => return none
  | some r =>
    match ← pool? r with
    | none => return none
    | some p =>
      let (p, id) := p.beginRetries
      putPool r p
      return some (r, id)

/-- An operation that may retry ends. -/
def endRetries (retry : Option (PoolRef × Nat)) : Sim Unit := do
  if let some (r, id) := retry then stepPool r fun p => p.endRetries id

/-- Changes what an operation that may retry remembers. -/
def stepRetry (retry : Option (PoolRef × Nat)) (f : Pool → RetryState → Pool) : Sim Unit := do
  if let some (r, id) := retry then
    modifyPool r fun p =>
      match p.retry? id with
      | some state => f p state
      | none => p

/-- Begins a pause after the attempt of a number: how far the flight is then. -/
def pause (c : Nat) (retry : Option (PoolRef × Nat)) (delay attempt : Nat) :
    Sim Flight.Stage := do
  let deadline := (← get).clock + delay
  let alive ← match retry with
    | none => pure none
    | some (r, id) => do pure ((← pool? r).bind fun p => (p.retry? id).map fun s => (r, p, s))
  let count := match alive with
    | none => 1
    | some (_, p, _) => p.entry.openConnections
  let strategy := RetryStrategy.forOpenConnections count delay
  event ("retry " ++ toString (attempt + 1) ++ " " ++ strategy.name)
  match strategy, alive with
  | .queued, some (r, p, s) =>
    let autocommit := (← get).engine.autocommit (← conn c).session
    let (p, ticket, woken) := p.pauseParked s autocommit
    putPool r p
    notify r woken
    return .paused deadline (some (r, ticket))
  | _, some (r, p, s) =>
    putPool r (p.pauseDelayed s)
    return .paused deadline none
  | _, none => return .paused deadline none

/-- Starts a timer. -/
def startTimer (deadline : Nat) (target : Timer.Target) : Sim Unit := modify fun w =>
  { w with timers := w.timers ++ [⟨deadline, target⟩] }

/-! ## Connections -/

/-- Opens a connection. -/
def connect (path : DatabasePath) (role : Role) (config : Config) (pool : Option PoolRef) :
    Sim (Except ConnectionError Nat) := do
  if path.isEmpty then return .error (.io "Database path cannot be empty")
  else
    let w ← get
    match w.engine.openSession path with
    | .error fault => return .error (.openFailed path.text fault.toDriverError)
    | .ok (engine, session) =>
      let c : Connection := { session, path, role, config, pool }
      set { w with engine, conns := w.conns ++ [c] }
      return .ok w.conns.length

/-- A connection is closed: its pool counts it no longer, and it accepts no more work. -/
def shut (c : Nat) : Sim Unit := do
  let (membership, counted) := (← conn c).shut
  if let some r := counted then modifyPool r Pool.closePrimary
  modifyConn c fun x => { x with toMembership := membership, queue := x.queue.requestClose }
  wake (.worker c)

/-- Closes a connection.  Tells whether to wait for the end. -/
def beginClose (c : Nat) : Sim Bool := do
  shut c
  let (queue, waits) := (← conn c).queue.takeClose
  modifyConn c fun x => { x with queue }
  return waits

/-- Adds work to a connection's queue: its number, unless work is refused. -/
def submit (c : Nat) (work : Work) (detached : Bool) : Sim (Option Nat) := do
  let id ← fresh
  match (← conn c).queue.submit { id, work, detached } with
  | none => return none
  | some queue =>
    modifyConn c fun x => { x with queue }
    wake (.worker c)
    return some id

/-- Submits a query: its number, unless work is refused. -/
def submitQuery (c : Nat) (kind : QueryKind) (s : Statement) : Sim (Option Nat) := do
  let x ← conn c
  if !x.isOpen then return none
  else
    if x.config.trace then event ("sql " ++ s.sql)
    let retry ← beginRetries x.pool
    match ← submit c (.query kind s retry) false with
    | some id => return some id
    | none =>
      endRetries retry
      return none

/-- Queues a statement that nobody waits for, unless work is refused. -/
def submitDetached (c : Nat) (sql : String) : Sim Bool := do
  return (← submit c (.detached sql) true).isSome

/-- Gives back a lease.  Without a runtime no timer can be started, and a pooled
connection does not become idle. -/
def release (l : LeaseRef) (runtime : Bool) : Sim Unit := do
  if let some r := l.pool then
    if l.pooled then
      if let some p ← pool? r then
        let x ← conn l.conn
        let grace := x.config.closingGrace
        let keep := x.isOpen && runtime
        let deadline := (← get).clock + grace
        let timer := p.fresh
        let (p, woken) := p.release l.conn (if keep then some deadline else none)
        putPool r p
        if keep then
          if grace = 0 then spawn { name := none, frames := [.expire r timer] }
          else startTimer deadline (.grace r timer)
        notify r woken
    else stepPool r Pool.releasePrimary

/-! ## Holding -/

/-- The connections an object holds. -/
def objectConns : Object → List Nat
  | .connection c => [c]
  | .database c _ => [c]
  | .lease l => [l.conn]

/-- The connections a frame holds. -/
def frameConns : Frame → List Nat
  | .closing c _ => [c]
  | .acquiring a => a.conn.toList
  | .transacting t => (t.lease.map (·.conn)).toList
  | .shutdown _ _ conns => conns
  | _ => []

/-- The connections held. -/
def heldConns (w : World) : List Nat :=
  w.objects.flatMap (fun o => objectConns o.2)
    ++ w.tasks.flatMap (fun t =>
      if t.outcome.isSome then []
      else t.conns ++ t.frames.flatMap frameConns
        ++ match t.incoming with
          | some (.object o) => objectConns o
          | _ => [])
    ++ w.registries.flatMap fun reg => reg.pools.flatMap fun p => p.pool.entry.idle.map (·.conn)

/-- The registries held.  The scenario's always is. -/
def heldRegistries (w : World) : List Nat :=
  0 :: w.objects.filterMap (fun o =>
      match o.2 with
      | .database _ r => some r
      | _ => none)
    ++ w.tasks.flatMap fun t => if t.outcome.isSome then [] else t.registries

/-- Some work waits by a policy or will. -/
def policyInUse (w : World) (n : Nat) : Bool :=
  w.conns.any fun c =>
    (c.queue.pending ++ c.queue.current.toList).any fun i =>
      match i.work with
      | .await p _ _ => p == n
      | _ => false

/-- Drops a policy that nothing leads to and nothing uses. -/
def reapPolicies : Sim Unit := do
  let w ← get
  for (p, n) in w.policies.zipIdx do
    if p.forgotten && !p.ended && !policyInUse w n then
      modify fun w => { w with policies := w.policies.modify n fun p => { p with ended := true } }
      endRetries p.retry

/-- Drops the pools of registries that nothing holds. -/
def reapRegistries : Sim Unit := modify fun w =>
  let held := heldRegistries w
  { w with registries := w.registries.zipIdx.map fun (reg, n) =>
      if held.contains n then reg
      else { reg with pools := reg.pools.filter fun p => p.pool.isHeld } }

/-- Drops the connections that nothing holds. -/
def reapConns : Sim Unit := do
  let w ← get
  let held := heldConns w
  for (c, n) in w.conns.zipIdx do
    if !c.dropped && !held.contains n then
      modifyConn n fun x => { x with dropped := true }
      shut n

/-- Drops what nothing holds. -/
def reap : Sim Unit := do
  reapRegistries
  reapConns
  reapPolicies

end Sim

end ConnectionPool.Scenario
