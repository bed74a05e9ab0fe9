import ConnectionPool.Scenario.Task

/-!
# Running scripts

After each step the actors run until none can go on.  Time passes only in steps that
move the clock, and timers that are due then fire in the order of their deadlines.

The actors that can go on stand in a line.  The first one runs until it waits or lets
the others go first.  The number of single steps between two steps of a script is
bounded by `patience`, which no run reaches that waits in the end.
-/

namespace ConnectionPool.Scenario

namespace Sim

/-! ## Settling -/

/-- Lets one actor do one step. -/
def runActor (a : Actor) : Sim Progress := do
  match a with
  | .task n => runTask n
  | .worker c => runWorker c

/-- Puts an actor back in line after a step. -/
def requeue (a : Actor) (p : Progress) : Sim Unit := modify fun w =>
  match p with
  | .moved => { w with ready := a :: w.ready.erase a }
  | .yielded | .ended _ _ => { w with ready := w.ready.erase a ++ [a] }
  | .blocked => w

/-- Lets the actors run until none can go on, at most so many single steps. -/
def settle : (fuel : Nat) → Sim Unit
  | 0 => pure ()
  | fuel + 1 => do
    match (← get).ready with
    | [] => pure ()
    | a :: ready =>
      modify fun w => { w with ready }
      let p ← runActor a
      requeue a p
      reap
      settle fuel

/-- More single steps than actors take that wait in the end. -/
def patience : Nat := 200000

/-! ## Time -/

/-- Fires a timer. -/
def fire (t : Timer) : Sim Unit := do
  match t.target with
  | .flight c item =>
    if (← conn c).flight.any (·.item.id == item) then wake (.worker c)
  | .grace r timer =>
    if (← pool? r).any fun p => p.timers.any (·.id == timer) then
      spawn { name := none, frames := [.expire r timer] }

/-- Moves the clock, and fires what is due. -/
def advance (ms : Nat) : Sim Unit := do
  modify fun w => { w with clock := w.clock + ms }
  let w ← get
  let due := w.timers.filter fun t => t.deadline ≤ w.clock
  set { w with timers := w.timers.filter fun t => !(t.deadline ≤ w.clock) }
  for t in due.mergeSort (fun a b => a.deadline ≤ b.deadline) do fire t

/-! ## Commands -/

/-- The pool that the connection of an object belongs to, while it is there. -/
def targetPool (name : String) : Sim (Option PoolRef) := do
  liveRef (← conn (← targetConn name)).pool

/-- The debugging text of a registry. -/
def debugRegistry (registry : Nat) : Sim String := do
  match (← get).registries[registry]? with
  | none => return ""
  | some reg => return registryText reg.config reg.pools.length

/-- The debugging text of an object. -/
def debugObject (o : Object) : Sim String := do
  match o with
  | .connection c => return connectionText (← info c)
  | .lease l => return leaseText (← info l.conn) l.pooled
  | .database c r => return databaseText (← info c) (← debugRegistry r)

/-- Removes the name of an object and drops it. -/
def forgetObject (name : String) : Sim Unit := do
  if let some o ← object? name then
    modify fun w => { w with objects := w.objects.filter (·.1 != name) }
    dropObject o

/-- The summary of a path. -/
def statsOf (registry : Nat) (path : DatabasePath) : Sim (Option PoolStats) := do
  return (← get).registries[registry]?.bind fun reg => reg.stats path

/-- Drops a receiver that no name leads to any more. -/
def dropNamedReceiver (name : String) : Sim Unit := do
  if let some (_, r, ticket) := (← get).receivers.find? (·.1 == name) then
    if (← pool? r).any fun p => (p.receiver? ticket).isSome then
      modifyPool r fun p => p.dropReceiver ticket
    modify fun w => { w with receivers := w.receivers.filter (·.1 != name) }

/-- Looks whether a lock retry was woken, and takes the wake. -/
def pollReceiver (name : String) : Sim Reading := do
  match (← get).receivers.find? (·.1 == name) with
  | none => return .unknown
  | some (_, r, ticket) =>
    match (← pool? r).bind fun p => p.receiver? ticket with
    | none => return .text "closed"
    | some receiver =>
      if receiver.woken then
        modifyPool r fun p => p.dropReceiver ticket
        return .text "woken"
      else return .text "waiting"

/-- Drops the receiver of a name, if there is one. -/
def unparkReceiver (name : String) : Sim (Option Reading) := do
  if (← get).receivers.any (·.1 == name) then
    dropNamedReceiver name
    return none
  else return some .unknown

/-- Changes the policy of a name, and lets the work that waits by it go on. -/
def closePolicy (name : String) (forgotten : Bool) : Sim Unit := do
  if let some (_, n) := (← get).policyNames.find? (·.1 == name) then
    modifyPolicy n fun p => { p with closing := true, forgotten := p.forgotten || forgotten }
    if let some p ← policy n then
      if let some c := p.user then wake (.worker c)
    if forgotten then
      modify fun w => { w with policyNames := w.policyNames.filter (·.1 != name) }

/-- Makes a policy for the connection of an object. -/
def makePolicy (name on : String) (config : Option Config) : Sim Unit := do
  closePolicy name true
  let x ← conn (← targetConn on)
  let config := config.getD (((← get).registries[0]?.map (·.config)).getD {})
  let retry ← beginRetries x.pool
  let p : Policy := { delay := config.lockRetryDelay, limit := config.maxLockRetries, retry }
  let n := (← get).policies.length
  modify fun w => { w with
    policies := w.policies ++ [p]
    policyNames := w.policyNames ++ [(name, n)] }

/-- Queues a lock retry in a pool, and keeps its receiver under a name. -/
def parkRetry (r : PoolRef) (name : String) (autocommit owesWake : Bool) : Sim Reading := do
  dropNamedReceiver name
  match ← pool? r with
  | none => return .unknown
  | some p =>
    let (p, ticket, owed, woken) := p.park autocommit owesWake
    putPool r p
    notify r woken
    modify fun w => { w with receivers := w.receivers ++ [(name, (r, ticket))] }
    return .flag owed

/-- Does something with the pool that the connection of an object belongs to. -/
def withTargetPool (on : String) (act : PoolRef → Sim (Option Reading)) :
    Sim (Option Reading) := do
  match ← targetPool on with
  | none => return some .unknown
  | some r => act r

/-- Opens a native connection that the registry does not know. -/
def openOutside (name : String) (path : DatabasePath) : Sim Unit := do
  let w ← get
  match w.engine.openSession path with
  | .error _ => pure ()
  | .ok (engine, session) =>
    let others := w.outsides.filter fun (o : String × Nat) => o.1 != name
    set { w with engine, outsides := others ++ [(name, session)] }

/-- Runs a statement on a native connection that the registry does not know. -/
def runOutside (name sql : String) : Sim Reading := do
  let w ← get
  match w.outsides.find? (·.1 == name) with
  | none => return .unknown
  | some (_, session) =>
    let (engine, o) := w.engine.run session sql [] false
    set { w with engine }
    match o.failure with
    | none => return .text "ok"
    | some (.database code text) => return .engineFailure (toString code) text
    | some e => return .error (.driver e)

/-- Closes a native connection that the registry does not know. -/
def closeOutside (name : String) : Sim Unit := do
  let w ← get
  if let some (_, session) := w.outsides.find? (·.1 == name) then
    let outsides := w.outsides.filter fun (o : String × Nat) => o.1 != name
    set { w with engine := w.engine.closeSession session, outsides }

/-- Drops the task of a name that did not end. -/
def cancel (name : String) : Sim Unit := do
  for (t, n) in (← get).tasks.zipIdx do
    if t.name == some name then abortTask n t

/-- Describes an object. -/
def describe (on : String) : Sim Reading := do
  match ← object? on with
  | none => return .unknown
  | some (.connection c) => return .connection (← info c)
  | some (.lease l) => return .lease (← info l.conn) l.pooled
  | some (.database c r) =>
    return .database (← info c) (← statsOf r (← conn c).path)

/-- Does a command, for a step of a name. -/
def runCommand (name : String) (c : Command) : Sim (Option Reading) := do
  match c with
  | .detached on sql =>
    if ← submitDetached (← targetConn on) sql then return some (.text "queued")
    else return some (.error (.connection .closed))
  | .forget on =>
    forgetObject on
    return none
  | .last on =>
    let x ← conn (← targetConn on)
    return some (.last x.lastRow x.lastError)
  | .info on => return some (← describe on)
  | .debug none => return some (.text (← debugRegistry 0))
  | .debug (some on) =>
    match ← object? on with
    | some o => return some (.text (← debugObject o))
    | none => return some .unknown
  | .release on how =>
    if let some (.lease l) ← object? on then
      modify fun w => { w with objects := w.objects.filter (·.1 != on) }
      release l (how == .returned)
    return none
  | .gate gate passes =>
    givePasses gate passes
    return none
  | .cancel task =>
    cancel task
    return none
  | .advance ms =>
    advance ms
    return none
  | .stats path => return some (.stats (← statsOf 0 path))
  | .prune =>
    let w ← get
    match w.registries with
    | [] => return some (.count 0)
    | reg :: others =>
      let (reg, removed) := reg.prune
      set { w with registries := reg :: others }
      return some (.count removed)
  | .config =>
    return some (.text (((← get).registries[0]?.map fun reg => reg.config.encode.text).getD ""))
  | .remove path =>
    modify fun w => { w with engine := { w.engine with
      directory := w.engine.directory.remove path.components } }
    return none
  | .outside path =>
    openOutside name path
    return none
  | .outsideRun on sql => return some (← runOutside on sql)
  | .outsideClose on =>
    closeOutside on
    return none
  | .register on =>
    withTargetPool on fun r => do
      modifyPool r fun p => { p with entry := p.entry.registerPrimary }
      return none
  | .unregister on =>
    withTargetPool on fun r => do
      modifyPool r Pool.closePrimary
      return none
  | .openConnections on =>
    withTargetPool on fun r => do
      return (← pool? r).map fun p => .count p.entry.openConnections
  | .wake on =>
    withTargetPool on fun r => do
      stepPool r Pool.wake
      return none
  | .park on autocommit owesWake =>
    withTargetPool on fun r => return some (← parkRetry r name autocommit owesWake)
  | .poll receiver => return some (← pollReceiver receiver)
  | .unpark receiver => unparkReceiver receiver
  | .policy on config =>
    makePolicy name on config
    return none
  | .policyClose policy =>
    closePolicy policy false
    return none
  | .policyDrop policy =>
    closePolicy policy true
    return none

/-! ## Steps -/

/-- The path an operation names, of those that are shown. -/
def namedPath? : Operation → Option DatabasePath
  | .openPath path => some path
  | .connect path _ => some path
  | _ => none

/-- The name of the object an operation works on. -/
def subject? : Operation → Option String
  | .query on _ _ => some on
  | .vacuum on => some on
  | .autocommit on => some on
  | .append on _ _ _ => some on
  | .close on => some on
  | .acquire on _ _ => some on
  | .transaction on _ _ => some on
  | .wait on _ _ _ => some on
  | _ => none

/-- Starts the task of an operation.  It holds what it works on until it ends. -/
def startTask (name : String) (op : Operation) : Sim Unit := do
  if let some path := namedPath? op then
    modify fun w =>
      { w with paths := if w.paths.contains path then w.paths else w.paths ++ [path] }
  let (conns, registries) ← match subject? op with
    | none => pure ([], [])
    | some on => do
      match ← target? on with
      | none => pure ([], [])
      | some (c, r) => pure ([c], [r])
  spawn { name := some name, frames := [.start op], conns, registries }

/-- The ends of tasks that were not told yet. -/
def tellDone : Sim (List (String × Outcome)) := do
  let w ← get
  let ended := w.tasks.filterMap fun (t : Task) =>
    if t.told then none
    else match t.name, t.outcome with
      | some name, some outcome => some (name, outcome)
      | _, _ => none
  let tasks := w.tasks.map fun (t : Task) =>
    { t with told := t.told || (t.name.isSome && t.outcome.isSome) }
  set { w with tasks }
  return ended

/-- What happened since the last step, in order. -/
def tellEvents : Sim (List String) := modifyGet fun w =>
  (w.events.reverse, { w with events := [] })

/-- The summaries of the paths named so far. -/
def tellPools : Sim (List (DatabasePath × PoolStats)) := do
  let w ← get
  return w.paths.filterMap fun path =>
    (w.registries[0]?.bind fun reg => reg.stats path).map fun s => (path, s)

/-- Does a step, lets the actors run, and tells what there is to show. -/
def runStep (s : Step) : Sim StepAnswer := do
  let reading ← match s.act with
    | .task op => do
      startTask s.name op
      pure none
    | .now c => runCommand s.name c
  reap
  settle patience
  let done ← tellDone
  let events ← tellEvents
  return { pools := ← tellPools, reading, done, events }

end Sim

/-- A script: settings of its registry, and steps. -/
structure Script where
  /-- The settings. -/
  config : Config := {}
  /-- The steps. -/
  steps : List Step

/-- The names of the tasks that did not end. -/
def World.unfinished (w : World) : List String :=
  w.tasks.filterMap fun t => if t.outcome.isNone then t.name else none

/-- What the steps of a script show, and the names of the tasks that did not end. -/
def Script.run (s : Script) : List StepAnswer × List String :=
  let (answers, w) := (s.steps.mapM Sim.runStep).run { registries := [{ config := s.config }] }
  (answers, w.unfinished)

end ConnectionPool.Scenario
