import ConnectionPool.Scenario.Worker

/-!
# Tasks

Letting a task run does one step of its innermost frame: the frame takes the reply of
the frame that was inside it, or looks whether what it waits for happened.  A frame
that is done leaves its reply to the next one.  A task ends when its last frame has
replied.

Dropping a frame undoes what it holds.  Dropping a task drops the frames from the
innermost outwards.
-/

namespace ConnectionPool.Scenario.Sim

/-! ## Stepping a stack of frames -/

/-- Replaces the frames of a task. -/
def setFrames (n : Nat) (frames : List Frame) : Sim Unit :=
  modifyTask n fun t => { t with frames }

/-- The innermost frame is done and leaves a reply. -/
def reply (n : Nat) (rest : List Frame) (r : Reply) : Sim Progress := do
  modifyTask n fun t => { t with frames := rest, incoming := some r }
  return .moved

/-- The innermost frame is replaced. -/
def become (n : Nat) (rest : List Frame) (f : Frame) : Sim Progress := do
  setFrames n (f :: rest)
  return .moved

/-- The innermost frame waits for another one. -/
def push (n : Nat) (rest : List Frame) (outer inner : Frame) : Sim Progress := do
  setFrames n (inner :: outer :: rest)
  return .moved

/-- Waits for submitted work, or replies that it was refused. -/
def awaitItem (n : Nat) (rest : List Frame) (c : Nat) (id : Option Nat) : Sim Progress := do
  match id with
  | some id => become n rest (.item c id)
  | none => reply n rest (.refused .closed)

/-- Waits for submitted work inside a frame, or gives the frame the refusal. -/
def awaitItemIn (n : Nat) (rest : List Frame) (outer : Frame) (c : Nat) (id : Option Nat) :
    Sim Progress := do
  match id with
  | some id => push n rest outer (.item c id)
  | none => reply n (outer :: rest) (.refused .closed)

/-! ## Answers -/

/-- The answer that the result of a reply is shown as, when it is no error. -/
def answerOf (r : Reply) : Sim Answer := do
  match r with
  | .done => return .done
  | .flag b => return .flag b
  | .text s => return .text s
  | .query q => return .query q
  | .items answers => return .items answers
  | .object (.connection c) => return .connection (← info c)
  | .object (.database c _) => return .connection (← info c)
  | .object (.lease l) => return .lease (← info l.conn) l.pooled
  | .failed e _ => return .caught e
  | .panicked message => return .text message

/-- The outcome that a reply is for its task. -/
def outcomeOf (r : Reply) : Sim Outcome := do
  match r with
  | .failed e seen => return .error e seen
  | .panicked message => return .panic message
  | r => return .ok (← answerOf r)

/-- Drops an object: a lease is given back. -/
def dropObject (o : Object) : Sim Unit := do
  match o with
  | .lease l => release l true
  | _ => pure ()

/-- Gives a name to an object.  What had the name is dropped. -/
def nameObject (name : String) (o : Object) : Sim Unit := do
  let old ← object? name
  modify fun w => { w with objects := w.objects.filter (·.1 != name) ++ [(name, o)] }
  if let some o := old then dropObject o

/-- A task ends. -/
def finishTask (n : Nat) (t : Task) (r : Reply) : Sim Unit := do
  let outcome ← outcomeOf r
  modifyTask n fun t => { t with incoming := none, outcome := some outcome }
  match t.name, r with
  | some name, .object o => nameObject name o
  | _, _ => pure ()

/-! ## Acquisitions -/

/-- The lease that an acquisition ends with. -/
def leased (n : Nat) (rest : List Frame) (r : PoolRef) (c : Nat) : Sim Progress :=
  reply n rest (.object (.lease ⟨c, true, some r⟩))

/-- An acquisition ends without a lease.  The connection it opened is gone before its
slot is given back. -/
def giveUpAcquiring (a : Acquiring) : Sim Unit := do
  reap
  stepPool a.pool fun p => p.abandon a.ticket

/-- Opens the connection of an acquisition. -/
def openPooled (n : Nat) (rest : List Frame) (a : Acquiring) (config : Config) :
    Sim Progress := do
  match ← connect a.path .pooled config (some a.pool) with
  | .error e =>
    setFrames n rest
    giveUpAcquiring a
    reply n rest (.refused e)
  | .ok c =>
    modifyPool a.pool fun p => p.opened a.ticket c
    match a.init with
    | none => become n rest (.acquiring { a with conn := some c })
    | some steps =>
      event ("init " ++ labelName (← label c))
      become n rest (.acquiring { a with conn := some c, steps })

/-- The initializer of an acquisition failed: its connection is closed. -/
def failInitializer (n : Nat) (rest : List Frame) (a : Acquiring) (c : Nat) (e : Error) :
    Sim Progress := do
  modifyPool a.pool fun p => p.initializerFailed a.ticket c
  push n rest (.acquiring { a with failure := some e }) (.closing c false)

/-- The next step of the initializer, or the lease when there is none. -/
def prepare (n : Nat) (rest : List Frame) (a : Acquiring) (c : Nat) : Sim Progress := do
  match a.steps with
  | [] =>
    modifyPool a.pool fun p => p.lease a.ticket c
    leased n rest a.pool c
  | step :: steps =>
    let a := { a with steps }
    match step with
    | .run sql =>
      awaitItemIn n rest (.acquiring a) c (← submitQuery c .run ⟨sql, .none⟩)
    | .gate name => push n rest (.acquiring a) (.gate name none)
    | .fail message =>
      failInitializer n rest a c (.connection (.invalidArguments message))

/-- A step of an acquisition. -/
def runAcquiring (n : Nat) (rest : List Frame) (a : Acquiring) (incoming : Option Reply) :
    Sim Progress := do
  match ← pool? a.pool with
  | none => reply n rest (.refused .cancelled)
  | some p =>
    match p.stage? a.ticket, incoming with
    | none, _ => reply n rest (.refused .cancelled)
    | some .queued, _ => return .blocked
    | some .granted, _ =>
      let w ← get
      let (p, reclaimed) := p.claim a.ticket fun c => (w.conns.getD c default).isOpen
      putPool a.pool p
      match reclaimed with
      | some c => leased n rest a.pool c
      | none => return .moved
    | some .opening, _ =>
      let config := ((← get).registries[a.pool.registry]?.map (·.config)).getD {}
      openPooled n rest a config
    | some (.preparing c), some (.failed e _) => failInitializer n rest a c e
    | some (.preparing c), _ => prepare n rest a c
    | some (.closing _), _ =>
      setFrames n rest
      giveUpAcquiring a
      reply n rest (.failed (a.failure.getD (.connection .cancelled)) none)

/-- Starts to lease a connection: the primary one, or a pooled one of its path. -/
def startAcquiring (n : Nat) (rest : List Frame) (registry primary : Nat) (fresh : Bool)
    (init : Option (List InitStep)) : Sim Progress := do
  let x ← conn primary
  if !fresh || x.path.isMemory then
    let pool ← liveRef x.pool
    if let some r := pool then modifyPool r Pool.leasePrimary
    reply n rest (.object (.lease ⟨primary, false, pool⟩))
  else
    let r ← poolFor registry x.path
    match ← pool? r with
    | none => reply n rest (.refused .cancelled)
    | some p =>
      let (p, ticket) := p.acquire
      putPool r p
      let path := (((← get).registries[r.registry]?.bind fun reg => reg.get? r.pool).map
        (·.path)).getD x.path
      become n rest (.acquiring { pool := r, ticket, path, init })

/-! ## Transactions -/

/-- The name of a transaction. -/
def Transacting.title (t : Transacting) : String := "tx" ++ toString t.number

/-- Gives an event to the coordinator. -/
def advanceTransaction (t : Transacting) (e : Transaction.Event (List Answer)) : Transacting :=
  let (coordinator, actions) := t.coordinator.step e
  { t with coordinator, actions := t.actions ++ actions }

/-- A transaction that begins. -/
def newTransaction (plan : Plan UnitItem) (registry primary outermost : Nat) : Sim Transacting := do
  let number := (← get).transactions + 1
  modify fun w => { w with transactions := number }
  let t : Transacting := {
    number, primary, outermost, registry, plan
    coordinator := { mode := plan.mode }
    items := plan.body }
  return advanceTransaction t .start

/-- Notes that a transaction went from one state to another. -/
def traceTransition (t : Transacting) (source target : TransactionState) : Sim Unit :=
  event (Transacting.title t ++ " " ++ source.name ++ ">" ++ target.name)

/-- Gives back the lease of a transaction. -/
def releaseTransaction (t : Transacting) : Sim Transacting := do
  if let some l := t.lease then release l true
  return { t with lease := none }

/-- Keeps the result of an item. -/
def keepResult (t : Transacting) (a : Answer) : Transacting :=
  { t with results := t.results ++ [a], catching := false }

/-- An item of a unit ended with a reply. -/
def itemDone (t : Transacting) (r : Reply) : Sim Transacting := do
  match r with
  | .failed e _ =>
    if t.catching then return keepResult t (.caught e)
    else return advanceTransaction t (.unitDone (.error e))
  | .panicked message => return advanceTransaction t (.unitDone (.panic message))
  | .done => return { t with catching := false }
  | .query (.delivered rows) => return keepResult t (.query (.rows rows))
  | r => return keepResult t (← answerOf r)

/-- Runs an item of a unit. -/
def runItem (n : Nat) (rest : List Frame) (t : Transacting) (item : UnitItem) : Sim Progress := do
  match item with
  | .query kind s catches =>
    awaitItemIn n rest (.transacting { t with catching := catches }) t.conn
      (← submitQuery t.conn kind s)
  | .gate name => push n rest (.transacting t) (.gate name none)
  | .panic message =>
    become n rest (.transacting (advanceTransaction t (.unitDone (.panic message))))
  | .fail message =>
    become n rest (.transacting (advanceTransaction t (.unitDone (.error (.other message)))))
  | .failDriver e =>
    become n rest (.transacting (advanceTransaction t (.unitDone (.error (.driver e)))))
  | .who => become n rest (.transacting (keepResult t (.connection (← info t.conn))))
  | .autocommit =>
    awaitItemIn n rest (.transacting t) t.conn (← submit t.conn .autocommit false)
  | .close => push n rest (.transacting t) (.closing t.conn false)
  | .detached sql =>
    if ← submitDetached t.conn sql then become n rest (.transacting t)
    else reply n (.transacting t :: rest) (.refused .closed)
  | .nested plan onCurrent catches =>
    let primary := if onCurrent then t.conn else t.outermost
    let inner ← newTransaction plan t.registry primary primary
    push n rest (.transacting { t with catching := catches }) (.transacting inner)

/-- Does what a coordinator asked for. -/
def act (n : Nat) (rest : List Frame) (t : Transacting)
    (a : Transaction.Action (List Answer)) : Sim Progress := do
  match a with
  | .trace source target =>
    traceTransition t source target
    become n rest (.transacting t)
  | .acquire =>
    setFrames n (.transacting t :: rest)
    startAcquiring n (.transacting t :: rest) t.registry t.primary t.plan.fresh t.plan.init
  | .submit sql =>
    awaitItemIn n rest (.transacting t) t.conn (← submitQuery t.conn .run ⟨sql, .none⟩)
  | .runUnit =>
    match t.plan.panics with
    | some message =>
      become n rest (.transacting (advanceTransaction t (.unitDone (.panic message))))
    | none => become n rest (.transacting t)
  | .noteRollbackFailed =>
    event (Transacting.title t ++ " rollback failed")
    become n rest (.transacting t)
  | .noteDropped state =>
    event (Transacting.title t ++ " dropped " ++ state.name)
    become n rest (.transacting t)
  | .detach sql =>
    let _ ← submitDetached t.conn sql
    become n rest (.transacting t)
  | .release => become n rest (.transacting (← releaseTransaction t))
  | .conclude (.value answers) => reply n rest (.items answers)
  | .conclude (.error e) => reply n rest (.failed e none)
  | .conclude (.panic message) => reply n rest (.panicked message)

/-- What a reply is for a coordinator that does not run its unit. -/
def coordinatorEvent (r : Reply) : Transaction.Event (List Answer) :=
  match r with
  | .failed (.connection e) _ => .failed e
  | .failed _ _ => .failed .cancelled
  | _ => .succeeded

/-- A transaction takes the reply of what it waited for. -/
def takeReply (t : Transacting) (r : Reply) : Sim Transacting := do
  match t.coordinator.phase, r with
  | .acquiring, .object (.lease l) =>
    return advanceTransaction { t with lease := some l, conn := l.conn } .leased
  | .acquiring, .failed (.connection e) _ => return advanceTransaction t (.notLeased e)
  | .running, r => itemDone t r
  | _, r => return advanceTransaction t (coordinatorEvent r)

/-- A step of a transaction. -/
def runTransacting (n : Nat) (rest : List Frame) (t : Transacting) (incoming : Option Reply) :
    Sim Progress := do
  match incoming with
  | some r => become n rest (.transacting (← takeReply t r))
  | none =>
    match t.actions, t.items with
    | a :: actions, _ => act n rest { t with actions } a
    | [], item :: items => runItem n rest { t with items } item
    | [], [] =>
      become n rest (.transacting (advanceTransaction t (.unitDone (.value t.results))))

/-! ## Other frames -/

/-- A shutdown goes on: idle connections are closed one by one, pool by pool. -/
def runShutdown (n : Nat) (rest : List Frame) (current : Option PoolRef)
    (pools : List PoolRef) (conns : List Nat) : Sim Progress := do
  match conns, current, pools with
  | c :: conns, _, _ => push n rest (.shutdown current pools conns) (.closing c false)
  | [], some r, _ =>
    modifyPool r Pool.endShutdown
    become n rest (.shutdown none pools [])
  | [], none, r :: pools =>
    match ← pool? r with
    | none => become n rest (.shutdown none pools [])
    | some p =>
      let (p, conns) := p.drainIdle
      putPool r p
      become n rest (.shutdown (some r) pools conns)
  | [], none, [] => reply n rest .done

/-- Opens a primary connection through a registry. -/
def openPrimary (n : Nat) (rest : List Frame) (registry : Nat) (path : DatabasePath) :
    Sim Progress := do
  let config := ((← get).registries[registry]?.map (·.config)).getD {}
  if path.isMemory then
    match ← connect path .primary config none with
    | .error e => reply n rest (.refused e)
    | .ok c => reply n rest (.object (.connection c))
  else
    let r ← poolFor registry path
    modifyPool r Pool.beginOpen
    match ← connect path .primary config (some r) with
    | .error e =>
      modifyPool r fun p => p.endOpen false
      reply n rest (.refused e)
    | .ok c =>
      modifyPool r fun p => p.endOpen true
      reply n rest (.object (.connection c))

/-- Makes the folder that a database lies in. -/
def makeParent (path : DatabasePath) : Sim (Except ConnectionError Unit) := do
  match path.parent? with
  | none => return .ok ()
  | some [] => return .ok ()
  | some parent =>
    let w ← get
    if (w.engine.directory.lookup parent).isSome then return .ok ()
    else
      match w.engine.directory.makeFolder parent with
      | .ok directory =>
        set { w with engine := { w.engine with directory } }
        return .ok ()
      | .error _ => return .error (.io "Not a directory (os error 20)")

/-- The connection and the registry of an object. -/
def target? (name : String) : Sim (Option (Nat × Nat)) := do
  match ← object? name with
  | some (.connection c) => return some (c, 0)
  | some (.database c r) => return some (c, r)
  | some (.lease l) => return some (l.conn, 0)
  | none => return none

/-- The connection of an object that is there when its operation starts. -/
def targetConn (name : String) : Sim Nat := do return ((← target? name).map (·.1)).getD 0

/-- Starts an operation. -/
def startOperation (n : Nat) (rest : List Frame) (op : Operation) : Sim Progress := do
  match op with
  | .openPath path => openPrimary n rest 0 path
  | .connect path config =>
    let registry ← match config with
      | none => pure 0
      | some config => do
        let w ← get
        let own : Registry := { config }
        set { w with registries := w.registries ++ [own] }
        pure w.registries.length
    modifyTask n fun t => { t with registries := registry :: t.registries }
    match ← makeParent path with
    | .error e => reply n rest (.refused e)
    | .ok () => openPrimary n (.asDatabase registry :: rest) registry path
  | .query on kind s =>
    let c ← targetConn on
    let id ← submitQuery c kind s
    if kind == .each then awaitItemIn n rest .tellDelivered c id else awaitItem n rest c id
  | .vacuum on =>
    let c ← targetConn on
    awaitItemIn n rest .forgetResult c (← submitQuery c .run ⟨"VACUUM", .none⟩)
  | .autocommit on =>
    let c ← targetConn on
    awaitItem n rest c (← submit c .autocommit false)
  | .append on ok gate fail =>
    let c ← targetConn on
    if (← conn c).isOpen then awaitItem n rest c (← submit c (.append ok gate fail) false)
    else reply n rest (.refused .closed)
  | .close on => become n rest (.closing (← targetConn on) false)
  | .acquire on fresh init => startAcquiring n rest 0 (← targetConn on) fresh init
  | .transaction on plan ownRegistry =>
    let (c, r) := (← target? on).getD (0, 0)
    let registry := if ownRegistry then r else 0
    become n rest (.transacting (← newTransaction plan registry c c))
  | .shutdown =>
    let pools := (((← get).registries[0]?).map fun reg => reg.pools.map fun p =>
      (⟨0, p.id⟩ : PoolRef)).getD []
    for r in pools do modifyPool r Pool.beginShutdown
    become n rest (.shutdown none pools [])
  | .wait on policy attempt code =>
    let c ← targetConn on
    let number := (((← get).policyNames.find? (·.1 == policy)).map (·.2)).getD 0
    if (← conn c).isOpen then awaitItem n rest c (← submit c (.await number attempt code) false)
    else reply n rest (.refused .closed)

/-- A step of the innermost frame. -/
def runFrame (n : Nat) (f : Frame) (rest : List Frame) (incoming : Option Reply) :
    Sim Progress := do
  match f with
  | .start op => startOperation n rest op
  | .item _ id =>
    match (← get).replies.find? (·.1 == id) with
    | none => return .blocked
    | some (_, r) =>
      modify fun w => { w with replies := w.replies.filter (·.1 != id) }
      reply n rest r
  | .gate name none =>
    match ← askPass name (.task n) with
    | none => reply n rest .done
    | some ticket => become n rest (.gate name (some ticket))
  | .gate name (some ticket) =>
    if ← takePass name ticket then reply n rest .done else return .blocked
  | .closing c false =>
    if ← beginClose c then become n rest (.closing c true) else reply n rest .done
  | .closing c true =>
    if (← conn c).queue.ended then reply n rest .done else return .blocked
  | .acquiring a => runAcquiring n rest a incoming
  | .transacting t => runTransacting n rest t incoming
  | .shutdown current pools conns => runShutdown n rest current pools conns
  | .expire r timer =>
    match ← pool? r with
    | none => reply n rest .done
    | some p =>
      let (p, expired) := p.fire timer
      match expired with
      | some c =>
        -- The pool has to stay until the connection is closed, as in a shutdown.
        putPool r p.beginShutdown
        become n rest (.shutdown (some r) [] [c])
      | none =>
        putPool r p
        reply n rest .done
  | .asDatabase registry =>
    match incoming with
    | some (.object (.connection c)) => reply n rest (.object (.database c registry))
    | some r => reply n rest r
    | none => return .blocked
  | .forgetResult =>
    match incoming with
    | some (.query _) => reply n rest .done
    | some r => reply n rest r
    | none => return .blocked
  | .tellDelivered =>
    match incoming with
    | some (.failed e seen) => reply n rest (.failed e (some (seen.getD [])))
    | some r => reply n rest r
    | none => return .blocked

/-- Lets a task run. -/
def runTask (n : Nat) : Sim Progress := do
  match (← get).tasks[n]? with
  | none => return .blocked
  | some t =>
    if t.outcome.isSome then return .blocked
    else
      match t.frames, t.incoming with
      | f :: rest, incoming =>
        modifyTask n fun t => { t with incoming := none }
        runFrame n f rest incoming
      | [], some r =>
        finishTask n t r
        return .blocked
      | [], none => return .blocked

/-! ## Dropping -/

/-- Does what a dropped coordinator asks for. -/
def actDropped (t : Transacting) (a : Transaction.Action (List Answer)) : Sim Transacting := do
  match a with
  | .trace source target =>
    traceTransition t source target
    return t
  | .noteDropped state =>
    event (Transacting.title t ++ " dropped " ++ state.name)
    return t
  | .detach sql =>
    let _ ← submitDetached t.conn sql
    return t
  | .release => releaseTransaction t
  | _ => return t

/-- Drops a frame. -/
def dropFrame (f : Frame) : Sim Unit := do
  match f with
  | .item c id =>
    let inFlight := ((← conn c).queue.current.any (·.id == id))
    modify fun w => { w with replies := w.replies.filter (·.1 != id) }
    modifyConn c fun x => { x with queue := x.queue.leave id }
    if inFlight then wake (.worker c)
  | .gate name (some ticket) => leaveGate name ticket
  | .acquiring a => giveUpAcquiring a
  | .transacting t =>
    let (_, actions) := t.coordinator.step .dropped
    let _ ← actions.foldlM actDropped t
  | .shutdown current pools _ =>
    for r in current.toList ++ pools do modifyPool r Pool.endShutdown
  | _ => pure ()

/-- Drops frames from the innermost outwards. -/
def dropFrames (n : Nat) : List Frame → Sim Unit
  | [] => pure ()
  | f :: rest => do
    setFrames n rest
    dropFrame f
    reap
    dropFrames n rest

/-- Drops a task that did not end. -/
def abortTask (n : Nat) (t : Task) : Sim Unit := do
  if t.outcome.isNone then
    dropFrames n t.frames
    modifyTask n fun t => { t with incoming := none, outcome := some .aborted }
    reap

end ConnectionPool.Scenario.Sim
