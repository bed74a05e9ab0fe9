import ConnectionPool.Proofs.Remembered.Connections

/-!
# Tasks and commands keep the chronicles

What a task does in a step, what happens when it is dropped, and what a command does, is put
together from what pools, gates and connections do.  So is whether it keeps the chronicles.
-/

namespace ConnectionPool.Scenario.Sim.Keeps

/-! ## Tasks -/

/-- What a task remembers is no part of any connection. -/
theorem modifyTask (n : Nat) (f : Task → Task) : Keeps (modifyTask n f) :=
  .writes fun _ => ⟨rfl, rfl⟩

theorem setFrames (n : Nat) (frames : List Frame) : Keeps (setFrames n frames) := modifyTask n _

theorem reply (n : Nat) (rest : List Frame) (r : Reply) : Keeps (reply n rest r) :=
  .bind (modifyTask n _) fun _ => .done

/-- A frame that becomes another one changes its task only. -/
theorem become (n : Nat) (rest : List Frame) (f : Frame) : Keeps (become n rest f) :=
  .bind (setFrames n _) fun _ => .done

theorem push (n : Nat) (rest : List Frame) (outer inner : Frame) :
    Keeps (push n rest outer inner) := .bind (setFrames n _) fun _ => .done

/-- Whether it was accepted or not, work was submitted before it is awaited here. -/
theorem awaitItem (n : Nat) (rest : List Frame) (c : Nat) (id : Option Nat) :
    Keeps (awaitItem n rest c id) := by
  cases id with
  | none => exact reply _ _ _
  | some id => exact become _ _ _

theorem awaitItemIn (n : Nat) (rest : List Frame) (outer : Frame) (c : Nat) (id : Option Nat) :
    Keeps (awaitItemIn n rest outer c id) := by
  cases id with
  | none => exact reply _ _ _
  | some id => exact push _ _ _ _

/-- To answer with an object may show its connection for the first time. -/
theorem answerOf (r : Reply) : Keeps (answerOf r) := by
  cases r with
  | object o => cases o <;> exact .bind (info _) fun _ => .done
  | _ => exact .done

/-- So may the outcome of a task. -/
theorem outcomeOf (r : Reply) : Keeps (outcomeOf r) := by
  have answers (r : Reply) : Keeps (do return Outcome.ok (← Sim.answerOf r)) :=
    .bind (answerOf r) fun _ => .done
  cases r with
  | failed e seen => exact .done
  | panicked message => exact .done
  | _ => exact answers _

theorem object? (name : String) : Keeps (object? name) := .bind .reads fun _ => .done

/-- To drop a lease gives it back. -/
theorem dropObject (o : Object) : Keeps (dropObject o) := by
  cases o with
  | lease l => exact release l true
  | _ => exact .done

/-- A name that was given before is given again, which drops what had it. -/
theorem nameObject (name : String) (o : Object) : Keeps (nameObject name o) := by
  refine .bind (object? name) fun old => .bind (.writes fun _ => ⟨rfl, rfl⟩) fun _ => ?_
  cases old with
  | none => exact .done
  | some o => exact dropObject o

/-- A task that ends tells its outcome and names what it made. -/
theorem finishTask (n : Nat) (t : Task) (r : Reply) : Keeps (finishTask n t r) := by
  refine .bind (outcomeOf r) fun _ => .bind (modifyTask n _) fun _ => ?_
  split
  · exact nameObject _ _
  · exact .done

/-! ## Acquisitions -/

/-- The connection it opened is dropped with all others that nobody holds, before its slot is
free. -/
theorem giveUpAcquiring (a : Acquiring) : Keeps (giveUpAcquiring a) :=
  .bind reap fun _ => stepPool _ _

/-- A connection that is opened for a lease is new, and nothing happened to it. -/
theorem openPooled (n : Nat) (rest : List Frame) (a : Acquiring) (config : Config) :
    Keeps (openPooled n rest a config) := by
  refine .bind (connect _ _ _ _) fun opened => ?_
  cases opened with
  | error e => exact .bind (setFrames _ _) fun _ => .bind (giveUpAcquiring a) fun _ => reply _ _ _
  | ok c =>
      refine .bind (modifyPool _ _) fun _ => ?_
      split
      · exact become _ _ _
      · exact .bind (label c) fun _ => .bind (event _) fun _ => become _ _ _

theorem failInitializer (n : Nat) (rest : List Frame) (a : Acquiring) (c : Nat) (e : Error) :
    Keeps (failInitializer n rest a c e) := .bind (modifyPool _ _) fun _ => push _ _ _ _

/-- An initializer submits its statements to the fresh connection, one by one. -/
theorem prepare (n : Nat) (rest : List Frame) (a : Acquiring) (c : Nat) :
    Keeps (prepare n rest a c) := by
  unfold Sim.prepare
  split
  · exact .bind (modifyPool _ _) fun _ => reply _ _ _
  · split
    · exact .bind (submitQuery _ _ _) fun _ => awaitItemIn _ _ _ _ _
    · exact push _ _ _ _
    · exact failInitializer _ _ _ _ _

/-- An acquisition changes its pool, opens a connection, or prepares one. -/
theorem runAcquiring (n : Nat) (rest : List Frame) (a : Acquiring) (incoming : Option Reply) :
    Keeps (runAcquiring n rest a incoming) := by
  refine .bind (pool? _) fun p => ?_
  split
  · exact reply _ _ _
  split
  · exact reply _ _ _
  · exact .done
  · refine .bind .reads fun w => .bind (putPool _ _) fun _ => ?_
    split
    · exact reply _ _ _
    · exact .done
  · exact .bind .reads fun w => openPooled _ _ _ _
  · exact failInitializer _ _ _ _ _
  · exact prepare _ _ _ _
  · exact .bind (setFrames _ _) fun _ => .bind (giveUpAcquiring a) fun _ => reply _ _ _

/-- A lease on the primary is counted.  One on another connection begins in the pool of the path.
-/
theorem startAcquiring (n : Nat) (rest : List Frame) (registry primary : Nat) (fresh : Bool)
    (init : Option (List InitStep)) :
    Keeps (startAcquiring n rest registry primary fresh init) := by
  refine .bind (conn primary) fun x => ?_
  split
  · refine .bind (liveRef _) fun pool => ?_
    cases pool with
    | none => exact reply _ _ _
    | some r => exact .bind (modifyPool _ _) fun _ => reply _ _ _
  · refine .bind (poolFor _ _) fun r => .bind (pool? r) fun p => ?_
    split
    · exact reply _ _ _
    · exact .bind (putPool _ _) fun _ => .bind .reads fun _ => become _ _ _

/-! ## Transactions -/

theorem newTransaction (plan : Plan UnitItem) (registry primary outermost : Nat) :
    Keeps (newTransaction plan registry primary outermost) :=
  .bind .reads fun _ => .bind (.writes fun _ => ⟨rfl, rfl⟩) fun _ => .done

/-- A transaction gives its lease back once. -/
theorem releaseTransaction (t : Transacting) : Keeps (releaseTransaction t) := by
  unfold Sim.releaseTransaction
  split
  · exact .bind (release _ true) fun _ => .done
  · exact .done

/-- The result of an item is kept, or ends the unit of work. -/
theorem itemDone (t : Transacting) (r : Reply) : Keeps (itemDone t r) := by
  unfold Sim.itemDone
  split
  · split <;> exact .done
  · exact .done
  · exact .done
  · exact .done
  · exact .bind (answerOf _) fun _ => .done

/-- An item of a unit of work submits, waits, or closes its connection. -/
theorem runItem (n : Nat) (rest : List Frame) (t : Transacting) (item : UnitItem) :
    Keeps (runItem n rest t item) := by
  cases item with
  | query kind s catches =>
      exact .bind (submitQuery _ _ _) fun _ => awaitItemIn _ _ _ _ _
  | gate name => exact push _ _ _ _
  | panic message => exact become _ _ _
  | fail message => exact become _ _ _
  | failDriver e => exact become _ _ _
  | who => exact .bind (info _) fun _ => become _ _ _
  | autocommit => exact .bind (submit _ _ _) fun _ => awaitItemIn _ _ _ _ _
  | close => exact push _ _ _ _
  | detached sql =>
      refine .bind (submitDetached _ _) fun queued => ?_
      cases queued with
      | true => exact become _ _ _
      | false => exact reply _ _ _
  | nested plan onCurrent catches =>
      exact .bind (newTransaction _ _ _ _) fun _ => push _ _ _ _

/-- Each action of a coordinator is traced, submitted, detached, or about its lease. -/
theorem act (n : Nat) (rest : List Frame) (t : Transacting)
    (a : Transaction.Action (List Answer)) : Keeps (act n rest t a) := by
  unfold Sim.act
  split
  · exact .bind (event _) fun _ => become _ _ _
  · exact .bind (setFrames _ _) fun _ => startAcquiring _ _ _ _ _ _
  · exact .bind (submitQuery _ _ _) fun _ => awaitItemIn _ _ _ _ _
  · split <;> exact become _ _ _
  · exact .bind (event _) fun _ => become _ _ _
  · exact .bind (event _) fun _ => become _ _ _
  · exact .bind (submitDetached _ _) fun _ => become _ _ _
  · exact .bind (releaseTransaction _) fun _ => become _ _ _
  · exact reply _ _ _
  · exact reply _ _ _
  · exact reply _ _ _

/-- A reply goes to the item or the statement that waits for it. -/
theorem takeReply (t : Transacting) (r : Reply) : Keeps (takeReply t r) := by
  unfold Sim.takeReply
  split
  · exact .done
  · exact .done
  · exact itemDone _ _
  · exact .done

/-- So a transaction keeps the chronicles, with all the items of its unit of work. -/
theorem runTransacting (n : Nat) (rest : List Frame) (t : Transacting) (incoming : Option Reply) :
    Keeps (runTransacting n rest t incoming) := by
  unfold Sim.runTransacting
  split
  · exact .bind (takeReply _ _) fun _ => become _ _ _
  split
  · exact act _ _ _ _
  · exact runItem _ _ _ _
  · exact become _ _ _

/-! ## Other frames -/

/-- A shutdown closes the idle connections of one pool after the other. -/
theorem runShutdown (n : Nat) (rest : List Frame) (current : Option PoolRef)
    (pools : List PoolRef) (conns : List Nat) : Keeps (runShutdown n rest current pools conns) := by
  unfold Sim.runShutdown
  split
  · exact push _ _ _ _
  · exact .bind (modifyPool _ _) fun _ => become _ _ _
  · refine .bind (pool? _) fun p => ?_
    split
    · exact become _ _ _
    · exact .bind (putPool _ _) fun _ => become _ _ _
  · exact reply _ _ _

/-- A pool counts a primary connection while it is opened.  One to memory has no pool. -/
theorem openPrimary (n : Nat) (rest : List Frame) (registry : Nat) (path : DatabasePath) :
    Keeps (openPrimary n rest registry path) := by
  refine .bind .reads fun w => ?_
  split
  · refine .bind (connect _ _ _ _) fun opened => ?_
    cases opened <;> exact reply _ _ _
  · refine .bind (poolFor _ _) fun r => .bind (modifyPool _ _) fun _ =>
      .bind (connect _ _ _ _) fun opened => ?_
    cases opened <;> exact .bind (modifyPool _ _) fun _ => reply _ _ _

/-- Directories are made in the engine. -/
theorem makeParent (path : DatabasePath) : Keeps (makeParent path) := by
  refine .of_conns fun w => ?_
  unfold Sim.makeParent
  split
  · exact ⟨rfl, Nat.le_refl _⟩
  · exact ⟨rfl, Nat.le_refl _⟩
  · rw [run_bind]
    split
    · exact ⟨rfl, Nat.le_refl _⟩
    · split <;> exact ⟨rfl, Nat.le_refl _⟩

theorem target? (name : String) : Keeps (target? name) := by
  refine .bind (object? name) fun o => ?_
  split <;> exact .done

theorem targetConn (name : String) : Keeps (targetConn name) := .bind (target? name) fun _ => .done

/-- An operation begins with a frame of its own, or submits its work at once. -/
theorem startOperation (n : Nat) (rest : List Frame) (op : Operation) :
    Keeps (startOperation n rest op) := by
  cases op with
  | openPath path => exact openPrimary _ _ _ _
  | connect path config =>
      -- with a registry of its own or without, a database opens its primary then
      have opens (registry : Nat) {k : Except ConnectionError Unit → Sim Progress}
          (error : ∀ e, Keeps (k (.error e))) (ok : Keeps (k (.ok ()))) :
          Keeps (Sim.modifyTask n (fun t => { t with registries := registry :: t.registries }) >>=
            fun _ => Sim.makeParent path >>= k) := by
        refine .bind (modifyTask n _) fun _ => .bind (makeParent path) fun made => ?_
        cases made with
        | error e => exact error e
        | ok _ => exact ok
      simp only [Sim.startOperation]
      split
      · exact .bind .done fun registry =>
          opens registry (fun _ => reply _ _ _) (openPrimary _ _ _ _)
      · exact .stores (fun _ => ⟨rfl, rfl⟩) fun _ => .bind .done fun registry =>
          opens registry (fun _ => reply _ _ _) (openPrimary _ _ _ _)
  | query on kind s =>
      refine .bind (targetConn on) fun c => .bind (submitQuery _ _ _) fun id => ?_
      split
      · exact awaitItemIn _ _ _ _ _
      · exact awaitItem _ _ _ _
  | vacuum on =>
      exact .bind (targetConn on) fun c => .bind (submitQuery _ _ _) fun id => awaitItemIn _ _ _ _ _
  | autocommit on =>
      exact .bind (targetConn on) fun c => .bind (submit _ _ _) fun id => awaitItem _ _ _ _
  | append on ok gate fail =>
      refine .bind (targetConn on) fun c => .bind (conn c) fun x => ?_
      split
      · exact .bind (submit _ _ _) fun id => awaitItem _ _ _ _
      · exact reply _ _ _
  | close on => exact .bind (targetConn on) fun c => become _ _ _
  | acquire on fresh init => exact .bind (targetConn on) fun c => startAcquiring _ _ _ _ _ _
  | transaction on plan ownRegistry =>
      exact .bind (target? on) fun target => .bind (newTransaction _ _ _ _) fun t => become _ _ _
  | shutdown =>
      exact .bind .reads fun w => .bind (.forIn fun r _ => .bind (modifyPool _ _) fun _ => .done)
        fun _ => become _ _ _
  | wait on policy attempt code =>
      refine .bind (targetConn on) fun c => .bind .reads fun w => .bind (conn c) fun x => ?_
      split
      · exact .bind (submit _ _ _) fun id => awaitItem _ _ _ _
      · exact reply _ _ _

/-- Each frame keeps the chronicles. -/
theorem runFrame (n : Nat) (f : Frame) (rest : List Frame) (incoming : Option Reply) :
    Keeps (runFrame n f rest incoming) := by
  cases f with
  | start op => exact startOperation _ _ _
  | item c id =>
      refine .bind .reads fun w => ?_
      split
      · exact .done
      · exact .bind (.writes fun _ => ⟨rfl, rfl⟩) fun _ => reply _ _ _
  | gate name ticket =>
      cases ticket with
      | none =>
          refine .bind (.quiet (quiet_askPass _ _)) fun ticket => ?_
          cases ticket with
          | none => exact reply _ _ _
          | some ticket => exact become _ _ _
      | some ticket =>
          refine .bind (.quiet (quiet_takePass _ _)) fun passed => ?_
          split
          · exact reply _ _ _
          · exact .done
  | closing c asked =>
      cases asked with
      | false =>
          refine .bind (beginClose c) fun waits => ?_
          split
          · exact become _ _ _
          · exact reply _ _ _
      | true =>
          refine .bind (conn c) fun x => ?_
          split
          · exact reply _ _ _
          · exact .done
  | acquiring a => exact runAcquiring _ _ _ _
  | transacting t => exact runTransacting _ _ _ _
  | shutdown current pools conns => exact runShutdown _ _ _ _ _
  | expire r timer =>
      refine .bind (pool? r) fun p => ?_
      cases p with
      | none => exact reply _ _ _
      | some p =>
          simp only
          split
          · exact .bind (putPool _ _) fun _ => become _ _ _
          · exact .bind (putPool _ _) fun _ => reply _ _ _
  | asDatabase registry | forgetResult | tellDelivered =>
      simp only [Sim.runFrame]
      split
      · exact reply _ _ _
      · exact reply _ _ _
      · exact .done

/-- So a task does that runs its first frame, or is at its end. -/
theorem runTask (n : Nat) : Keeps (runTask n) := by
  refine .bind .reads fun w => ?_
  split
  · exact .done
  split
  · exact .done
  split
  · exact .bind (modifyTask _ _) fun _ => runFrame _ _ _ _
  · exact .bind (finishTask _ _ _) fun _ => .done
  · exact .done

/-- A coordinator that is dropped leaves a rollback behind and gives its lease back. -/
theorem actDropped (t : Transacting) (a : Transaction.Action (List Answer)) :
    Keeps (actDropped t a) := by
  cases a with
  | trace source target => exact .bind (event _) fun _ => .done
  | noteDropped state => exact .bind (event _) fun _ => .done
  | detach sql => exact .bind (submitDetached _ _) fun _ => .done
  | release => exact releaseTransaction t
  | _ => exact .done

/-- What a frame held or waited for, it leaves when it is dropped. -/
theorem dropFrame (f : Frame) : Keeps (dropFrame f) := by
  cases f with
  | item c id => exact leave c id
  | gate name ticket =>
      cases ticket with
      | none => exact .done
      | some ticket => exact .quiet (quiet_leaveGate _ _)
  | acquiring a => exact giveUpAcquiring a
  | transacting t =>
      have acts (actions : List (Transaction.Action (List Answer))) (t : Transacting) :
          Keeps (actions.foldlM Sim.actDropped t) := by
        induction actions generalizing t with
        | nil => exact .done
        | cons a actions ih =>
            rw [List.foldlM_cons]
            exact .bind (actDropped t a) fun t => ih t
      exact .bind (acts _ t) fun _ => .done
  | shutdown current pools conns =>
      exact .bind (.forIn fun r _ => .bind (modifyPool _ _) fun _ => .done) fun _ => .done
  | _ => exact .done

theorem dropFrames (n : Nat) (frames : List Frame) : Keeps (dropFrames n frames) := by
  induction frames with
  | nil => exact .done
  | cons f rest ih =>
      exact .bind (setFrames _ _) fun _ => .bind (dropFrame f) fun _ => .bind reap fun _ => ih

/-- A task that is aborted drops its frames, from the inmost. -/
theorem abortTask (n : Nat) (t : Task) : Keeps (abortTask n t) := by
  unfold Sim.abortTask
  split
  · exact .bind (dropFrames _ _) fun _ => .bind (modifyTask _ _) fun _ => reap
  · exact .done

/-! ## Actors and commands -/

/-- A timer lets a worker or a task go on. -/
theorem fire (t : Timer) : Keeps (fire t) := by
  unfold Sim.fire
  split
  · refine .bind (conn _) fun x => ?_
    split
    · exact wake _
    · exact .done
  · refine .bind (pool? _) fun p => ?_
    split
    · exact spawn _
    · exact .done

/-- When time passes, the timers that are due fire. -/
theorem advance (ms : Nat) : Keeps (advance ms) := by
  have passes : Keeps (do
      modify fun w => { w with clock := w.clock + ms }
      let w ← get
      set { w with timers := w.timers.filter fun t => !(t.deadline ≤ w.clock) } : Sim Unit) :=
    .of_conns fun _ => ⟨rfl, Nat.le_refl _⟩
  have fires (due : List Timer) : Keeps (do for t in due do Sim.fire t) :=
    .forIn fun t _ => .bind (fire t) fun _ => .done
  exact fun log w all => fires _ log _ (passes log w all)

theorem targetPool (name : String) : Keeps (targetPool name) :=
  .bind (targetConn name) fun c => .bind (conn c) fun _ => liveRef _

/-- A command on the pool of an object does what it does to a pool that is there. -/
theorem withTargetPool (on : String) {act : PoolRef → Sim (Option Reading)}
    (h : ∀ r, Keeps (act r)) : Keeps (withTargetPool on act) := by
  refine .bind (targetPool on) fun r => ?_
  cases r with
  | none => exact .done
  | some r => exact h r

theorem debugRegistry (registry : Nat) : Keeps (debugRegistry registry) := by
  refine .bind .reads fun w => ?_
  split <;> exact .done

theorem debugObject (o : Object) : Keeps (debugObject o) := by
  cases o with
  | connection c => exact .bind (info c) fun _ => .done
  | lease l => exact .bind (info _) fun _ => .done
  | database c r => exact .bind (info c) fun _ => .bind (debugRegistry r) fun _ => .done

/-- An object that is forgotten is dropped. -/
theorem forgetObject (name : String) : Keeps (forgetObject name) := by
  refine .bind (object? name) fun o => ?_
  cases o with
  | none => exact .done
  | some o => exact .bind (.writes fun _ => ⟨rfl, rfl⟩) fun _ => dropObject o

/-- A receiver leaves its pool, if that is still there. -/
theorem dropNamedReceiver (name : String) : Keeps (dropNamedReceiver name) := by
  refine .bind .reads fun w => ?_
  split
  · refine .bind (pool? _) fun p => ?_
    split
    · exact .bind (modifyPool _ _) fun _ => .writes fun _ => ⟨rfl, rfl⟩
    · exact .writes fun _ => ⟨rfl, rfl⟩
  · exact .done

theorem pollReceiver (name : String) : Keeps (pollReceiver name) := by
  refine .bind .reads fun w => ?_
  split
  · exact .done
  · refine .bind (pool? _) fun p => ?_
    split
    · exact .done
    split
    · exact .bind (modifyPool _ _) fun _ => .done
    · exact .done

/-- A retry that is given up drops its receiver. -/
theorem unparkReceiver (name : String) : Keeps (unparkReceiver name) := by
  refine .bind .reads fun w => ?_
  split
  · exact .bind (dropNamedReceiver name) fun _ => .done
  · exact .done

/-- The worker that pauses with a policy may go on when that closes. -/
theorem closePolicy (name : String) (forgotten : Bool) : Keeps (closePolicy name forgotten) := by
  have forgets : Keeps (do
      if forgotten then
        modify fun w => { w with policyNames := w.policyNames.filter (·.1 != name) } :
      Sim Unit) := by
    split
    · exact .writes fun _ => ⟨rfl, rfl⟩
    · exact .done
  refine .bind .reads fun w => ?_
  cases w.policyNames.find? (·.1 == name) with
  | none => exact .done
  | some found =>
      refine .bind (.quiet (quiet_modifyPolicy _ _)) fun _ =>
        .bind (.quiet (quiet_policy _)) fun p => ?_
      cases p with
      | none => exact forgets
      | some p =>
          cases user : p.user with
          | none => simp only [user]; exact forgets
          | some c => simp only [user]; exact .bind (wake _) fun _ => forgets

theorem makePolicy (name on : String) (config : Option Config) :
    Keeps (makePolicy name on config) := by
  refine .bind (closePolicy name true) fun _ => .bind (targetConn on) fun c =>
    .bind (conn c) fun x => .bind .reads fun _ => .bind (beginRetries _) fun retry => ?_
  exact .bind .reads fun _ => .writes fun _ => ⟨rfl, rfl⟩

/-- A retry that parks may wake another one. -/
theorem parkRetry (r : PoolRef) (name : String) (autocommit owesWake : Bool) :
    Keeps (parkRetry r name autocommit owesWake) := by
  refine .bind (dropNamedReceiver name) fun _ => .bind (pool? r) fun p => ?_
  split
  · exact .done
  · exact .bind (putPool _ _) fun _ => .bind (notify _ _) fun _ =>
      .bind (.writes fun _ => ⟨rfl, rfl⟩) fun _ => .done

theorem openOutside (name : String) (path : DatabasePath) : Keeps (openOutside name path) := by
  refine .of_conns fun w => ?_
  unfold Sim.openOutside
  rw [run_bind]
  split <;> exact ⟨rfl, Nat.le_refl _⟩

/-- Connections that the registry does not know are no part of the chronicles. -/
theorem runOutside (name sql : String) : Keeps (runOutside name sql) := by
  refine .of_conns fun w => ?_
  unfold Sim.runOutside
  rw [run_bind]
  split
  · exact ⟨rfl, Nat.le_refl _⟩
  · next name session _ =>
      simp only
      generalize Engine.run _ session sql [] false = ran
      cases ran.2.failure with
      | none => exact ⟨rfl, Nat.le_refl _⟩
      | some e => cases e <;> exact ⟨rfl, Nat.le_refl _⟩

theorem closeOutside (name : String) : Keeps (closeOutside name) := by
  refine .of_conns fun w => ?_
  unfold Sim.closeOutside
  rw [run_bind]
  split <;> exact ⟨rfl, Nat.le_refl _⟩

/-- Every task of that name is aborted. -/
theorem cancel (name : String) : Keeps (cancel name) := by
  refine .bind .reads fun w => .forIn fun x r => ?_
  split
  split
  · exact .bind (abortTask _ _) fun _ => .done
  · exact .done

theorem statsOf (registry : Nat) (path : DatabasePath) : Keeps (statsOf registry path) :=
  .bind .reads fun _ => .done

theorem describe (on : String) : Keeps (describe on) := by
  refine .bind (object? on) fun o => ?_
  cases o with
  | none => exact .done
  | some o =>
      cases o with
      | connection c => exact .bind (info c) fun _ => .done
      | lease l => exact .bind (info _) fun _ => .done
      | database c r =>
          exact .bind (info c) fun _ => .bind (conn c) fun x => .bind (statsOf _ _) fun _ => .done

/-- Every command keeps the chronicles. -/
theorem runCommand (name : String) (command : Command) : Keeps (runCommand name command) := by
  cases command with
  | detached on sql =>
      refine .bind (targetConn on) fun c => .bind (submitDetached c sql) fun queued => ?_
      split <;> exact .done
  | forget on => exact .bind (forgetObject on) fun _ => .done
  | last on => exact .bind (targetConn on) fun c => .bind (conn c) fun _ => .done
  | info on => exact .bind (describe on) fun _ => .done
  | debug on =>
      cases on with
      | none => exact .bind (debugRegistry 0) fun _ => .done
      | some on =>
          refine .bind (object? on) fun o => ?_
          cases o with
          | none => exact .done
          | some o => exact .bind (debugObject o) fun _ => .done
  | release on how =>
      refine .bind (object? on) fun o => ?_
      split
      · exact .bind (.writes fun _ => ⟨rfl, rfl⟩) fun _ => .bind (release _ _) fun _ => .done
      · exact .done
  | gate gate passes => exact .bind (givePasses gate passes) fun _ => .done
  | cancel task => exact .bind (cancel task) fun _ => .done
  | advance ms => exact .bind (advance ms) fun _ => .done
  | stats path => exact .bind (statsOf 0 path) fun _ => .done
  | prune =>
      refine .of_conns fun w => ?_
      unfold Sim.runCommand
      rw [run_bind]
      split <;> exact ⟨rfl, Nat.le_refl _⟩
  | config => exact .bind .reads fun _ => .done
  | remove path => exact .bind (.writes fun _ => ⟨rfl, rfl⟩) fun _ => .done
  | outside path => exact .bind (openOutside name path) fun _ => .done
  | outsideRun on sql => exact .bind (runOutside on sql) fun _ => .done
  | outsideClose on => exact .bind (closeOutside on) fun _ => .done
  | register on | unregister on =>
      exact withTargetPool on fun r => .bind (modifyPool r _) fun _ => .done
  | openConnections on => exact withTargetPool on fun r => .bind (pool? r) fun _ => .done
  | wake on => exact withTargetPool on fun r => .bind (stepPool r _) fun _ => .done
  | park on autocommit owesWake =>
      exact withTargetPool on fun r => .bind (parkRetry _ _ _ _) fun _ => .done
  | poll receiver => exact .bind (pollReceiver receiver) fun _ => .done
  | unpark receiver => exact unparkReceiver receiver
  | policy on config => exact .bind (makePolicy _ _ _) fun _ => .done
  | policyClose policy => exact .bind (closePolicy policy false) fun _ => .done
  | policyDrop policy => exact .bind (closePolicy policy true) fun _ => .done

/-- An operation starts as a task, for the object it is about. -/
theorem startTask (name : String) (op : Operation) : Keeps (startTask name op) := by
  unfold Sim.startTask
  cases namedPath? op
  on_goal 2 => refine .bind (.writes fun _ => ⟨rfl, rfl⟩) fun _ => ?_
  all_goals
    cases subject? op with
    | none => exact spawn _
    | some on =>
        refine .bind (target? on) fun target => ?_
        cases target with
        | none => exact spawn _
        | some target => exact spawn _

end ConnectionPool.Scenario.Sim.Keeps
