import ConnectionPool.Proofs.Query.Worker
import ConnectionPool.Proofs.Queue.Turns

/-!
# A step of the worker

Letting the worker of a connection run does one thing.  `Worked` says what comes of it for the
connection and for the callers that wait, and whether it comes to the end of some work: work is
started, passed over, dropped, carried on or over, or the queue ends.

When work is over the connection keeps what `Connection.remembers` says of its result: the row id
of a statement that was run, the message of an error of the engine that a query ended with, and
otherwise nothing.  Whether somebody still waits for the result makes no difference.
-/

namespace ConnectionPool.Scenario

/-- What somebody asks a connection for, with its number. -/
structure Asked where
  /-- The number. -/
  id : Nat
  /-- The work. -/
  work : Work

/-- Work that is over. -/
structure Done where
  /-- What was asked for. -/
  asked : Asked
  /-- What came of it. -/
  result : Reply

/-- A statement was run with success: the row id it reports. -/
def Done.rowId? (d : Done) : Option Int64 :=
  match d.asked.work, d.result with
  | .query .run _ _, .query (.ran r) => some r.lastInsertId
  | _, _ => none

/-- A query ended with an error of the engine: the message. -/
def Done.engineError? (d : Done) : Option String :=
  match d.asked.work, d.result with
  | .query _ _ _, .failed (.connection (.engine e)) _ => some e.text
  | _, _ => none

/-- A connection with what it keeps of work that is over. -/
def Connection.remembers (x : Connection) (d : Done) : Connection :=
  { x with
    lastRow := d.rowId?.getD x.lastRow
    lastError := d.engineError?.or x.lastError }

/-- The work is a query. -/
def Work.isQuery : Work → Bool
  | .query _ _ _ => true
  | _ => false

/-- What somebody asked for who submitted a work item. -/
def asked (i : WorkItem Work) : Asked := ⟨i.id, i.work⟩

/-- The work that a step of a worker came to the end of. -/
def Progress.done? : Progress → Option Done
  | .ended item r => some ⟨asked item, r⟩
  | _ => none

namespace Sim

variable {α β : Type} {w w' : World} {c : Nat} {f : Flight} {x : Connection} {kind : QueryKind}
  {s : Statement} {retry : Option (PoolRef × Nat)} {a : QueryAttempt} {r : Reply}

/-- Everybody who waits for one of these is given a reply. -/
def repliesTo (items : List (WorkItem Work)) (r : Reply) : List (Nat × Reply) :=
  (items.filter (·.isAwaited)).map fun i => (i.id, r)

/-- The connection without the work that was in flight. -/
def landed (x : Connection) : Connection :=
  { x with flight := none, queue := x.queue.finishCurrent }

/-! ## What is kept -/

theorem remembers_other {d : Done} (other : d.asked.work.isQuery = false) : x.remembers d = x := by
  obtain ⟨⟨id, work⟩, result⟩ := d
  cases work with
  | query kind s retry => cases other
  | _ => rfl

theorem remembers_cancelled (a : Asked) : x.remembers ⟨a, .refused .cancelled⟩ = x := by
  obtain ⟨id, work⟩ := a
  cases work with
  | query kind s retry => cases kind <;> rfl
  | _ => rfl

/-- An attempt can be one at a query of this kind: only running a statement reports a row id. -/
def Fits (kind : QueryKind) (a : QueryAttempt) : Prop := ∀ r, a.result = .ok (.ran r) → kind = .run

theorem fits_answer (kind : QueryKind) (s : Statement) (answer : ConnectionPool.Answer) :
    Fits kind (answer.attempt kind s) := by
  intro r ran
  cases prepared : s.prepare with
  | error e => simp only [ConnectionPool.Answer.attempt, prepared, reduceCtorEq] at ran
  | ok _ =>
      cases answer with
      | unreadable rows what =>
          simp only [ConnectionPool.Answer.attempt, prepared, reduceCtorEq] at ran
      | outcome o =>
          simp only [ConnectionPool.Answer.attempt, prepared, QueryAttempt.ofOutcome] at ran
          cases failure : o.failure with
          | some e => simp only [failure, reduceCtorEq] at ran
          | none =>
              rw [failure] at ran
              cases kind with
              | run => rfl
              | _ => cases ran

/-- What a connection keeps of the last attempt at a query is what it keeps of the result. -/
theorem keep_eq_remembers {item : WorkItem Work} (work : item.work = .query kind s retry)
    (fits : Fits kind a) (tells : Tells a.result r) : keep a x = x.remembers ⟨asked item, r⟩ := by
  obtain ⟨id, work', detached, abandoned⟩ := item
  obtain ⟨delivered, result⟩ := a
  cases work
  cases tells with
  | ok result =>
      cases result with
      | ran r =>
          cases fits r rfl
          rfl
      | _ => cases kind <;> rfl
  | error e seen =>
      cases e with
      | engine e => cases kind <;> rfl
      | _ => cases kind <;> rfl

/-! ## Work in flight -/

/-- What carrying the work in flight on comes to: it is in flight still, or it is over, whoever
waits for it is told, and the connection keeps what it keeps of the result. -/
inductive Carried (w : World) (c : Nat) (x : Connection) (f : Flight) :
    Option Done → World → Prop where
  | inFlight {w' : World} (f' : Flight) : f'.item = f.item →
      Later w c { x with flight := some f' } [] w' → Carried w c x f none w'
  | finished {w' : World} (r : Reply) : Later w c (landed (x.remembers ⟨asked f.item, r⟩))
      (repliesAt x f.item.id r) w' → Carried w c x f (some ⟨asked f.item, r⟩) w'

/-- A step of a worker carries the work in flight on. -/
abbrev CarriedBy (w : World) (c : Nat) (x : Connection) (f : Flight) (step : Progress × World) :
    Prop := Carried w c x f step.1.done? step.2

/-- Nothing happened to the work in flight. -/
theorem Later.still (later : Later w c x [] w') (flight : x.flight = some f) :
    Carried w c x f none w' := by
  refine .inFlight f rfl ?_
  rwa [← flight]

/-- The work in flight is further. -/
theorem Later.further (later : Later w c x [] w') (flight : x.flight = some f)
    {g : Flight → Flight} (same : (g f).item = f.item) : Carried w c x f none
      ((Sim.modifyConn c fun x => { x with flight := x.flight.map g }).run w').2 := by
  have set := later.modifyConn fun x => { x with flight := x.flight.map g }
  rw [flight] at set
  exact .inFlight (g f) same set

/-- The work in flight is over, and the connection keeps nothing of it. -/
theorem Later.finished (later : Later w c x [] w') (f : Flight) (r : Reply)
    (same : x.remembers ⟨asked f.item, r⟩ = x) :
    CarriedBy w c x f ((Sim.complete c f.item r).run w') := by
  rw [CarriedBy, run_complete]
  refine .finished r ?_
  rw [same]
  exact later.complete f.item r

/-- What becomes of the query in flight when an attempt came to something. -/
def endAttempt (c : Nat) (x : Connection) (f : Flight) (kind : QueryKind)
    (retry : Option (PoolRef × Nat)) (a : QueryAttempt) : Sim Progress :=
  if a.isRetried x.config.maxLockRetries f.attempt then
    beginPause c f retry x.config.lockRetryDelay f.attempt
  else endQuery c f kind a

theorem Later.endAttempt (later : Later w c x [] w') (flight : x.flight = some f)
    (work : f.item.work = .query kind s retry) (fits : Fits kind a) :
    CarriedBy w c x f ((Sim.endAttempt c x f kind retry a).run w') := by
  unfold Sim.endAttempt
  split
  · obtain ⟨d, t, moved, paused⟩ :=
      later.beginPause flight retry x.config.lockRetryDelay f.attempt
    rw [CarriedBy, moved]
    exact .inFlight { f with stage := .paused d t } rfl paused
  · obtain ⟨r, tells, ends, ended⟩ := later.endQuery f kind a
    rw [CarriedBy, ends]
    refine .finished r ?_
    rw [← keep_eq_remembers work fits tells]
    exact ended

theorem Later.leavePause (later : Later w c x [] w') (flight : x.flight = some f)
    (state : PauseState) : CarriedBy w c x f ((Sim.leavePause c f retry state).run w') := by
  cases state with
  | passed => exact (later.elsewhere (quiet_stepRetry retry Pool.resume)).further flight rfl
  | cancelled =>
      exact (later.elsewhere (quiet_stepRetry retry Pool.cancelPause)).finished f _
        (remembers_cancelled _)
  | lasts => exact later.still flight

theorem carried_runQuery (is : w.conns[c]? = some x) (flight : x.flight = some f)
    (work : f.item.work = .query kind s retry) :
    CarriedBy w c x f ((runQuery c f kind s retry).run w) := by
  have later : Later w c x [] w := .refl is
  by_cases paused : ∃ d t, f.stage = .paused d t
  · obtain ⟨d, t, paused⟩ := paused
    obtain ⟨isOver, run⟩ : ∃ isOver, (runQuery c f kind s retry).run w =
        (leavePause c f retry (.of isOver x.queue.closing)).run w := run_runQuery_paused is paused
    rw [run]
    exact later.leavePause flight _
  · have ready : ∀ d t, f.stage ≠ .paused d t := fun d t is => paused ⟨d, t, is⟩
    rw [run_runQuery_ready is ready]
    obtain ⟨o, met⟩ := w.engine.attempt_eq x.session kind s
    have fits : Fits kind (w.engine.attempt x.session kind s).2 := met ▸ fits_answer kind s _
    have tried : Later w c x [] { w with engine := (w.engine.attempt x.session kind s).1 } :=
      later.withEngine _
    exact tried.endAttempt flight work fits

/-! ## Work that is no query -/

/-- A computation carries the work in flight on. -/
def Carries (c : Nat) (x : Connection) (f : Flight) (m : Sim Progress) : Prop :=
  ∀ w w', Later w c x [] w' → CarriedBy w c x f (m.run w')

namespace Carries

theorem bind {m : Sim α} {k : α → Sim Progress} (h : Quiet m) (h' : ∀ y, Carries c x f (k y)) :
    Carries c x f (m >>= k) := fun _ _ later => h' _ _ _ (later.elsewhere h)

theorem waits (flight : x.flight = some f) : Carries c x f (pure .blocked) :=
  fun _ _ later => later.still flight

/-- Work that is no query is over. -/
theorem complete (other : f.item.work.isQuery = false) (r : Reply) :
    Carries c x f (Sim.complete c f.item r) :=
  fun _ _ later => later.finished f r (remembers_other other)

theorem setStage (flight : x.flight = some f) (stage : Flight.Stage) :
    Carries c x f (do Sim.setStage c stage; return Progress.moved) :=
  fun _ _ later => later.further (g := fun f => { f with stage }) flight rfl

theorem beginPause (flight : x.flight = some f) (retry : Option (PoolRef × Nat))
    (delay attempt : Nat) : Carries c x f (Sim.beginPause c f retry delay attempt) := by
  intro w w' later
  obtain ⟨d, t, moved, paused⟩ := later.beginPause flight retry delay attempt
  rw [CarriedBy, moved]
  exact .inFlight { f with stage := .paused d t } rfl paused

theorem append (flight : x.flight = some f) (other : f.item.work.isQuery = false) (ok : String)
    (gate fail : Option String) : Carries c x f (runAppend c f ok gate fail) := by
  unfold runAppend
  split
  · refine .bind (quiet_takePass _ _) fun passed => ?_
    split
    · exact .complete other _
    · exact .waits flight
  · refine .bind (quiet_event _) fun _ => ?_
    split
    · exact .complete other _
    · refine .bind (quiet_askPass _ _) fun asked => ?_
      split
      · exact .complete other _
      · exact .setStage flight _

theorem beginAwait (flight : x.flight = some f) (other : f.item.work.isQuery = false)
    (p : Policy) (attempt : Nat) (code : Int) :
    Carries c x f (Sim.beginAwait c f p attempt code) := by
  unfold Sim.beginAwait
  split
  · exact .complete other _
  · exact .beginPause flight _ _ _

theorem await (flight : x.flight = some f) (other : f.item.work.isQuery = false)
    (n attempt : Nat) (code : Int) : Carries c x f (runAwait c f n attempt code) := by
  refine .bind (quiet_policy n) fun found => ?_
  split
  · exact .complete other _
  split
  · refine .bind (quiet_pauseState _ _ _) fun state => ?_
    split
    · exact .bind (quiet_stepRetry _ _) fun _ => .complete other _
    · exact .bind (quiet_stepRetry _ _) fun _ => .complete other _
    · exact .waits flight
  · split
    · exact .beginAwait flight other _ _ _
    · exact .waits flight
  · split
    · exact .bind (quiet_modifyPolicy _ _) fun _ => .beginAwait flight other _ _ _
    · exact .bind (quiet_modifyPolicy _ _) fun _ => .setStage flight _

end Carries

/-- The worker carries the work in flight on. -/
theorem carried_runFlight (is : w.conns[c]? = some x) (flight : x.flight = some f) :
    CarriedBy w c x f ((runFlight c f).run w) := by
  have later : Later w c x [] w := .refl is
  cases work : f.item.work with
  | query kind s retry =>
      simp only [runFlight, work]
      exact carried_runQuery is flight work
  | autocommit =>
      have other : f.item.work.isQuery = false := by rw [work]; rfl
      simp only [runFlight, work]
      exact (Carries.bind .get fun _ => .bind (.bind .get fun _ => .done) fun _ =>
        .complete other _) _ _ later
  | append ok gate fail =>
      have other : f.item.work.isQuery = false := by rw [work]; rfl
      simp only [runFlight, work]
      exact Carries.append flight other ok gate fail _ _ later
  | await n attempt code =>
      have other : f.item.work.isQuery = false := by rw [work]; rfl
      simp only [runFlight, work]
      exact Carries.await flight other n attempt code _ _ later
  | detached sql =>
      have other : f.item.work.isQuery = false := by rw [work]; rfl
      simp only [runFlight, work]
      have tried := later.withEngine
        (w.engine.attempt (w.conns.getD c default).session .run ⟨sql, .none⟩).1
      exact Carries.complete other .done _ _ tried

/-! ## The worker -/

/-- What letting the worker run comes to, with the work that it came to the end of. -/
inductive Worked (w : World) (c : Nat) (x : Connection) : Option Done → World → Prop where
  /-- There is nothing to do. -/
  | rests {w' : World} : Later w c x [] w' → Worked w c x none w'
  /-- The work in flight is carried on. -/
  | carried {w' : World} {f : Flight} {done : Option Done} : x.flight = some f →
      Carried w c x f done w' → Worked w c x done w'
  /-- It is dropped, because its caller left. -/
  | dropped {w' : World} : x.flight.isSome → Later w c (landed x) [] w' → Worked w c x none w'
  /-- Work is passed over, because its caller left. -/
  | skipped {w' : World} {i : WorkItem Work} {rest : List (WorkItem Work)} :
      x.queue.pending = i :: rest →
      Later w c { x with queue := { x.queue with pending := rest } } [] w' → Worked w c x none w'
  /-- Work is started. -/
  | started {w' : World} {i : WorkItem Work} {rest : List (WorkItem Work)} : x.flight = none →
      x.queue.pending = i :: rest →
      Later w c { x with
        flight := some { item := i }
        queue := { x.queue with pending := rest, current := some i } } [] w' → Worked w c x none w'
  /-- The queue ends, and the work that is left is cancelled. -/
  | ended {w' : World} : x.flight = none →
      Later w c { x with queue := { x.queue with pending := [], ended := true } }
        (repliesTo x.queue.pending (.refused .cancelled)) w' → Worked w c x none w'

/-- A step of the worker comes to this. -/
abbrev WorkedBy (w : World) (c : Nat) (x : Connection) (step : Progress × World) : Prop :=
  Worked w c x step.1.done? step.2

/-- Whoever is told something is told the result of the work that is over, or that his work is
cancelled because the queue ended. -/
theorem Worked.tells {done : Option Done} (worked : Worked w c x done w') :
    ∃ replies, w'.replies = w.replies ++ replies ∧ ∀ t ∈ replies,
      (∃ d, done = some d ∧ t = (d.asked.id, d.result)) ∨ t.2 = .refused .cancelled := by
  cases worked with
  | rests later | dropped _ later | skipped _ later | started _ _ later =>
      exact ⟨[], later.replies, fun _ mem => absurd mem List.not_mem_nil⟩
  | carried flight carried =>
      cases carried with
      | inFlight f' _ later =>
          exact ⟨[], later.replies, fun _ mem => absurd mem List.not_mem_nil⟩
      | finished r later =>
          refine ⟨_, later.replies, fun t mem => .inl ⟨_, rfl, ?_⟩⟩
          rw [repliesAt] at mem
          split at mem
          · exact List.mem_singleton.mp mem
          · exact absurd mem List.not_mem_nil
  | ended _ later =>
      refine ⟨_, later.replies, fun t mem => .inr ?_⟩
      obtain ⟨i, -, rfl⟩ := List.mem_map.mp mem
      rfl

/-- Work that is dropped and waits at no gate. -/
def dropWork (c : Nat) (item : WorkItem Work) : Sim Progress := do
  match item.work with
  | .await n _ _ =>
    if let some p ← policy n then stepRetry p.retry Pool.cancelPause
    leavePolicy n c
  | _ => pure ()
  discardWork item.work
  modifyConn c landed
  return .yielded

theorem Later.dropWork (later : Later w c x [] w') (item : WorkItem Work) :
    Later w c (landed x) [] ((Sim.dropWork c item).run w').2 := by
  obtain ⟨id, work, detached, abandoned⟩ := item
  have lands {w' : World} (later : Later w c x [] w') :=
    (later.elsewhere (quiet_discardWork work)).modifyConn landed
  cases work with
  | await n attempt code =>
      have found := later.elsewhere (quiet_policy n)
      unfold Sim.dropWork
      rw [run_bind]
      cases ((policy n).run w').1 with
      | none =>
          have left := found.elsewhere (quiet_leavePolicy n c)
          exact lands left
      | some p =>
          have cancelled := found.elsewhere (quiet_stepRetry p.retry Pool.cancelPause)
          have left := cancelled.elsewhere (quiet_leavePolicy n c)
          exact lands left
  | _ => exact lands later

theorem Later.dropFlight (later : Later w c x [] w') (f : Flight) :
    Later w c (landed x) [] ((Sim.dropFlight c f).run w').2 := by
  obtain ⟨item, attempt, stage⟩ := f
  cases stage with
  | atGate name ticket =>
      have left := later.elsewhere (quiet_leaveGate name ticket)
      exact left.dropWork item
  | _ => exact later.dropWork item

theorem repliesTo_singleton (i : WorkItem Work) (r : Reply) :
    repliesTo [i] r = if i.isAwaited then [(i.id, r)] else [] := by
  rw [repliesTo]
  cases awaited : i.isAwaited <;> simp [List.filter, awaited]

theorem repliesTo_cons (i : WorkItem Work) (items : List (WorkItem Work)) (r : Reply) :
    repliesTo (i :: items) r = repliesTo [i] r ++ repliesTo items r := by
  rw [repliesTo, repliesTo, repliesTo, ← List.map_append, ← List.filter_append]
  rfl

/-- Work that was not started is cancelled. -/
theorem Later.cancel {replies : List (Nat × Reply)} (later : Later w c x replies w')
    (items : List (WorkItem Work)) : Later w c x (replies ++ repliesTo items (.refused .cancelled))
      ((forIn items PUnit.unit fun i _ => do
        discardWork i.work
        Sim.deliver i.isAwaited i.id (.refused .cancelled)
        pure (ForInStep.yield PUnit.unit) : Sim PUnit).run w').2 := by
  induction items generalizing replies w' with
  | nil =>
      rw [show repliesTo [] (.refused .cancelled) = [] from rfl, List.append_nil]
      exact later
  | cons i items ih =>
      have told := (later.elsewhere (quiet_discardWork i.work)).deliver i.isAwaited i.id
        (.refused .cancelled)
      have rest := ih told
      rw [← repliesTo_singleton, List.append_assoc, ← repliesTo_cons] at rest
      rw [List.forIn_cons]
      exact rest

/-- The end of a queue. -/
theorem Later.endQueue (later : Later w c x [] w') (items : List (WorkItem Work)) :
    Later w c x (repliesTo items (.refused .cancelled)) ((Sim.endQueue c items).run w').2 := by
  have cancelled := later.cancel items
  unfold Sim.endQueue
  rw [run_bind]
  exact cancelled.elsewhere (.bind (.bind .get fun _ => .done) fun _ =>
    .bind (.modify fun _ => ⟨rfl, rfl, rfl⟩) fun _ => (onlyWakes_wakeTasks _).quiet)

/-- Work that is dropped came to no end. -/
theorem run_dropFlight (c : Nat) (f : Flight) (w : World) :
    ((Sim.dropFlight c f).run w).1 = .yielded := by
  obtain ⟨item, attempt, stage⟩ := f
  have yields (w : World) : ((Sim.dropWork c item).run w).1 = .yielded := by
    obtain ⟨id, work, detached, abandoned⟩ := item
    cases work with
    | await n attempt code =>
        unfold Sim.dropWork
        rw [run_bind]
        cases ((policy n).run w).1 <;> rfl
    | _ => rfl
  cases stage with
  | atGate name ticket => exact yields _
  | _ => exact yields w

/-- Work whose caller left goes on first.  It is carried on then, or it waits and is dropped. -/
theorem worked_outrunLeaving (is : w.conns[c]? = some x) (flight : x.flight = some f) :
    WorkedBy w c x ((outrunLeaving c f).run w) := by
  have carried := carried_runFlight is flight
  unfold outrunLeaving
  rw [run_bind]
  generalize (runFlight c f).run w = step at carried
  obtain ⟨p, w'⟩ := step
  cases p with
  | blocked =>
      cases carried with
      | inFlight f' _ later =>
          have dropped := later.dropFlight f
          rw [WorkedBy, run_dropFlight]
          exact .dropped (by rw [flight]; rfl) dropped
  | _ => exact .carried flight carried

/-- Letting the worker run does one thing. -/
theorem worked_runWorker (is : w.conns[c]? = some x) : WorkedBy w c x ((runWorker c).run w) := by
  have later : Later w c x [] w := .refl is
  unfold runWorker
  rw [run_bind, run_conn is]
  cases flight : x.flight with
  | some f =>
      simp only
      split
      · exact .carried flight (carried_runFlight is flight)
      · rw [run_bind, run_get]
        split
        · exact worked_outrunLeaving is flight
        · rw [WorkedBy, run_dropFlight]
          exact .dropped (by rw [flight]; rfl) (later.dropFlight f)
  | none =>
      have turned := x.queue.turned
      simp only [run_bind]
      generalize x.queue.turn = turn at turned
      cases turned with
      | rest idle =>
          have same := later.modifyConn fun y => { y with queue := x.queue }
          exact .rests same
      | @skip i rest pending idle accepts left =>
          have passed := later.modifyConn fun y =>
            { y with queue := { x.queue with pending := rest } }
          have forgotten := passed.elsewhere (quiet_discardWork i.work)
          exact .skipped pending forgotten
      | @start i rest pending idle accepts wanted =>
          have taken := later.modifyConn fun y =>
            { y with queue := { x.queue with pending := rest, current := some i } }
          exact .started flight pending
            (taken.modifyConn fun x => { x with flight := some { item := i } })
      | finish idle closing =>
          have ended := later.modifyConn fun y =>
            { y with queue := { x.queue with pending := [], ended := true } }
          exact .ended flight (ended.endQueue x.queue.pending)

end Sim

end ConnectionPool.Scenario
