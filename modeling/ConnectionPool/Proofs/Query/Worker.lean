import ConnectionPool.Proofs.Elsewhere
import ConnectionPool.Proofs.Query.Trial

/-!
# The worker's part in a trial

The worker of a connection makes the attempts at a query and looks how its pauses stand.
Letting it run does one of the two.  `runQuery_follows` says that a trial can do the same: then
either the work is still in flight, as far as the trial, or the trial is over, and its result is
what the caller is told.
-/

namespace ConnectionPool.Scenario

namespace Sim

variable {α : Type} {P : α → Prop}

/-! ## The work in flight -/

variable {w w' : World} {c : Nat} {f : Flight} {x : Connection} {item : WorkItem Work}
  {kind : QueryKind} {s : Statement} {retry : Option (PoolRef × Nat)}
  {replies : List (Nat × Reply)}

/-- How a connection stands in a later world, and which replies came since.  The other connections
are as they were. -/
structure Later (w : World) (c : Nat) (x : Connection) (replies : List (Nat × Reply))
    (w' : World) : Prop where
  conn : w'.conns[c]? = some x
  replies : w'.replies = w.replies ++ replies
  others : ∀ k, k ≠ c → w'.conns[k]? = w.conns[k]?
  grows : w.fresh ≤ w'.fresh

theorem Later.refl (is : w.conns[c]? = some x) : Later w c x [] w :=
  ⟨is, (List.append_nil _).symm, fun _ _ => rfl, Nat.le_refl _⟩

theorem Later.elsewhere {m : Sim α} (later : Later w c x replies w') (h : Elsewhere P m) :
    Later w c x replies (m.run w').2 := by
  obtain ⟨conns, same, grows, -⟩ := h w'
  refine ⟨conns ▸ later.conn, same.trans later.replies, ?_, Nat.le_trans later.grows grows⟩
  intro k other
  rw [conns, later.others k other]

/-- The engine goes on. -/
theorem Later.withEngine (later : Later w c x replies w') (engine : Engine) :
    Later w c x replies { w' with engine } := ⟨later.conn, later.replies, later.others, later.grows⟩

theorem Later.modifyConn (later : Later w c x replies w') (g : Connection → Connection) :
    Later w c (g x) replies ((Sim.modifyConn c g).run w').2 where
  conn := by
    show (w'.conns.modify c g)[c]? = some (g x)
    rw [List.getElem?_modify_eq, later.conn]
    rfl
  replies := later.replies
  others := by
    intro k other
    show (w'.conns.modify c g)[k]? = w.conns[k]?
    rw [List.getElem?_modify_ne _ _ (Ne.symm other), later.others k other]
  grows := later.grows

theorem Later.deliver (later : Later w c x replies w') (waits : Bool) (id : Nat) (r : Reply) :
    Later w c x (replies ++ if waits then [(id, r)] else [])
      ((Sim.deliver waits id r).run w').2 := by
  unfold Sim.deliver
  split
  · rw [run_bind]
    refine Later.elsewhere ⟨later.conn, ?_, later.others, later.grows⟩
      (onlyWakes_wakeTasks _).quiet
    exact (congrArg (· ++ [(id, r)]) later.replies).trans (List.append_assoc ..)
  · rw [List.append_nil]
    exact later

/-- Whoever waits for the work that a queue is at is given a reply. -/
def repliesAt (x : Connection) (id : Nat) (r : Reply) : List (Nat × Reply) :=
  if x.queue.current.any (·.isAwaited) then [(id, r)] else []

/-- Work that is over is in flight no longer, and who waits for it gets the reply. -/
theorem Later.complete (later : Later w c x [] w') (item : WorkItem Work) (r : Reply) :
    Later w c { x with flight := none, queue := x.queue.finishCurrent } (repliesAt x item.id r)
      ((Sim.complete c item r).run w').2 := by
  have ends {w' : World} (later : Later w c x [] w') : Later w c
      { x with flight := none, queue := x.queue.finishCurrent } (repliesAt x item.id r) ((do
        let waits := (← Sim.conn c).queue.current.any (·.isAwaited)
        Sim.modifyConn c fun x => { x with flight := none, queue := x.queue.finishCurrent }
        Sim.deliver waits item.id r : Sim Unit).run w').2 := by
    rw [run_bind, run_conn later.conn]
    exact (later.modifyConn fun x =>
      { x with flight := none, queue := x.queue.finishCurrent }).deliver _ _ r
  have discarded := later.elsewhere (quiet_discardWork item.work)
  obtain ⟨id, work, detached, abandoned⟩ := item
  unfold Sim.complete
  rw [run_bind]
  cases work with
  | await n _ _ =>
      have left := discarded.elsewhere (quiet_leavePolicy n c)
      exact ends left
  | _ => exact ends discarded

/-- The worker tells which work it came to the end of, and with which result. -/
theorem run_complete (c : Nat) (item : WorkItem Work) (r : Reply) (w : World) :
    ((Sim.complete c item r).run w).1 = .ended item r := by
  obtain ⟨id, work, detached, abandoned⟩ := item
  cases work <;> rfl

/-- Work that begins to pause stays in flight. -/
theorem Later.beginPause (later : Later w c x [] w') (flight : x.flight = some f)
    (retry : Option (PoolRef × Nat)) (delay attempt : Nat) :
    ∃ d t, ((Sim.beginPause c f retry delay attempt).run w').1 = .moved ∧
      Later w c { x with flight := some { f with stage := .paused d t } } []
        ((Sim.beginPause c f retry delay attempt).run w').2 := by
  have paused := later.elsewhere (elsewhere_pause c retry delay attempt)
  obtain ⟨-, -, -, d, t, stage⟩ := elsewhere_pause c retry delay attempt w'
  refine ⟨d, t, ?_⟩
  unfold Sim.beginPause
  rw [run_bind, stage, run_bind]
  refine ⟨rfl, ?_⟩
  have set := paused.modifyConn fun x =>
    { x with flight := x.flight.map fun f => { f with stage := .paused d t } }
  rw [flight] at set
  exact set.elsewhere (.bind (quiet_startTimer _ _) fun _ => .done)

/-- A reply tells the result of a query, an error with the rows seen before it or without. -/
inductive Tells : Except ConnectionError QueryResult → Reply → Prop where
  | ok (result : QueryResult) : Tells (.ok result) (.query result)
  | error (e : ConnectionError) (seen : Option (List Row)) :
      Tells (.error e) (.failed (.connection e) seen)

/-- What a connection keeps of the last attempt at a query: the row id of a statement that was run,
the message of an error of the engine. -/
def keep (a : QueryAttempt) (x : Connection) : Connection :=
  match a.result with
  | .ok (.ran r) => { x with lastRow := r.lastInsertId }
  | .error (.engine e) => { x with lastError := some e.text }
  | _ => x

/-- A query that is over is in flight no longer, and its caller is told the result. -/
theorem Later.endQuery (later : Later w c x [] w') (f : Flight) (kind : QueryKind)
    (a : QueryAttempt) : ∃ r, Tells a.result r ∧
      ((Sim.endQuery c f kind a).run w').1 = .ended f.item r ∧
      Later w c { keep a x with flight := none, queue := (keep a x).queue.finishCurrent }
        (repliesAt x f.item.id r) ((Sim.endQuery c f kind a).run w').2 := by
  obtain ⟨delivered, result⟩ := a
  cases result with
  | ok result =>
      cases result with
      | ran r =>
          have kept := later.modifyConn fun x => { x with lastRow := r.lastInsertId }
          exact ⟨_, .ok _, run_complete _ _ _ _, kept.complete f.item (.query (.ran r))⟩
      | _ => exact ⟨_, .ok _, run_complete _ _ _ _, later.complete f.item _⟩
  | error e =>
      cases e with
      | engine e =>
          have kept := later.modifyConn fun x => { x with lastError := some e.text }
          exact ⟨_, .error _ _, run_complete _ _ _ _,
            kept.complete f.item (.failed (.connection (.engine e)) _)⟩
      | _ => exact ⟨_, .error _ _, run_complete _ _ _ _, later.complete f.item _⟩

/-! ## A step of the worker -/

/-- The work in flight is as far as a trial. -/
inductive Matches : Flight.Stage → Trial.Stage → Prop where
  | ready {stage : Flight.Stage} : (∀ d t, stage ≠ .paused d t) → Matches stage .ready
  | paused (d : Nat) (t : Option (PoolRef × Nat)) (strategy : RetryStrategy) (isOver : Bool) :
      Matches (.paused d t) (.waiting strategy isOver)

/-- The work in flight on a connection follows a trial. -/
structure Follows (g : Trial.Setting) (t : Trial) (x : Connection) (f : Flight) : Prop where
  limit : g.limit = x.config.maxLockRetries
  flight : x.flight = some f
  attempt : t.attempt = f.attempt
  stage : Matches f.stage t.stage
  closing : t.closing → x.queue.closing

variable {g : Trial.Setting} {t : Trial}

theorem run_runQuery_ready (is : w.conns[c]? = some x) (ready : ∀ d t, f.stage ≠ .paused d t) :
    (runQuery c f kind s retry).run w =
      (if (w.engine.attempt x.session kind s).2.isRetried x.config.maxLockRetries f.attempt then
        beginPause c f retry x.config.lockRetryDelay f.attempt
      else endQuery c f kind (w.engine.attempt x.session kind s).2).run
        { w with engine := (w.engine.attempt x.session kind s).1 } := by
  unfold runQuery
  rw [run_bind, run_conn is]
  cases stage : f.stage with
  | paused d t => exact absurd stage (ready d t)
  | _ => rfl

theorem run_runQuery_paused {d : Nat} {ticket : Option (PoolRef × Nat)}
    (is : w.conns[c]? = some x) (paused : f.stage = .paused d ticket) :
    ∃ isOver, (runQuery c f kind s retry).run w =
      (leavePause c f retry (.of isOver x.queue.closing)).run w := by
  obtain ⟨isOver, looks⟩ : ∃ isOver, (pauseState d ticket x.queue.closing).run w =
      (.of isOver x.queue.closing, w) := by cases ticket <;> exact ⟨_, rfl⟩
  refine ⟨isOver, ?_⟩
  unfold runQuery
  rw [run_bind, run_conn is, paused]
  simp only [run_bind, looks]

/-- A trial has gone on as the worker of a connection did: the work is still in flight, or the trial
is over, and the caller is told its result. -/
inductive GoneOn (g : Trial.Setting) (w : World) (c : Nat) (x : Connection) (item : WorkItem Work)
    (t : Trial) (w' : World) : Prop where
  | inFlight {x' : Connection} {f : Flight} : Later w c x' [] w' → Follows g t x' f →
      f.item = item → GoneOn g w c x item t w'
  | finished {x' : Connection} {result : Except ConnectionError QueryResult} {r : Reply} :
      t.stage = .finished result → Tells result r → x'.flight = none →
      Later w c x' (repliesAt x item.id r) w' → GoneOn g w c x item t w'

/-- The worker makes an attempt. -/
theorem Follows.attempted (follows : Follows g t x f) (is : w.conns[c]? = some x)
    (ready : ∀ d ticket, f.stage ≠ .paused d ticket) (tried : t.stage = .ready)
    (meets : g.attempts t.attempt = (w.engine.attempt x.session kind s).2) :
    ∃ t', Trial.Steps g t t' ∧ GoneOn g w c x f.item t' ((runQuery c f kind s retry).run w).2 := by
  have later : Later w c x [] { w with engine := (w.engine.attempt x.session kind s).1 } :=
    (Later.refl is).withEngine _
  have steps : Trial.Steps g t (t.after g (.attempt 1)) := .tail _ .refl tried
  have stage : (t.after g (.attempt 1)).stage =
      if (g.attempts t.attempt).isRetried g.limit t.attempt then
        .waiting (.forOpenConnections 1 g.delay) false
      else .finished (g.attempts t.attempt).result := rfl
  rw [meets, follows.limit, follows.attempt] at stage
  refine ⟨_, steps, ?_⟩
  rw [run_runQuery_ready is ready]
  split at stage
  · rename_i again
    rw [if_pos again]
    obtain ⟨d, ticket, -, paused⟩ := later.beginPause follows.flight retry x.config.lockRetryDelay
      f.attempt
    refine .inFlight paused ⟨follows.limit, rfl, follows.attempt, ?_, follows.closing⟩ rfl
    rw [stage]
    exact .paused ..
  · rename_i last
    rw [if_neg last]
    obtain ⟨r, tells, -, ended⟩ := later.endQuery f kind (w.engine.attempt x.session kind s).2
    exact .finished stage tells rfl ended

/-- The worker looks how a pause stands. -/
theorem Follows.looked (follows : Follows g t x f) (is : w.conns[c]? = some x)
    {d : Nat} {ticket : Option (PoolRef × Nat)} (paused : f.stage = .paused d ticket)
    {strategy : RetryStrategy} {passed : Bool} (waits : t.stage = .waiting strategy passed) :
    ∃ t', Trial.Steps g t t' ∧ GoneOn g w c x f.item t' ((runQuery c f kind s retry).run w).2 := by
  obtain ⟨isOver, run⟩ : ∃ isOver, (runQuery c f kind s retry).run w =
      (leavePause c f retry (.of isOver x.queue.closing)).run w := run_runQuery_paused is paused
  have later : Later w c x [] w := .refl is
  rw [run]
  cases isOver with
  | true =>
      let f' : Flight := { f with attempt := f.attempt + 1, stage := .ready }
      have resumed := (later.elsewhere (quiet_stepRetry retry Pool.resume)).modifyConn fun x =>
        { x with flight := x.flight.map fun f =>
          { f with attempt := f.attempt + 1, stage := .ready } }
      have follows' : Follows g { t with attempt := t.attempt + 1, stage := .ready }
          { x with flight := x.flight.map fun f =>
            { f with attempt := f.attempt + 1, stage := .ready } } f' :=
        ⟨follows.limit, congrArg (Option.map _) follows.flight, congrArg (· + 1) follows.attempt,
          .ready fun _ _ => nofun, follows.closing⟩
      exact ⟨_, Trial.steps_resumed waits, .inFlight resumed follows' rfl⟩
  | false =>
      cases closing : x.queue.closing with
      | true =>
          have closes : Trial.Steps g t { t with closing := true } := .tail .close .refl trivial
          have steps := closes.tail .notice ⟨rfl, strategy, passed, waits⟩
          have cancelled := (later.elsewhere (quiet_stepRetry retry Pool.cancelPause)).complete
            f.item (.refused .cancelled)
          exact ⟨_, steps, .finished rfl (.error _ _) rfl cancelled⟩
      | false => exact ⟨t, .refl, .inFlight later follows rfl⟩

/-- When the worker goes on with a query, a trial can go on with it. -/
theorem runQuery_follows (follows : Follows g t x f) (is : w.conns[c]? = some x)
    (meets : g.attempts t.attempt = (w.engine.attempt x.session kind s).2) :
    ∃ t', Trial.Steps g t t' ∧ GoneOn g w c x f.item t' ((runQuery c f kind s retry).run w).2 := by
  have asFar := follows.stage
  generalize flown : f.stage = stage at asFar
  generalize tried : t.stage = stage' at asFar
  cases asFar with
  | ready ready => exact follows.attempted is (flown ▸ ready) tried meets
  | paused d ticket strategy isOver => exact follows.looked is flown tried

end Sim

end ConnectionPool.Scenario
