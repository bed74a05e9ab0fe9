import ConnectionPool.Proofs.Remembered.Tasks

/-!
# The last row id and the last error

In every world that the simulation leads to, every connection has its `Chronicle`, with the work
that its worker came to the end of.  It remembers the last results of that work.
-/

namespace ConnectionPool.Scenario

/-- A world that the simulation leads to, with the work that is over on each connection.  The actors
that can go on do so in any order, and whether work whose caller leaves goes on before that is
noticed is left open. -/
inductive Reached : World → (Nat → List Done) → Prop where
  /-- Nothing happened. -/
  | start (config : Config) (outruns : Nat → Bool) :
      Reached { registries := [{ config }], outruns } fun _ => []
  /-- The task of an operation is started. -/
  | starts {w : World} {log : Nat → List Done} (name : String) (op : Operation) :
      Reached w log → Reached ((Sim.startTask name op).run w).2 log
  /-- A command is done. -/
  | commands {w : World} {log : Nat → List Done} (name : String) (command : Command) :
      Reached w log → Reached ((Sim.runCommand name command).run w).2 log
  /-- A task or a worker goes on. -/
  | acts {w : World} {log : Nat → List Done} (a : Actor) : Reached w log →
      Reached ((Sim.runActor a).run w).2 (a.logs ((Sim.runActor a).run w).1 log)
  /-- What nothing holds is dropped. -/
  | reaps {w : World} {log : Nat → List Done} : Reached w log → Reached (Sim.reap.run w).2 log
  /-- Others stand in line, or in another order. -/
  | lines {w : World} {log : Nat → List Done} (ready : List Actor) :
      Reached w log → Reached { w with ready } log
  /-- The ends of tasks are told. -/
  | tellsDone {w : World} {log : Nat → List Done} :
      Reached w log → Reached (Sim.tellDone.run w).2 log
  /-- What happened is told. -/
  | tellsEvents {w : World} {log : Nat → List Done} :
      Reached w log → Reached (Sim.tellEvents.run w).2 log

variable {w : World} {c : Nat} {x : Connection} {log : Nat → List Done}

namespace Reached

theorem settle (h : Reached w log) (fuel : Nat) :
    ∃ log', Reached ((Sim.settle fuel).run w).2 log' := by
  induction fuel generalizing w log with
  | zero => exact ⟨log, h⟩
  | succ fuel ih =>
      unfold Sim.settle
      rw [Sim.run_bind]
      split
      · exact ⟨log, h⟩
      · next a ready _ =>
          have acted := (h.lines ready).acts a
          have stands : Reached ((Sim.requeue a ((Sim.runActor a).run { w with ready }).1).run
              ((Sim.runActor a).run { w with ready }).2).2
              (a.logs ((Sim.runActor a).run { w with ready }).1 log) := by
            generalize (Sim.runActor a).run { w with ready } = step at acted
            obtain ⟨p, w'⟩ := step
            cases p with
            | blocked => exact acted
            | _ => exact acted.lines _
          exact ih stands.reaps

theorem runStep (h : Reached w log) (s : Step) :
    ∃ log', Reached ((Sim.runStep s).run w).2 log' := by
  have shows {w : World} (h : Reached w log) (reading : Option Reading) : ∃ log', Reached ((do
      Sim.reap
      Sim.settle Sim.patience
      let done ← Sim.tellDone
      let events ← Sim.tellEvents
      return { pools := ← Sim.tellPools, reading, done, events } : Sim StepAnswer).run w).2
      log' := by
    obtain ⟨log', settled⟩ := h.reaps.settle Sim.patience
    exact ⟨log', settled.tellsDone.tellsEvents⟩
  obtain ⟨name, act⟩ := s
  cases act with
  | task op => exact shows (h.starts name op) none
  | now command => exact shows (h.commands name command) _

/-- Scripts lead to such worlds. -/
theorem script (s : Script) : ∃ log,
    Reached ((s.steps.mapM Sim.runStep).run { registries := [{ config := s.config }] }).2 log := by
  have runs (steps : List Step) {w : World} {log : Nat → List Done} (h : Reached w log) :
      ∃ log', Reached ((steps.mapM Sim.runStep).run w).2 log' := by
    induction steps generalizing w log with
    | nil => exact ⟨log, h⟩
    | cons s steps ih =>
        rw [List.mapM_cons]
        obtain ⟨log', stepped⟩ := h.runStep s
        exact ih stepped
  exact runs s.steps (.start s.config fun _ => false)

end Reached

/-- In every world that the simulation leads to, every connection has its chronicle. -/
theorem Reached.chronicled (h : Reached w log) : Chronicled log w := by
  induction h with
  | start config outruns =>
      exact ⟨fun _ _ is => (nomatch is), fun _ _ => rfl⟩
  | starts name op _ ih => exact Sim.Keeps.startTask name op _ _ ih
  | commands name command _ ih => exact Sim.Keeps.runCommand name command _ _ ih
  | acts a _ ih =>
      cases a with
      | task n => exact Sim.Keeps.runTask n _ _ ih
      | worker c => exact Sim.chronicled_runWorker ih c
  | reaps _ ih => exact Sim.Keeps.reap _ _ ih
  | lines ready _ ih =>
      have same : Sim.Keeps (modify fun w => { w with ready }) := .writes fun _ => ⟨rfl, rfl⟩
      exact same _ _ ih
  | tellsDone _ ih => exact Sim.Keeps.of_conns (fun _ => ⟨rfl, Nat.le_refl _⟩) _ _ ih
  | tellsEvents _ ih => exact Sim.Keeps.of_conns (fun _ => ⟨rfl, Nat.le_refl _⟩) _ _ ih

/-- Asking for the last row id and the last error tells what the connection remembers. -/
theorem run_last (is : w.conns[c]? = some x) {name on : String}
    (target : ((Sim.targetConn on).run w).1 = c) :
    ((Sim.runCommand name (.last on)).run w).1 = some (.last x.lastRow x.lastError) := by
  have still : ((Sim.targetConn on).run w).2 = w := by
    unfold Sim.targetConn Sim.target?
    rw [Sim.run_bind, Sim.run_bind]
    split <;> rfl
  unfold Sim.runCommand
  rw [Sim.run_bind, Sim.run_bind, target, still, Sim.run_conn is]
  rfl

/-- Every connection of a world that the simulation leads to has its chronicle, with the work that
its worker came to the end of.  Work comes to its end in the order in which it was asked for, each
once, and whoever asks for the last row id and the last error is given those of the last work that
is over and reported one.  Whoever is told something meanwhile is told the result of such work, or
that his own was cancelled when the queue ended.

Work that is passed over, dropped or cancelled is not over in this sense.  Work whose caller left
while it was in flight is when it came to its end before that was noticed; nobody is told then.  An
attempt that met a lock and was made again is no result, and only queries report row ids and errors
(`Done.rowId?`, `Done.engineError?`), so nothing else changes the answer. -/
theorem remembers_last :
    (∀ w log c x, Reached w log → w.conns[c]? = some x → ∃ asks, Chronicle c w asks (log c)) ∧
    ∀ c w asks done, Chronicle c w asks done →
      (done.map (·.asked)).Sublist asks ∧ asks.Pairwise (·.id < ·.id) ∧
      (∀ name on, ((Sim.targetConn on).run w).1 = c →
        ((Sim.runCommand name (.last on)).run w).1 =
          some (.last (lastRow done) (lastError done))) ∧
      ∃ replies, ((Sim.runWorker c).run w).2.replies = w.replies ++ replies ∧ ∀ t ∈ replies,
        (∃ d, ((Sim.runWorker c).run w).1.done? = some d ∧ t = (d.asked.id, d.result)) ∨
          t.2 = .refused .cancelled := by
  refine ⟨fun w log c x reached is => reached.chronicled.chronicle c x is, ?_⟩
  intro c w asks done chronicle
  obtain ⟨x, kept⟩ := chronicle.kept
  refine ⟨(List.sublist_append_left _ _).trans kept.stands.order, kept.sorted, ?_, ?_⟩
  · intro name on target
    rw [run_last kept.conn target, kept.stands.row, kept.stands.error]
  · exact (Sim.worked_runWorker kept.conn).tells

/-- A connection that a task opened has its chronicle.  In the other one a statement is run after it
met a lock, a query fails, a statement is run whose caller left before that was noticed, and
appended work is done.  He who left is not told. -/
theorem remembers_last_left :
    (∃ w log x, Reached w log ∧ w.conns[0]? = some x ∧ ∃ asks, Chronicle 0 w asks (log 0)) ∧
    ∃ w asks done, Chronicle 0 w asks done ∧
      done.length = 4 ∧ lastRow done = 9 ∧ lastError done = some "no such table" ∧
      ((Sim.runCommand "" (.last "")).run w).1 = some (.last 9 (some "no such table")) ∧
      w.replies.map (·.1) = [3] := by
  constructor
  · have reached := ((Reached.start {} fun _ => true).starts "a" (.openPath ⟨":memory:"⟩)).acts
      (.task 0)
    exact ⟨_, _, _, reached, rfl, remembers_last.1 _ _ 0 _ reached rfl⟩
  have opened : Chronicle 0 ((Sim.connect ⟨":memory:"⟩ .primary {} none).run
      { registries := [{ config := {} }], outruns := fun _ => true }).2 [] [] := .opened rfl
  have started := (opened.asked (.query .run ⟨"INSERT", .none⟩ none) false).worked
  have locked := started.answered (.outcome { failure := some (.database 5 "locked") })
    rfl rfl rfl (by intro d t is; cases is) (fun _ => rfl)
  -- The clock is put forward, so that the worker finds the pause over.
  have later := @Chronicle.elsewhere 0 _ { (_ : World) with clock := 1000 } _ _ locked rfl
    (Nat.le_refl _)
  have ran := later.worked.answered (.outcome { lastRow := 7 }) rfl rfl rfl
    (by intro d t is; cases is) (fun _ => rfl)
  have asked := (ran.asked (.query .all ⟨"SELECT", .none⟩ none) false).worked
  have failed := asked.answered (.outcome { failure := some (.database 1 "no such table") })
    rfl rfl rfl (by intro d t is; cases is) (fun _ => rfl)
  -- Those who were told so far have taken their replies.
  let x : Connection := {
    session := 0, path := ⟨":memory:"⟩, role := .primary, config := {}, pool := none
    lastRow := 7, lastError := some "no such table" }
  have taken := @Chronicle.elsewhere 0 _
    { registries := [], conns := [x], fresh := 2, outruns := fun _ => true } _ _ failed rfl
    (by decide)
  have left := ((taken.asked (.query .run ⟨"INSERT", .none⟩ none) false).worked).left 2
  have outran := left.answered (.outcome { lastRow := 9 }) rfl rfl rfl
    (by intro d t is; cases is) (fun _ => rfl)
  have appended := ((outran.asked (.append "done" none none) false).worked).worked
  have answer := (remembers_last.2 _ _ _ _ appended).2.2.1 "" "" (by decide +kernel)
  refine ⟨_, _, _, appended, by decide +kernel, by decide +kernel, by decide +kernel, ?_,
    by decide +kernel⟩
  exact answer.trans (congrArg some
    (congrArg₂ Reading.last (by decide +kernel) (by decide +kernel)))

end ConnectionPool.Scenario
