import ConnectionPool.Scenario.Worker

/-!
# Computations that leave the connections alone

Much that tasks and workers do happens in the pools, at the gates and among the tasks, and leaves
the connections and the replies alone: `Elsewhere`, or `Quiet` where the result does not matter.
A computation that `OnlyWakes` does even less.  Both are put together along the binds and the loops
of a computation.
-/

namespace ConnectionPool.Scenario.Sim

variable {α β : Type} {P : α → Prop} {Q : β → Prop}

/-- The second computation runs on what the first left. -/
theorem run_bind (m : Sim α) (k : α → Sim β) (w : World) :
    (m >>= k).run w = (k (m.run w).1).run (m.run w).2 := rfl

theorem run_get (w : World) : (get : Sim World).run w = (w, w) := rfl

theorem run_pure (x : α) (w : World) : (pure x : Sim α).run w = (x, w) := rfl

/-- A connection that is there is read as it is. -/
theorem run_conn {w : World} {c : Nat} {x : Connection} (is : w.conns[c]? = some x) :
    (conn c).run w = (x, w) := by
  show (w.conns.getD c default, w) = _
  rw [List.getD_eq_getElem?_getD, is]
  rfl

/-- Opening a connection fails and changes nothing, or there is one more, that nothing happened
to. -/
theorem connect_cases (w : World) (path : DatabasePath) (role : Role) (config : Config)
    (pool : Option PoolRef) :
    (∃ e, (connect path role config pool).run w = (.error e, w)) ∨
      ∃ engine session, (connect path role config pool).run w = (.ok w.conns.length,
        { w with engine, conns := w.conns ++ [{ session, path, role, config, pool }] }) := by
  unfold connect
  split
  · exact .inl ⟨_, rfl⟩
  · rw [run_bind, run_get]
    cases w.engine.openSession path with
    | error fault => exact .inl ⟨_, rfl⟩
    | ok opened => exact .inr ⟨opened.1, opened.2, rfl⟩

/-! ## What happens elsewhere -/

/-- A computation leaves connections and replies as they are, gives no number out twice, and comes
to such a result. -/
def Elsewhere (P : α → Prop) (m : Sim α) : Prop :=
  ∀ w, (m.run w).2.conns = w.conns ∧ (m.run w).2.replies = w.replies ∧
    w.fresh ≤ (m.run w).2.fresh ∧ P (m.run w).1

/-- A computation leaves connections and replies as they are. -/
abbrev Quiet (m : Sim α) : Prop := Elsewhere (fun _ => True) m

namespace Elsewhere

theorem pure {x : α} (h : P x) : Elsewhere P (pure x : Sim α) :=
  fun _ => ⟨rfl, rfl, Nat.le_refl _, h⟩

theorem done {x : α} : Quiet (Pure.pure x : Sim α) := .pure trivial

theorem get : Quiet get := fun _ => ⟨rfl, rfl, Nat.le_refl _, trivial⟩

theorem fresh : Quiet Sim.fresh := fun _ => ⟨rfl, rfl, Nat.le_succ _, trivial⟩

theorem modify {f : World → World} (keeps : ∀ w, (f w).conns = w.conns ∧
    (f w).replies = w.replies ∧ (f w).fresh = w.fresh) : Quiet (modify f) :=
  fun w => ⟨(keeps w).1, (keeps w).2.1, Nat.le_of_eq (keeps w).2.2.symm, trivial⟩

theorem bind {m : Sim α} {k : α → Sim β} (h : Quiet m) (h' : ∀ x, Elsewhere Q (k x)) :
    Elsewhere Q (m >>= k) := fun w => by
  obtain ⟨conns, replies, grows, -⟩ := h w
  obtain ⟨conns', replies', grows', result⟩ := h' (m.run w).1 (m.run w).2
  exact ⟨conns'.trans conns, replies'.trans replies, Nat.le_trans grows grows', result⟩

end Elsewhere

/-- What every round of a loop keeps, from world to world, the loop keeps. -/
theorem rel_forIn {R : World → World → Prop} (refl : ∀ w, R w w)
    (trans : ∀ {w w' w''}, R w w' → R w' w'' → R w w'') {xs : List α}
    {f : α → PUnit → Sim (ForInStep PUnit)} (h : ∀ x y w, R w ((f x y).run w).2) (w : World) :
    R w ((forIn xs PUnit.unit f).run w).2 := by
  induction xs generalizing w with
  | nil => exact refl w
  | cons x xs ih =>
      have round := h x PUnit.unit w
      rw [List.forIn_cons, run_bind]
      cases ((f x PUnit.unit).run w).1 with
      | done y => exact round
      | yield y => exact trans round (ih _)

/-- A computation lets actors go on, and does nothing else. -/
def OnlyWakes (m : Sim α) : Prop := ∀ w, ∃ ready, (m.run w).2 = { w with ready }

namespace OnlyWakes

theorem done {x : α} : OnlyWakes (Pure.pure x : Sim α) := fun w => ⟨w.ready, rfl⟩

theorem get : OnlyWakes get := fun w => ⟨w.ready, rfl⟩

theorem trans {w w' w'' : World} (h : ∃ ready, w' = { w with ready })
    (h' : ∃ ready, w'' = { w' with ready }) : ∃ ready, w'' = { w with ready } := by
  obtain ⟨ready, rfl⟩ := h
  exact h'

theorem bind {m : Sim α} {k : α → Sim β} (h : OnlyWakes m) (h' : ∀ x, OnlyWakes (k x)) :
    OnlyWakes (m >>= k) := fun w => trans (h w) (h' _ _)

theorem forIn {xs : List α} {f : α → PUnit → Sim (ForInStep PUnit)}
    (h : ∀ x r, OnlyWakes (f x r)) : OnlyWakes (forIn xs PUnit.unit f) :=
  rel_forIn (R := fun w w' => ∃ ready, w' = { w with ready }) (fun w => ⟨w.ready, rfl⟩) trans h

theorem quiet {m : Sim α} (h : OnlyWakes m) : Quiet m := fun w => by
  obtain ⟨ready, after⟩ := h w
  rw [after]
  exact ⟨rfl, rfl, Nat.le_refl _, trivial⟩

end OnlyWakes

/-- An actor that may go on is noted once. -/
theorem onlyWakes_wake (a : Actor) : OnlyWakes (wake a) := fun w => by
  show ∃ ready, (if w.ready.contains a then w else { w with ready := w.ready ++ [a] }) = _
  split
  · exact ⟨w.ready, rfl⟩
  · exact ⟨_, rfl⟩

/-- The tasks with a frame that passes the test may go on. -/
theorem onlyWakes_wakeTasks (test : Frame → Bool) : OnlyWakes (wakeTasks test) := by
  refine .bind .get fun w => .forIn fun x r => ?_
  split
  split
  · exact .bind (onlyWakes_wake _) fun _ => .done
  · exact .done

/-- Whoever waits with the ticket may go on. -/
theorem onlyWakes_notify (r : PoolRef) (woken : Option Waiter) : OnlyWakes (notify r woken) := by
  unfold notify
  split
  · exact .done
  split
  · exact onlyWakes_wakeTasks _
  · refine .bind .get fun w => .forIn fun x r => ?_
    split
    split
    · exact .bind (onlyWakes_wake _) fun _ => .done
    · exact .done

/-! ## Pools, gates and policies -/

theorem quiet_event (text : String) : Quiet (event text) := .modify fun _ => ⟨rfl, rfl, rfl⟩

theorem quiet_startTimer (deadline : Nat) (target : Timer.Target) :
    Quiet (startTimer deadline target) := .modify fun _ => ⟨rfl, rfl, rfl⟩

theorem quiet_pool? (r : PoolRef) : Quiet (pool? r) := .bind .get fun _ => .done

theorem quiet_putPool (r : PoolRef) (p : Pool) : Quiet (putPool r p) :=
  .modify fun _ => ⟨rfl, rfl, rfl⟩

/-- A pool is part of a registry, not of a connection. -/
theorem quiet_modifyPool (r : PoolRef) (f : Pool → Pool) : Quiet (modifyPool r f) := by
  unfold modifyPool
  refine .bind (quiet_pool? _) fun p => ?_
  split
  · exact quiet_putPool _ _
  · exact .done

/-- Retries that begin and end are counted by their pool. -/
theorem quiet_beginRetries (r : Option PoolRef) : Quiet (beginRetries r) := by
  unfold beginRetries
  split
  · exact .done
  · refine .bind (quiet_pool? _) fun p => ?_
    split
    · exact .done
    · exact .bind (quiet_putPool _ _) fun _ => .done

theorem quiet_endRetries (retry : Option (PoolRef × Nat)) : Quiet (endRetries retry) := by
  unfold endRetries
  split
  · refine .bind (quiet_pool? _) fun p => ?_
    split
    · exact .bind (quiet_putPool _ _) fun _ => (onlyWakes_notify _ _).quiet
    · exact .done
  · exact .done

theorem quiet_stepRetry (retry : Option (PoolRef × Nat)) (f : Pool → RetryState → Pool) :
    Quiet (stepRetry retry f) := by
  cases retry with
  | none => exact .done
  | some retry => exact quiet_modifyPool _ _

theorem quiet_gate (name : String) : Quiet (gate name) := .bind .get fun _ => .done

theorem quiet_putGate (name : String) (g : Gate) : Quiet (putGate name g) :=
  .modify fun _ => ⟨rfl, rfl, rfl⟩

/-- A pass is taken at once, or a ticket is waited for. -/
theorem quiet_askPass (name : String) (who : Actor) : Quiet (askPass name who) := by
  refine .bind (quiet_gate name) fun g => ?_
  split
  · exact .bind (quiet_putGate _ _) fun _ => .done
  · exact .bind .fresh fun _ => .bind (quiet_putGate _ _) fun _ => .done

theorem quiet_takePass (name : String) (ticket : Nat) : Quiet (takePass name ticket) := by
  refine .bind (quiet_gate name) fun g => ?_
  split
  · exact .bind (quiet_putGate _ _) fun _ => .done
  · exact .done

/-- A pass goes to the first that waits, or is kept. -/
theorem quiet_givePass (name : String) : Quiet (givePass name) := by
  refine .bind (quiet_gate name) fun g => ?_
  split
  · exact quiet_putGate _ _
  · exact .bind (quiet_putGate _ _) fun _ => (onlyWakes_wake _).quiet

/-- A pass that was given goes to the next. -/
theorem quiet_leaveGate (name : String) (ticket : Nat) : Quiet (leaveGate name ticket) := by
  refine .bind (quiet_gate name) fun g => ?_
  split
  · exact .bind (quiet_putGate _ _) fun _ => quiet_givePass name
  · exact quiet_putGate _ _

theorem quiet_policy (n : Nat) : Quiet (policy n) := .bind .get fun _ => .done

theorem quiet_modifyPolicy (n : Nat) (f : Policy → Policy) : Quiet (modifyPolicy n f) :=
  .modify fun _ => ⟨rfl, rfl, rfl⟩

/-- The next in line may use the policy then. -/
theorem quiet_leavePolicy (n c : Nat) : Quiet (leavePolicy n c) := by
  unfold leavePolicy
  refine .bind (quiet_policy n) fun found => ?_
  cases found with
  | none => exact .done
  | some p =>
      show Quiet (if p.user == some c then _ else _)
      split
      · refine .bind (.modify fun _ => ⟨rfl, rfl, rfl⟩) fun _ => ?_
        cases p.line.head? with
        | none => exact .done
        | some next => exact (onlyWakes_wake _).quiet
      · exact .modify fun _ => ⟨rfl, rfl, rfl⟩

/-- A query that is discarded ends its retries. -/
theorem quiet_discardWork (work : Work) : Quiet (discardWork work) := by
  cases work with
  | query kind s retry => exact quiet_endRetries retry
  | _ => exact .done

/-- To look how a pause stands changes nothing. -/
theorem quiet_pauseState (deadline : Nat) (ticket : Option (PoolRef × Nat)) (closing : Bool) :
    Quiet (pauseState deadline ticket closing) := by
  cases ticket <;> exact fun _ => ⟨rfl, rfl, Nat.le_refl _, trivial⟩

/-- Beginning to pause changes the pool, and tells how long the pause lasts. -/
theorem elsewhere_pause (c : Nat) (retry : Option (PoolRef × Nat)) (delay attempt : Nat) :
    Elsewhere (fun stage => ∃ deadline ticket, stage = .paused deadline ticket)
      (pause c retry delay attempt) := by
  refine .bind .get fun w => ?_
  have event (strategy : RetryStrategy) : Quiet
      (event ("retry " ++ toString (attempt + 1) ++ " " ++ strategy.name)) := quiet_event _
  cases retry
  case' none => refine .bind .done fun alive => .bind (event _) fun _ => ?_
  case' some retry =>
    refine .bind (quiet_pool? _) fun p => .bind .done fun alive => .bind (event _) fun _ => ?_
  all_goals
    split
    · refine .bind .get fun _ => .bind (.bind .get fun _ => .done) fun _ => ?_
      exact .bind (quiet_putPool _ _) fun _ => .bind (onlyWakes_notify _ _).quiet fun _ =>
        .pure ⟨_, _, rfl⟩
    · exact .bind (quiet_putPool _ _) fun _ => .pure ⟨_, _, rfl⟩
    · exact .pure ⟨_, _, rfl⟩

end ConnectionPool.Scenario.Sim
