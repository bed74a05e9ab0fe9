import ConnectionPool.Proofs.Pool.NextInLine
import ConnectionPool.Proofs.Query.Worker

/-!
# A wake in hand

An operation that was woken and is blocked again goes back to waiting.  If an acquisition
is first in line and a slot is free, then the wake that the operation has in hand is the
one that the acquisition needs.

What becomes of it depends on how the operation waits.  In the queue it hands the wake
over before it lines up.  Alone with one connection, or with none, it waits out a delay and
keeps the wake: `handsOver_iff`.  The count that decides this is of open connections, and
the very release that freed the slot made it smaller.
-/

namespace ConnectionPool.Scenario

/-- The pool of a reference, while it is there. -/
def World.poolAt (w : World) (r : PoolRef) : Option Pool :=
  (w.registries[r.registry]?.bind fun reg => reg.get? r.pool).map (·.pool)

end ConnectionPool.Scenario

namespace ConnectionPool.Pool

variable {limit id delay : Nat} {p : Pool} {s : RetryState} {q : Waiter} {autocommit : Bool}

/-- The step by which an operation goes back to waiting. -/
def waits (p : Pool) (id : Nat) (autocommit : Bool) (delay : Nat) : Event :=
  match RetryStrategy.forOpenConnections p.entry.openConnections delay with
  | .queued => .park id autocommit
  | .delayed _ => .delay id

theorem waits_queued (others : 1 < p.entry.openConnections) :
    p.waits id autocommit delay = .park id autocommit := by
  rw [waits, RetryStrategy.forOpenConnections, if_pos others]

theorem waits_delayed (alone : ¬1 < p.entry.openConnections) :
    p.waits id autocommit delay = .delay id := by
  rw [waits, RetryStrategy.forOpenConnections, if_neg alone]

/-- The acquisition that is first in line waits for its slot. -/
theorem Slots.first_queued (slots : Slots limit p)
    (first : p.entry.waiters.find? (·.live) = some q) (acquisition : q.kind = .acquisition) :
    p.stage? q.ticket = some .queued := by
  have live : q.live := List.find?_some first
  refine slots.stage?_queued (List.mem_of_find?_eq_some first) ?_
  rw [Waiter.isAcquisition, live, acquisition]
  rfl

/-- An acquisition that is first in line is ready when a slot is free. -/
theorem acquisitionReady_sweep (first : p.entry.waiters.find? (·.live) = some q)
    (acquisition : q.kind = .acquisition) (free : p.entry.inUse < p.entry.limit) :
    p.sweep.entry.acquisitionReady := by
  have head : (p.entry.waiters.filter (·.live)).head? = some q := by
    rw [List.head?_filter]
    exact first
  show ((p.entry.waiters.filter (·.live)).head?.any _ && decide (p.entry.inUse < p.entry.limit)) = _
  simp [head, acquisition, free]

theorem retry?_setRetry (op : p.retry? id = some s) {s' : RetryState} (same : s'.id = s.id) :
    Pool.retry? (p.setRetry s') id = some s' := by
  obtain ⟨-, rfl⟩ := mem_of_findRetry op
  have changed : (p.setRetry s').retries.find? (·.id == s'.id) =
      (p.retries.find? (·.id == s'.id)).map fun _ => s' := find?_replaceKey fun _ _ => rfl
  have there : p.retries.find? (·.id == s.id) = some s := op
  rw [same, there] at changed
  exact changed

/-- An operation that lines up with a wake in hand hands it to the acquisition. -/
theorem park_grants (slots : Slots limit p) (pauses : Pauses p) (op : p.retry? id = some s)
    (owes : s.owesWake) (first : p.entry.waiters.find? (·.live) = some q)
    (acquisition : q.kind = .acquisition) (free : p.entry.inUse < p.entry.limit) :
    Attends p (.park id autocommit) p.entry.inUse ∧ p.woken (.park id autocommit) = some q ∧
      (p.after (.park id autocommit)).stage? q.ticket = some .granted := by
  have ready := acquisitionReady_sweep first acquisition free
  have passes : p.passesOn autocommit s.owesWake := by simp [passesOn, owes, ready]
  have attends := Attends.park slots pauses op passes
  have woken : p.woken (.park id autocommit) = some q := by
    have swept : (p.found (.park id autocommit)).find? (·.live) = some q := by
      show (p.entry.waiters.filter (·.live)).find? (·.live) = some q
      rw [List.find?_filter]
      simpa using first
    rw [attends.first, swept]
    simp [Option.filter, free]
  have told := attends.told q woken
  rw [acquisition] at told
  exact ⟨attends, woken, beq_iff_eq.mp told⟩

end ConnectionPool.Pool

namespace ConnectionPool.Scenario

open ConnectionPool.Pool

namespace Sim

variable {w : World} {r : PoolRef} {p q : Pool} {id : Nat} {s : RetryState}

theorem run_pool? (w : World) (r : PoolRef) : (pool? r).run w = (w.poolAt r, w) := rfl

theorem poolAt_putPool (there : w.poolAt r = some p) (q : Pool) :
    ((putPool r q).run w).2.poolAt r = some q := by
  obtain ⟨entry, found, -⟩ := Option.map_eq_some_iff.mp there
  obtain ⟨reg, is, has⟩ := Option.bind_eq_some_iff.mp found
  show (((w.registries.modify r.registry fun reg => reg.put r.pool q)[r.registry]?.bind
    fun reg => reg.get? r.pool).map (·.pool)) = some q
  rw [List.getElem?_modify_eq, is]
  have put : (reg.put r.pool q).get? r.pool =
      (reg.get? r.pool).map fun entry => { entry with pool := q } := find?_replaceKey fun _ => id
  show Option.map _ ((reg.put r.pool q).get? r.pool) = some q
  rw [put, has]
  rfl

theorem OnlyWakes.poolAt {α : Type} {m : Sim α} (h : OnlyWakes m) (w : World) (r : PoolRef) :
    (m.run w).2.poolAt r = w.poolAt r := by
  obtain ⟨ready, after⟩ := h w
  rw [after]
  rfl

/-- What going back to waiting does to the pool. -/
theorem poolAt_pause (there : w.poolAt r = some p) (op : p.retry? id = some s)
    (c delay attempt : Nat) : ((pause c (some (r, id)) delay attempt).run w).2.poolAt r =
      some (p.after (p.waits id (w.engine.autocommit (w.conns.getD c default).session) delay)) := by
  have alive : ((w.poolAt r).bind fun p => (p.retry? id).map fun s => (r, p, s)) =
      some (r, p, s) := by
    rw [there, Option.bind_some, op]
    rfl
  have noted : ∀ text, ((event text).run w).2.poolAt r = some p := fun _ => there
  unfold pause
  simp only [run_bind, run_pool?, run_get, run_pure, alive]
  by_cases others : 1 < p.entry.openConnections
  · rw [waits_queued others, after, withRetry_eq op]
    simp only [RetryStrategy.forOpenConnections, if_pos others, run_bind, run_get, run_pure]
    rw [(onlyWakes_notify r _).poolAt]
    exact poolAt_putPool (noted _) _
  · rw [waits_delayed others, after, withRetry_eq op]
    simp only [RetryStrategy.forOpenConnections, if_neg others, run_bind, run_pure]
    exact poolAt_putPool (noted _) _

end Sim

variable {limit id : Nat} {w : World} {r : PoolRef} {p : Pool} {s : RetryState} {q : Waiter}

/-- An operation that owes a wake goes back to waiting, while an acquisition is first in line
and a slot is free.  The acquisition is granted the slot if and only if more than one
connection is open.  Otherwise everything in the books stays, and the operation still owes
the wake when its delay is over. -/
theorem handsOver_iff (there : w.poolAt r = some p) (reachable : p.Reachable limit)
    (op : p.retry? id = some s) (owes : s.owesWake)
    (first : p.entry.waiters.find? (·.live) = some q) (acquisition : q.kind = .acquisition)
    (free : p.entry.inUse < p.entry.limit) (c delay attempt : Nat) :
    ∃ p', ((Sim.pause c (some (r, id)) delay attempt).run w).2.poolAt r = some p' ∧
      (p'.stage? q.ticket = some .granted ↔ 1 < p.entry.openConnections) ∧
      (¬1 < p.entry.openConnections → p'.entry = p.entry) ∧
      Pool.retry? p' id = some { s with
        pause := some (if 1 < p.entry.openConnections then .parked p.fresh false else .delayed) } := by
  have slots := reachable.slots
  obtain ⟨lost, run⟩ := reachable
  refine ⟨_, Sim.poolAt_pause there op c delay attempt, ?_⟩
  by_cases others : 1 < p.entry.openConnections
  · rw [waits_queued others]
    obtain ⟨-, -, granted⟩ := park_grants slots run.pauses op owes first acquisition free
    refine ⟨iff_of_true granted others, fun alone => absurd others alone, ?_⟩
    have passes (autocommit : Bool) : p.passesOn autocommit s.owesWake := by
      simp [passesOn, owes, acquisitionReady_sweep first acquisition free]
    have same : p.sweep.wake.1.joinQueue.retry? id = some s := by
      show p.sweep.wake.1.retries.find? _ = _
      rw [p.sweep.wake_woke.retries]
      exact op
    rw [after, withRetry_eq op, pauseParked_eq, if_pos others, passes, if_pos rfl,
      Bool.not_true, Bool.and_false]
    exact retry?_setRetry same rfl
  · rw [waits_delayed others, after, withRetry_eq op, if_neg others]
    have waits : p.stage? q.ticket = some .queued := slots.first_queued first acquisition
    have ungranted : (p.pauseDelayed s).stage? q.ticket ≠ some .granted := by
      show p.stage? q.ticket ≠ _
      rw [waits]
      intro is
      cases is
    exact ⟨iff_of_false ungranted others, fun _ => rfl, retry?_setRetry op rfl⟩

/-- A pool with one slot, which is free, and with so many primary connections.  A lock retry
was woken when the slot was given back.  An acquisition is first in line. -/
def owing (primaries : Nat) : Pool where
  entry := { limit := 1, primaries, waiters := [⟨3, .acquisition, true⟩] }
  acquisitions := [⟨3, .queued⟩]
  retries := [{ id := 1, owesWake := true }]
  fresh := 4

theorem owing_two_run : Run 1 0 (owing 2) := by
  have first := ((@Run.new 1).step .beginOpen rfl).step (.endOpen true) rfl
  have second := (first.step .beginOpen rfl).step (.endOpen true) rfl
  have opening := (second.step .acquire rfl).step (.claim 0 fun _ => true) rfl
  have leased := (opening.step (.opened 0 7) rfl).step (.lease 0 7) rfl
  have parked := (leased.step .beginRetries rfl).step (.park 1 false) rfl
  have waiting := parked.step .acquire rfl
  have woken := waiting.step (.release 7 none) rfl
  exact woken.step (.resume 1) rfl

/-- One of the primary connections is closed, and one connection is left. -/
theorem owing_one_run : Run 1 0 (owing 1) := owing_two_run.step .closePrimary rfl

/-- A world with one pool. -/
def hosting (p : Pool) : World :=
  { registries := [{ config := { maxPooled := 1 }, pools := [⟨0, ⟨"a.db"⟩, p⟩], fresh := 1 }] }

/-- With two primary connections the operation hands its wake over. -/
theorem handsOver_iff_two : (owing 2).Reachable 1 ∧ (owing 2).entry.openConnections = 2 ∧
    ∃ p', ((Sim.pause 0 (some (⟨0, 0⟩, 1)) 50 0).run (hosting (owing 2))).2.poolAt ⟨0, 0⟩ =
      some p' ∧ p'.stage? 3 = some .granted := by
  have reachable : (owing 2).Reachable 1 := ⟨0, owing_two_run⟩
  have there : (hosting (owing 2)).poolAt ⟨0, 0⟩ = some (owing 2) := rfl
  have op : Pool.retry? (owing 2) 1 = some { id := 1, owesWake := true } := rfl
  obtain ⟨p', is, granted, -⟩ := handsOver_iff there reachable op rfl
    (q := ⟨3, .acquisition, true⟩) rfl rfl (by decide) 0 50 0
  exact ⟨reachable, rfl, p', is, granted.mpr (by decide)⟩

/-- With one connection left it keeps the wake, and the acquisition waits on for a slot that
is free. -/
theorem keepsWake_alone : ¬∀ (limit id : Nat) (w : World) (r : PoolRef) (p : Pool)
    (s : RetryState) (q : Waiter), w.poolAt r = some p → p.Reachable limit →
      p.retry? id = some s → s.pause = none → s.owesWake →
      p.entry.waiters.find? (·.live) = some q → q.kind = .acquisition →
      p.entry.inUse < p.entry.limit →
      ∀ c delay attempt, ∃ p', ((Sim.pause c (some (r, id)) delay attempt).run w).2.poolAt r =
        some p' ∧ p'.stage? q.ticket = some .granted := by
  intro claim
  obtain ⟨p', is, granted⟩ := claim 1 1 (hosting (owing 1)) ⟨0, 0⟩ (owing 1) _
    ⟨3, .acquisition, true⟩ rfl ⟨0, owing_one_run⟩ rfl rfl rfl rfl rfl (by decide) 0 50 0
  rw [Sim.poolAt_pause rfl rfl, waits_delayed (by decide)] at is
  rw [← Option.some.inj is] at granted
  cases granted

end ConnectionPool.Scenario
