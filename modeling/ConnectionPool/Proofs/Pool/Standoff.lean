import ConnectionPool.Proofs.Pool.Load
import ConnectionPool.RetryStrategy

/-!
# Operations that block each other

In a `Standoff` every attempt of every operation meets a lock, and the clock stands
still.  An operation pauses, is tried again when it was woken or its time has come, and
ends when its retries are used up or when it is cancelled.  The operations of one
connection are tried in the order in which they began.  Others may use the pool
meanwhile, but nobody gives a slot or a lease back and no operation begins.  So the
connection of an operation stays in autocommit mode, or stays in its transaction.

Only the operations can then wake each other, and those that park in autocommit mode do.
If there is one connection in that mode, a retry takes one from the load
(`Pool.load`), and only an operation that ends adds to it.  This bounds the retries
(`Segment.retried_le`).  Pauses and ends are bounded with them, and when no operation
can take a step, each that is in turn waits for the clock (`exists_rest`).
-/

namespace ConnectionPool

/-! ## The system -/

/-- What does not change while operations block each other. -/
structure Standoff where
  /-- The delay of a lock retry, in milliseconds. -/
  delay : Nat
  /-- How often an operation is tried again, if that is limited. -/
  limit : Option Nat
  /-- The time. -/
  now : Nat
  /-- The connection of an operation. -/
  conn : Nat → Nat
  /-- A connection is in autocommit mode. -/
  autocommit : Nat → Bool

namespace Standoff

/-- What changes. -/
structure State where
  /-- The pool. -/
  pool : Pool
  /-- How often an operation was tried again. -/
  tried : Nat → Nat := fun _ => 0
  /-- When the pause of an operation ends, at the latest. -/
  deadline : Nat → Nat := fun _ => 0

/-- A step of an operation, or of somebody else. -/
inductive Move where
  /-- An operation met a lock and pauses. -/
  | pause (id : Nat)
  /-- An operation is tried again, and meets the lock again. -/
  | retry (id : Nat)
  /-- An operation met a lock, and no retry is left for it. -/
  | giveUp (id : Nat)
  /-- An operation is cancelled. -/
  | drop (id : Nat)
  /-- Somebody else takes a step. -/
  | other (e : Pool.Event)

/-- An operation is tried again. -/
def Move.isRetry : Move → Bool
  | .retry _ => true
  | _ => false

/-- An operation ends because it has no retry left. -/
def Move.isGivenUp : Move → Bool
  | .giveUp _ => true
  | _ => false

/-- An operation is cancelled. -/
def Move.isDropped : Move → Bool
  | .drop _ => true
  | _ => false

/-- An operation ends. -/
def Move.isEnd (m : Move) : Bool := m.isGivenUp || m.isDropped

/-- An operation takes the step by itself. -/
def Move.isOwn : Move → Bool
  | .pause _ => true
  | .retry _ => true
  | .giveUp _ => true
  | _ => false

variable (σ : Standoff)

/-- The connection of an operation is in autocommit mode. -/
def outside (id : Nat) : Bool := σ.autocommit (σ.conn id)

/-- The first operation of each connection is tried, the others stand behind it. -/
def inTurn (p : Pool) (id : Nat) : Bool :=
  (p.retries.map RetryState.id).find? (σ.conn · == σ.conn id) == some id

/-- The time of a pause has come. -/
def due (s : State) (id : Nat) : Bool := decide (s.deadline id ≤ σ.now)

/-- What happens to the pool. -/
def event (s : State) : Move → Pool.Event
  | .pause id =>
    match RetryStrategy.forOpenConnections s.pool.entry.openConnections σ.delay with
    | .queued => .park id (σ.outside id)
    | .delayed _ => .delay id
  | .retry id => .resume id
  | .giveUp id => .endRetries id
  | .drop id => .endRetries id
  | .other e => e

/-- The step can be taken. -/
def permits (s : State) : Move → Bool
  | .pause id => σ.inTurn s.pool id && s.pool.hasRetry id (·.pause.isNone) &&
      !retriesExhausted σ.limit (s.tried id)
  | .retry id => s.pool.hasRetry id (s.pool.isReady (σ.due s))
  | .giveUp id => σ.inTurn s.pool id && s.pool.hasRetry id (·.pause.isNone) &&
      retriesExhausted σ.limit (s.tried id)
  | .drop id => (s.pool.retry? id).isSome
  | .other e => s.pool.permits e && s.pool.givesNothingBack e

/-- The state after a step. -/
def after (s : State) (m : Move) : State where
  pool := s.pool.after (σ.event s m)
  tried := match m with
    | .retry id => fun i => if i = id then s.tried id + 1 else s.tried i
    | _ => s.tried
  deadline := match m with
    | .pause id => fun i => if i = id then σ.now + σ.delay else s.deadline i
    | _ => s.deadline

/-- Steps taken one after the other, while the clock stands still. -/
inductive Segment : State → List Move → State → Prop where
  /-- Nothing happens. -/
  | nil (s : State) : Segment s [] s
  /-- First one step. -/
  | cons {s t : State} {ms : List Move} (m : Move) :
      σ.permits s m → Segment (σ.after s m) ms t → Segment s (m :: ms) t

/-- How many retries there are. -/
def retried (ms : List Move) : Nat := ms.countP Move.isRetry

/-- How many operations end. -/
def ended (ms : List Move) : Nat := ms.countP Move.isEnd

/-- The retries to come. -/
def load (s : State) : Nat := s.pool.load σ.outside (σ.due s)

/-- Only operations that are in turn have met a lock. -/
def Turns (p : Pool) : Prop := ∀ r ∈ p.retries, r.pause.isSome → σ.inTurn p r.id

/-- At most one of the connections is in autocommit mode. -/
def OneOutside (p : Pool) : Prop := ∀ r ∈ p.retries, ∀ s ∈ p.retries,
  σ.outside r.id → σ.outside s.id → σ.conn r.id = σ.conn s.id

/-- Every operation that is in turn waits for the clock. -/
def Rests (s : State) : Prop := ∀ r ∈ s.pool.retries, σ.inTurn s.pool r.id →
  r.pause.isSome ∧ s.pool.hasWake r = false ∧ σ.now < s.deadline r.id

variable {σ} {limit : Nat} {s t : State} {m : Move} {ms : List Move}

/-! ## Operations in turn -/

/-- Whose turn it is depends on which operations there are. -/
theorem inTurn_congr {p q : Pool} (same : q.retries.map RetryState.id = p.retries.map RetryState.id)
    (id : Nat) : σ.inTurn q id = σ.inTurn p id := by
  rw [inTurn, inTurn, same]

/-- Who was in turn still is when others have gone. -/
theorem inTurn_remove {p q : Pool} {gone id : Nat}
    (removed : q.retries = removeKey RetryState.id gone p.retries) (ne : id ≠ gone)
    (turn : σ.inTurn p id) : σ.inTurn q id := by
  rw [inTurn, beq_iff_eq, List.find?_map, Option.map_eq_some_iff] at turn ⊢
  obtain ⟨r, found, rfl⟩ := turn
  refine ⟨r, ?_, rfl⟩
  rw [removed, removeKey, List.find?_filter, List.find?_eq_some_iff_append]
  obtain ⟨is, before, rest, eq, others⟩ := List.find?_eq_some_iff_append.mp found
  refine ⟨by simp [ne], before, rest, eq, ?_⟩
  intro x mem
  have other := others x mem
  simp only [Function.comp_apply, Bool.not_eq_true'] at other
  simp [other]

/-- One operation of each connection is in turn. -/
theorem eq_of_inTurn {p : Pool} {x y : Nat} (hx : σ.inTurn p x) (hy : σ.inTurn p y)
    (same : σ.conn x = σ.conn y) : x = y := by
  rw [inTurn, beq_iff_eq] at hx hy
  rw [same] at hx
  exact Option.some.inj (hx.symm.trans hy)

/-! ## What a step does with the operations -/

theorem permits_event (permitted : σ.permits s m) : s.pool.permits (σ.event s m) := by
  cases m with
  | pause id =>
      simp only [permits, Bool.and_eq_true] at permitted
      rw [event]
      split
      · exact permitted.1.2
      · exact permitted.1.2
  | retry id =>
      obtain ⟨r, found, ready⟩ := Pool.retry_of_hasRetry permitted
      show s.pool.hasRetry id (·.pause.isSome)
      rw [Pool.hasRetry, found, Option.any_some]
      exact (Bool.and_eq_true_iff.mp ready).1
  | giveUp id => rfl
  | drop id => rfl
  | other e =>
      rw [permits, Bool.and_eq_true] at permitted
      exact permitted.1

/-- An operation that pauses is in turn, and was awake. -/
theorem pause_permits {id : Nat} (permitted : σ.permits s (.pause id)) : ∃ r,
    s.pool.retry? id = some r ∧ r.pause = none ∧ σ.inTurn s.pool id ∧
      retriesExhausted σ.limit (s.tried id) = false := by
  simp only [permits, Bool.and_eq_true, Bool.not_eq_true'] at permitted
  obtain ⟨⟨turn, has⟩, left⟩ := permitted
  obtain ⟨r, found, awake⟩ := Pool.retry_of_hasRetry has
  exact ⟨r, found, Option.isNone_iff_eq_none.mp awake, turn, left⟩

theorem pause_retries {id : Nat} {r : RetryState} (found : s.pool.retry? id = some r) :
    ∃ pause, (σ.after s (.pause id)).pool.retries =
      replaceKey RetryState.id r.id (fun _ => { r with pause := some pause }) s.pool.retries := by
  simp only [after, event]
  split
  · rw [Pool.after, Pool.withRetry_eq found]
    exact ⟨_, s.pool.pauseParked_retries r _⟩
  · rw [Pool.after, Pool.withRetry_eq found]
    exact ⟨.delayed, rfl⟩

theorem retry_retries {id : Nat} {r : RetryState} (found : s.pool.retry? id = some r) :
    (σ.after s (.retry id)).pool.retries = replaceKey RetryState.id r.id
      (fun _ => { r with owesWake := s.pool.holds r, pause := none }) s.pool.retries := by
  show (s.pool.withRetry id s.pool.resume).retries = _
  rw [Pool.withRetry_eq found, Pool.resume_retries]

theorem other_retries {e : Pool.Event} (permitted : σ.permits s (.other e)) :
    (σ.after s (.other e)).pool.retries = s.pool.retries := by
  rw [permits, Bool.and_eq_true] at permitted
  exact (Pool.after_retries permitted.2).1

/-- The operations stay the same until one ends. -/
theorem ids_after (permitted : σ.permits s m) (goes : m.isEnd = false) :
    (σ.after s m).pool.retries.map RetryState.id = s.pool.retries.map RetryState.id := by
  have replaced : ∀ {r r' : RetryState}, r'.id = r.id →
      (replaceKey RetryState.id r.id (fun _ => r') s.pool.retries).map RetryState.id =
        s.pool.retries.map RetryState.id := by
    intro r r' same
    rw [replaceKey, List.map_map]
    apply List.map_congr_left
    intro a _
    by_cases is : a.id = r.id <;> simp [is, same]
  cases m with
  | pause id =>
      obtain ⟨r, found, -⟩ := pause_permits permitted
      obtain ⟨pause, eq⟩ := pause_retries (σ := σ) found
      rw [eq]
      exact replaced rfl
  | retry id =>
      obtain ⟨r, found, -⟩ := Pool.retry_of_hasRetry permitted
      rw [retry_retries found]
      exact replaced rfl
  | giveUp id => cases goes
  | drop id => cases goes
  | other e => rw [other_retries permitted]

/-- No operation comes. -/
theorem exists_before (permitted : σ.permits s m) {r : RetryState}
    (mem : r ∈ (σ.after s m).pool.retries) : ∃ r' ∈ s.pool.retries, r'.id = r.id := by
  have gone : ∀ id, r ∈ (s.pool.endRetries id).1.retries →
      ∃ r' ∈ s.pool.retries, r'.id = r.id := by
    intro id mem
    rw [Pool.endRetries_retries] at mem
    exact ⟨r, (mem_removeKey.mp mem).1, rfl⟩
  cases goes : m.isEnd with
  | false =>
      have old := List.mem_map_of_mem (f := RetryState.id) mem
      rw [ids_after permitted goes] at old
      exact List.mem_map.mp old
  | true =>
      cases m with
      | giveUp id => exact gone id mem
      | drop id => exact gone id mem
      | _ => cases goes

theorem OneOutside.after (one : σ.OneOutside s.pool) (permitted : σ.permits s m) :
    σ.OneOutside (σ.after s m).pool := by
  intro r hr r' hr' out out'
  obtain ⟨old, mem, same⟩ := exists_before permitted hr
  obtain ⟨old', mem', same'⟩ := exists_before permitted hr'
  rw [← same] at out ⊢
  rw [← same'] at out' ⊢
  exact one old mem old' mem' out out'

theorem Turns.after (turns : σ.Turns s.pool) (permitted : σ.permits s m) :
    σ.Turns (σ.after s m).pool := by
  have ends : ∀ id, σ.Turns (s.pool.endRetries id).1 := by
    intro id r mem paused
    have removed := s.pool.endRetries_retries id
    rw [removed] at mem
    obtain ⟨old, ne⟩ := mem_removeKey.mp mem
    exact inTurn_remove removed ne (turns r old paused)
  intro r mem paused
  cases m with
  | pause id =>
      rw [inTurn_congr (ids_after permitted rfl)]
      obtain ⟨old, found, -, turn, -⟩ := pause_permits permitted
      obtain ⟨pause, eq⟩ := pause_retries (σ := σ) found
      rw [eq] at mem
      rcases mem_replaceKey.mp mem with ⟨mem, -⟩ | ⟨_, _, _, rfl⟩
      · exact turns r mem paused
      · exact (Pool.mem_of_findRetry found).2 ▸ turn
  | retry id =>
      rw [inTurn_congr (ids_after permitted rfl)]
      obtain ⟨old, found, -⟩ := Pool.retry_of_hasRetry permitted
      rw [retry_retries found] at mem
      rcases mem_replaceKey.mp mem with ⟨mem, -⟩ | ⟨_, _, _, rfl⟩
      · exact turns r mem paused
      · cases paused
  | giveUp id => exact ends id r mem paused
  | drop id => exact ends id r mem paused
  | other e =>
      rw [inTurn_congr (ids_after permitted rfl)]
      exact turns r (other_retries permitted ▸ mem) paused

/-! ## The load falls -/

/-- Operations block each other in a pool that came about by steps. -/
structure Ongoing (σ : Standoff) (limit : Nat) (s : State) : Prop where
  /-- The pool came about by steps. -/
  reachable : Pool.Reachable limit s.pool
  /-- Only operations that are in turn have met a lock. -/
  turns : σ.Turns s.pool

theorem Ongoing.after (h : Ongoing σ limit s) (permitted : σ.permits s m) :
    Ongoing σ limit (σ.after s m) where
  reachable := h.reachable.step _ (permits_event permitted)
  turns := h.turns.after permitted

theorem Ongoing.pauses (h : Ongoing σ limit s) : Pool.Pauses s.pool := by
  obtain ⟨_, run⟩ := h.reachable
  exact run.pauses

/-- A retry takes one from the load, and an operation that ends adds at most two. -/
theorem load_after (pos : 0 < σ.delay) (h : Ongoing σ limit s) (one : σ.OneOutside s.pool)
    (permitted : σ.permits s m) :
    m.isRetry.toNat + σ.load (σ.after s m) ≤ σ.load s + 2 * m.isEnd.toNat := by
  have pauses := h.pauses
  cases m with
  | pause id =>
      obtain ⟨r, found, awake, turn, -⟩ := pause_permits permitted
      obtain ⟨mem, rfl⟩ := Pool.mem_of_findRetry found
      -- The pause ends later, and so no time becomes due.
      have early : σ.due (σ.after s (.pause r.id)) r.id = false := by
        show decide ((if r.id = r.id then σ.now + σ.delay else _) ≤ σ.now) = false
        rw [if_pos rfl, decide_eq_false_iff_not]
        omega
      have late : ∀ r' ∈ s.pool.retries, r'.id ≠ r.id →
          σ.due (σ.after s (.pause r.id)) r'.id = σ.due s r'.id := by
        intro r' _ ne
        simp [due, Standoff.after, ne]
      have alone : σ.outside r.id → ∀ r' ∈ s.pool.retries, r'.pause.isSome →
          σ.outside r'.id = false := by
        intro out r' hr' paused
        rw [← Bool.not_eq_true]
        intro out'
        have same := eq_of_inTurn (h.turns r' hr' paused) turn (one r' hr' r mem out' out)
        rw [pauses.retries.eq_of_mem hr' mem same, awake] at paused
        cases paused
      simp only [Move.isRetry, Bool.toNat_false, Nat.zero_add]
      refine Nat.le_add_right_of_le ?_
      have parked := Pool.load_pauseParked_le pauses h.reachable.slots mem awake alone early late
      have delayed := Pool.load_pauseDelayed σ.outside (σ.due s) pauses mem awake early late
      rw [load, load, show (σ.after s (.pause r.id)).pool = s.pool.after (σ.event s (.pause r.id))
        from rfl, event]
      split
      · rw [Pool.after, Pool.withRetry_eq found]
        exact parked
      · rw [Pool.after, Pool.withRetry_eq found]
        exact Nat.le_of_add_right_le (Nat.le_of_eq delayed)
  | retry id =>
      obtain ⟨r, found, ready⟩ := Pool.retry_of_hasRetry permitted
      obtain ⟨mem, rfl⟩ := Pool.mem_of_findRetry found
      have fewer := Pool.load_resume σ.outside (σ.due s) pauses mem ready
      have step : (σ.after s (.retry r.id)).pool = s.pool.resume r := Pool.withRetry_eq found
      rw [load, step]
      simp only [Move.isRetry, Bool.toNat_true]
      exact Nat.le_add_right_of_le (Nat.le_of_eq ((Nat.add_comm _ _).trans fewer))
  | giveUp id =>
      have more := Pool.load_endRetries_le σ.outside (σ.due s) pauses id
      simp only [Move.isRetry, Bool.toNat_false, Nat.zero_add]
      exact more
  | drop id =>
      have more := Pool.load_endRetries_le σ.outside (σ.due s) pauses id
      simp only [Move.isRetry, Bool.toNat_false, Nat.zero_add]
      exact more
  | other e =>
      rw [permits, Bool.and_eq_true] at permitted
      obtain ⟨retries, receivers⟩ := Pool.after_retries permitted.2
      have same := Pool.load_congr σ.outside (σ.due s) retries
        fun r _ => Pool.hasWake_of_receivers receivers r
      simp only [Move.isRetry, Bool.toNat_false, Nat.zero_add]
      exact Nat.le_of_eq same

/-! ## Segments -/

theorem Segment.append {u : State} {ms' : List Move} (h : σ.Segment s ms t)
    (h' : σ.Segment t ms' u) : σ.Segment s (ms ++ ms') u := by
  induction h with
  | nil s => exact h'
  | cons m permitted _ ih => exact .cons m permitted (ih h')

theorem Segment.ongoing (segment : σ.Segment s ms t) (h : Ongoing σ limit s) :
    Ongoing σ limit t := by
  induction segment with
  | nil s => exact h
  | cons m permitted _ ih => exact ih (h.after permitted)

theorem Segment.oneOutside (segment : σ.Segment s ms t) (one : σ.OneOutside s.pool) :
    σ.OneOutside t.pool := by
  induction segment with
  | nil s => exact one
  | cons m permitted _ ih => exact ih (one.after permitted)

theorem retried_cons (m : Move) (ms : List Move) :
    retried (m :: ms) = m.isRetry.toNat + retried ms := by
  rw [retried, List.countP_cons, retried, Nat.add_comm]
  cases m.isRetry <;> rfl

theorem ended_cons (m : Move) (ms : List Move) : ended (m :: ms) = m.isEnd.toNat + ended ms := by
  rw [ended, List.countP_cons, ended, Nat.add_comm]
  cases m.isEnd <;> rfl

/-- The retries of a segment were in the load, or came with operations that ended. -/
theorem Segment.retried_le (pos : 0 < σ.delay) (segment : σ.Segment s ms t)
    (h : Ongoing σ limit s) (one : σ.OneOutside s.pool) :
    retried ms + σ.load t ≤ σ.load s + 2 * ended ms := by
  induction segment with
  | nil s => simp [retried, ended]
  | @cons s t ms m permitted _ ih =>
      have first := load_after pos h one permitted
      have rest := ih (h.after permitted) (one.after permitted)
      rw [retried_cons, ended_cons]
      omega

/-- An operation ends once. -/
theorem length_after (h : Ongoing σ limit s) (permitted : σ.permits s m) :
    (σ.after s m).pool.retries.length + m.isEnd.toNat = s.pool.retries.length := by
  have gone : ∀ {id : Nat} {r : RetryState}, s.pool.retry? id = some r →
      (s.pool.endRetries id).1.retries.length + 1 = s.pool.retries.length := by
    intro id r found
    obtain ⟨mem, rfl⟩ := Pool.mem_of_findRetry found
    obtain ⟨l₁, l₂, eq, -, -, removed⟩ := h.pauses.retries.split mem
    rw [Pool.endRetries_retries, removed, eq]
    simp only [List.length_append, List.length_cons]
    omega
  cases goes : m.isEnd with
  | false =>
      have same := congrArg List.length (ids_after permitted goes)
      simpa using same
  | true =>
      cases m with
      | giveUp id =>
          simp only [permits, Bool.and_eq_true] at permitted
          obtain ⟨r, found, -⟩ := Pool.retry_of_hasRetry permitted.1.2
          exact gone found
      | drop id =>
          obtain ⟨r, found⟩ := Option.isSome_iff_exists.mp permitted
          exact gone found
      | _ => cases goes

theorem Segment.ended_add (segment : σ.Segment s ms t) (h : Ongoing σ limit s) :
    ended ms + t.pool.retries.length = s.pool.retries.length := by
  induction segment with
  | nil s => simp [ended]
  | @cons s t ms m permitted _ ih =>
      have first := length_after h permitted
      have rest := ih (h.after permitted)
      rw [ended_cons]
      omega

/-! ## Coming to rest -/

/-- Some operation can take a step until all wait for the clock. -/
theorem exists_move (h : Ongoing σ limit s) (moves : ¬ σ.Rests s) :
    ∃ m, m.isOwn ∧ σ.permits s m := by
  simp only [Rests, not_forall] at moves
  obtain ⟨r, mem, turn, waits⟩ := moves
  have found : s.pool.retry? r.id = some r := h.pauses.retries.find?_eq mem
  cases pause : r.pause with
  | none =>
      cases left : retriesExhausted σ.limit (s.tried r.id) with
      | false =>
          refine ⟨.pause r.id, rfl, ?_⟩
          simp [permits, turn, Pool.hasRetry, found, pause, left]
      | true =>
          refine ⟨.giveUp r.id, rfl, ?_⟩
          simp [permits, turn, Pool.hasRetry, found, pause, left]
  | some p =>
      refine ⟨.retry r.id, rfl, ?_⟩
      have ends : s.pool.hasWake r ∨ s.deadline r.id ≤ σ.now := by
        by_contra both
        simp only [not_or, Bool.not_eq_true, Nat.not_le] at both
        exact waits ⟨by rw [pause]; rfl, both⟩
      simpa [permits, Pool.hasRetry, found, Pool.isReady, pause, due] using ends

/-- What the operations have to do before they rest. -/
def todo (σ : Standoff) (s : State) : Nat :=
  2 * σ.load s + 4 * s.pool.retries.length + s.pool.retries.countP (·.pause.isNone)

theorem todo_after (pos : 0 < σ.delay) (h : Ongoing σ limit s) (one : σ.OneOutside s.pool)
    (own : m.isOwn) (permitted : σ.permits s m) : σ.todo (σ.after s m) < σ.todo s := by
  have keyed := h.pauses.retries
  rw [todo, todo]
  cases m with
  | pause id =>
      have load : 0 + σ.load (σ.after s (.pause id)) ≤ σ.load s := load_after pos h one permitted
      have length : (σ.after s (.pause id)).pool.retries.length + 0 = s.pool.retries.length :=
        length_after h permitted
      obtain ⟨r, found, awake, -⟩ := pause_permits permitted
      obtain ⟨pause, eq⟩ := pause_retries (σ := σ) found
      have count := countP_replaceKey (f := fun _ => { r with pause := some pause }) keyed
        (Pool.mem_of_findRetry found).1 rfl (·.pause.isNone)
      simp only [← eq, awake, Option.isNone_none, Option.isNone_some, if_true, Bool.false_eq_true,
        if_false] at count
      omega
  | retry id =>
      have load : 1 + σ.load (σ.after s (.retry id)) ≤ σ.load s := load_after pos h one permitted
      have length : (σ.after s (.retry id)).pool.retries.length + 0 = s.pool.retries.length :=
        length_after h permitted
      obtain ⟨r, found, ready⟩ := Pool.retry_of_hasRetry permitted
      have paused : r.pause.isNone = false := by
        rw [Pool.isReady, Bool.and_eq_true] at ready
        rw [Option.isNone_eq_false_iff]
        exact ready.1
      have count := countP_replaceKey
        (f := fun _ => { r with owesWake := s.pool.holds r, pause := none }) keyed
        (Pool.mem_of_findRetry found).1 rfl (·.pause.isNone)
      simp only [← retry_retries (σ := σ) found, paused, Option.isNone_none, if_true,
        Bool.false_eq_true, if_false] at count
      omega
  | giveUp id =>
      have load : 0 + σ.load (σ.after s (.giveUp id)) ≤ σ.load s + 2 :=
        load_after pos h one permitted
      have length : (s.pool.endRetries id).1.retries.length + 1 = s.pool.retries.length :=
        length_after h permitted
      simp only [permits, Bool.and_eq_true] at permitted
      obtain ⟨r, found, awake⟩ := Pool.retry_of_hasRetry permitted.1.2
      obtain ⟨mem, same⟩ := Pool.mem_of_findRetry found
      have count := countP_removeKey keyed mem same (·.pause.isNone)
      rw [← s.pool.endRetries_retries, awake, if_pos rfl] at count
      have step : (σ.after s (.giveUp id)).pool = (s.pool.endRetries id).1 := rfl
      rw [step]
      omega
  | drop id => cases own
  | other e => cases own

/-- By their own steps the operations come to rest. -/
theorem exists_rest (pos : 0 < σ.delay) (h : Ongoing σ limit s) (one : σ.OneOutside s.pool) :
    ∃ ms t, σ.Segment s ms t ∧ (∀ m ∈ ms, m.isOwn) ∧ σ.Rests t := by
  induction n : σ.todo s using Nat.strongRecOn generalizing s with
  | _ n ih =>
      by_cases rests : σ.Rests s
      · exact ⟨[], s, .nil s, by simp, rests⟩
      · obtain ⟨m, own, permitted⟩ := exists_move h rests
        have less := todo_after pos h one own permitted
        obtain ⟨ms, t, segment, all, rests⟩ :=
          ih _ (n ▸ less) (h.after permitted) (one.after permitted) rfl
        exact ⟨m :: ms, t, .cons m permitted segment, List.forall_mem_cons.mpr ⟨own, all⟩, rests⟩

/-! ## Limited retries -/

theorem exhausted_iff {m attempt : Nat} : retriesExhausted (some m) attempt ↔ m ≤ attempt := by
  simp [retriesExhausted]

theorem tried_after_le (σ : Standoff) (s : State) (m : Move) (id : Nat) :
    (σ.after s m).tried id ≤ s.tried id + m.isRetry.toNat := by
  cases m with
  | retry x =>
      show (if id = x then s.tried x + 1 else s.tried id) ≤ s.tried id + 1
      split
      · subst_vars
        exact Nat.le_refl _
      · exact Nat.le_succ _
  | _ => exact Nat.le_refl _

/-- No operation gives up while the load is less than the retries that are left for it. -/
theorem Segment.keepsBudget (pos : 0 < σ.delay) {n : Nat} (limited : σ.limit = some n)
    (segment : σ.Segment s ms t) (h : Ongoing σ limit s) (one : σ.OneOutside s.pool)
    (few : ∀ id, s.tried id + σ.load s < n) (kept : ∀ m ∈ ms, m.isDropped = false) :
    ∀ m ∈ ms, m.isGivenUp = false := by
  induction segment with
  | nil s => simp
  | @cons s t ms m permitted _ ih =>
      have load := load_after pos h one permitted
      obtain ⟨kept, others⟩ := List.forall_mem_cons.mp kept
      have stays : m.isGivenUp = false := by
        cases m with
        | giveUp id =>
            simp only [permits, Bool.and_eq_true, limited, exhausted_iff] at permitted
            have := few id
            omega
        | _ => rfl
      rw [Move.isEnd, stays, kept, Bool.or_false, Bool.toNat_false] at load
      refine List.forall_mem_cons.mpr ⟨stays, ?_⟩
      refine ih (h.after permitted) (one.after permitted) ?_ others
      intro id
      have left := few id
      have more := tried_after_le σ s m id
      omega

end Standoff

end ConnectionPool
