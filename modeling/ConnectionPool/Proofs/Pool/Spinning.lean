import ConnectionPool.Proofs.Pool.Standoff

/-!
# Operations that wake each other

Two operations in autocommit mode that wait for nobody else wake each other: one parks
and wakes the other, which is tried again, parks and wakes the first.  `Faces` is the
state between two such turns, and `Faces.round` is one turn.  While the clock stands
still they take as many turns as one likes, and use up any number of retries.

`settles_iff_oneOutside` says that this is all that keeps operations from coming to rest.
-/

namespace ConnectionPool

/-! ## Parking behind one lock retry -/

namespace Pool

variable {p : Pool}

theorem sweep_one {ticket : Nat} (one : p.entry.waiters = [⟨ticket, .retry, true⟩]) :
    p.sweep.entry.waiters = [⟨ticket, .retry, true⟩] := by
  show p.entry.waiters.filter (·.live) = _
  rw [one]
  rfl

theorem wake_nobody (nobody : p.entry.waiters = []) :
    p.wake.1 = p.withWaiters [] p.entry.inUse := by
  rw [wake, Entry.service, nobody]
  rfl

theorem wake_one {ticket : Nat} (one : p.entry.waiters = [⟨ticket, .retry, true⟩]) :
    p.wake.1 = (p.withWaiters [] p.entry.inUse).sendWake ticket := by
  rw [wake, Entry.service, one]
  rfl

/-- Who parks where nobody waits, or in autocommit mode behind one lock retry, is then the
only one that waits. -/
theorem pauseParked_front (p : Pool) (r : RetryState) (autocommit : Bool)
    (few : p.sweep.entry.waiters = [] ∨
      autocommit ∧ ∃ t, p.sweep.entry.waiters = [⟨t, .retry, true⟩]) :
    (p.pauseParked r autocommit).1.entry.waiters = [⟨p.fresh, .retry, true⟩] ∧
      (p.pauseParked r autocommit).1.entry.openConnections = p.entry.openConnections := by
  rw [pauseParked_eq]
  rcases few with nobody | ⟨rfl, t, one⟩
  · cases p.passesOn autocommit r.owesWake with
    | true =>
        rw [if_pos rfl, wake_nobody nobody]
        exact ⟨rfl, rfl⟩
    | false =>
        rw [if_neg Bool.false_ne_true]
        refine ⟨?_, rfl⟩
        show p.sweep.entry.waiters ++ [⟨p.fresh, .retry, true⟩] = _
        rw [nobody]
        rfl
  · rw [show p.passesOn true r.owesWake = true from rfl, if_pos rfl, wake_one one]
    exact ⟨rfl, rfl⟩

/-- The lock retry is woken. -/
theorem isWoken_pauseParked {r : RetryState} {t : Nat} (h : Pauses p)
    (one : p.sweep.entry.waiters = [⟨t, .retry, true⟩]) (there : ∃ c ∈ p.receivers, c.ticket = t) :
    (p.pauseParked r true).1.isWoken t := by
  obtain ⟨c, mem, rfl⟩ := there
  rw [pauseParked_eq, show p.passesOn true r.owesWake = true from rfl, if_pos rfl, wake_one one]
  have woken := isWoken_sendWake (p.sweep.withWaiters [] p.sweep.entry.inUse) ⟨c, mem, rfl⟩
  have joined := isWoken_joinQueue ((p.sweep.withWaiters [] p.sweep.entry.inUse).sendWake c.ticket)
    (h.receiver_lt c mem)
  exact joined.trans woken

/-- Somebody whose pause is over leaves those that wait with other tickets. -/
theorem resume_waiters {r : RetryState} {t u : Nat} {owed : Bool}
    (pause : r.pause = some (.parked t owed)) (one : p.entry.waiters = [⟨u, .retry, true⟩])
    (ne : u ≠ t) : (p.resume r).entry.waiters = [⟨u, .retry, true⟩] ∧
      (p.resume r).entry.openConnections = p.entry.openConnections := by
  simp [resume, pause, dropReceiver, setRetry, Entry.abandon, Entry.openConnections, one, ne]

end Pool

namespace Standoff

variable {σ : Standoff} {limit : Nat} {s t : State} {m : Move} {ms : List Move}

/-! ## Waking each other -/

/-- One operation is awake and may wake another, which waits with nobody before it. -/
structure Faces (σ : Standoff) (limit : Nat) (s : State) (x y : Nat) : Prop where
  /-- The pool came about by steps. -/
  ongoing : Ongoing σ limit s
  /-- There are two operations. -/
  ne : x ≠ y
  /-- It is the turn of the first. -/
  turn : σ.inTurn s.pool x
  /-- It is the turn of the second. -/
  turn' : σ.inTurn s.pool y
  /-- Lock retries queue. -/
  queued : 1 < s.pool.entry.openConnections
  /-- The first is awake. -/
  awake : ∃ r, s.pool.retry? x = some r ∧ r.pause = none
  /-- The second waits, and nobody else does. -/
  waits : ∃ r t owed, s.pool.retry? y = some r ∧ r.pause = some (.parked t owed) ∧
    s.pool.entry.waiters = [⟨t, .retry, true⟩]
  /-- The second may be tried again. -/
  left : retriesExhausted σ.limit (s.tried y) = false

/-- An operation that met a lock may park. -/
theorem parks {x : Nat} {r : RetryState} (turn : σ.inTurn s.pool x)
    (queued : 1 < s.pool.entry.openConnections) (found : s.pool.retry? x = some r)
    (awake : r.pause = none) (left : retriesExhausted σ.limit (s.tried x) = false) :
    σ.permits s (.pause x) ∧
      (σ.after s (.pause x)).pool = (s.pool.pauseParked r (σ.outside x)).1 := by
  constructor
  · simp [permits, turn, Pool.hasRetry, found, awake, left]
  · show s.pool.after (σ.event s (.pause x)) = _
    rw [event, RetryStrategy.forOpenConnections, if_pos queued]
    exact Pool.withRetry_eq found

/-- An operation parks where nobody waits, and so faces any other that is awake. -/
theorem exists_faces {x y : Nat} {r r' : RetryState} (h : Ongoing σ limit s)
    (ne : x ≠ y) (turn : σ.inTurn s.pool x) (turn' : σ.inTurn s.pool y)
    (queued : 1 < s.pool.entry.openConnections)
    (found : s.pool.retry? x = some r) (awake : r.pause = none)
    (found' : s.pool.retry? y = some r') (awake' : r'.pause = none)
    (left : retriesExhausted σ.limit (s.tried y) = false)
    (nobody : s.pool.sweep.entry.waiters = []) :
    σ.permits s (.pause y) ∧ Faces σ limit (σ.after s (.pause y)) x y := by
  obtain ⟨permitted, step⟩ := parks turn' queued found' awake' left
  obtain ⟨mem, rfl⟩ := Pool.mem_of_findRetry found
  obtain ⟨mem', rfl⟩ := Pool.mem_of_findRetry found'
  obtain ⟨waiters, connections⟩ :=
    s.pool.pauseParked_front r' (σ.outside r'.id) (.inl nobody)
  have after := h.after permitted
  have retries := s.pool.pauseParked_retries r' (σ.outside r'.id)
  rw [← step] at retries
  obtain ⟨parked, others⟩ := Pool.find_replaced after.pauses.retries mem' retries rfl
  refine ⟨permitted, ?_⟩
  exact {
    ongoing := after
    ne
    turn := (inTurn_congr (ids_after permitted rfl) _).trans turn
    turn' := (inTurn_congr (ids_after permitted rfl) _).trans turn'
    queued := by rw [step, connections]; exact queued
    awake := ⟨r, others r mem ne, awake⟩
    waits := ⟨_, _, _, parked, rfl, step ▸ waiters⟩
    left }

/-- In autocommit mode the awake one parks and so wakes the other. -/
theorem Faces.round {x y : Nat} (h : Faces σ limit s x y) (out : σ.outside x)
    (left : retriesExhausted σ.limit (s.tried x) = false) :
    ∃ t, σ.Segment s [.pause x, .retry y] t ∧ Faces σ limit t y x ∧
      t.tried x = s.tried x ∧ t.tried y = s.tried y + 1 := by
  obtain ⟨r, found, awake⟩ := h.awake
  obtain ⟨r', ticket, owed, found', pause, one⟩ := h.waits
  obtain ⟨permitted, step⟩ := parks h.turn h.queued found awake left
  rw [out] at step
  obtain ⟨mem, rfl⟩ := Pool.mem_of_findRetry found
  obtain ⟨mem', rfl⟩ := Pool.mem_of_findRetry found'
  have pauses := h.ongoing.pauses
  have swept := Pool.sweep_one one
  obtain ⟨waiters, connections⟩ := s.pool.pauseParked_front r true (.inr ⟨rfl, ticket, swept⟩)
  -- The first waits now, and the second was woken.
  let u := σ.after s (.pause r.id)
  have ongoing : Ongoing σ limit u := h.ongoing.after permitted
  have retries := s.pool.pauseParked_retries r true
  rw [← step] at retries
  obtain ⟨parked, others⟩ := Pool.find_replaced ongoing.pauses.retries mem retries rfl
  have found_u : u.pool.retry? r'.id = some r' := others r' mem' h.ne.symm
  have waits : r'.ticket? = some ticket := by rw [RetryState.ticket?, pause]
  have there := pauses.received r' mem' ticket waits
  have woken : u.pool.isWoken ticket := step ▸ Pool.isWoken_pauseParked pauses swept there
  have permitted' : σ.permits u (.retry r'.id) := by
    simp [permits, Pool.hasRetry, found_u, Pool.isReady, Pool.hasWake_eq, waits, woken, pause]
  -- The second is awake again.
  let t := σ.after u (.retry r'.id)
  have step' : t.pool = u.pool.resume r' := Pool.withRetry_eq found_u
  have ongoing' : Ongoing σ limit t := ongoing.after permitted'
  obtain ⟨mem_u, -⟩ := Pool.mem_of_findRetry found_u
  have retries' := u.pool.resume_retries r'
  rw [← step'] at retries'
  obtain ⟨awakened, others'⟩ := Pool.find_replaced ongoing'.pauses.retries mem_u retries' rfl
  have parked' := others' _ (Pool.mem_of_findRetry parked).1 h.ne
  have lt : ticket < s.pool.fresh := pauses.ticket_lt mem' waits
  obtain ⟨waiters', connections'⟩ := Pool.resume_waiters pause (step ▸ waiters) (Nat.ne_of_gt lt)
  have same : ∀ id, σ.inTurn t.pool id = σ.inTurn s.pool id := fun id =>
    (inTurn_congr (ids_after permitted' rfl) id).trans (inTurn_congr (ids_after permitted rfl) id)
  have tried : t.tried r.id = s.tried r.id := if_neg h.ne
  refine ⟨t, .cons _ permitted (.cons _ permitted' (.nil t)), ?_, tried, if_pos rfl⟩
  exact {
    ongoing := ongoing'
    ne := h.ne.symm
    turn := (same _).trans h.turn'
    turn' := (same _).trans h.turn
    queued := by
      rw [step', connections', step, connections]
      exact h.queued
    awake := ⟨_, awakened, rfl⟩
    waits := ⟨_, _, _, parked', rfl, step' ▸ waiters'⟩
    left := tried ▸ left }

/-- Two operations in autocommit mode never stop if nothing limits them. -/
theorem Faces.unbounded (unlimited : σ.limit = none) (n : Nat) {x y : Nat}
    (h : Faces σ limit s x y) (out : σ.outside x) (out' : σ.outside y) :
    ∃ ms t, σ.Segment s ms t ∧ n ≤ retried ms := by
  induction n generalizing s x y with
  | zero => exact ⟨[], s, .nil s, Nat.zero_le _⟩
  | succ n ih =>
      obtain ⟨u, round, faces, -⟩ := h.round out (by rw [unlimited]; rfl)
      obtain ⟨ms, t, segment, le⟩ := ih faces out' out
      refine ⟨_, t, round.append segment, ?_⟩
      rw [retried, List.countP_append]
      exact Nat.succ_le_of_lt (Nat.lt_of_le_of_lt le (Nat.lt_add_of_pos_left Nat.zero_lt_one))

/-- An operation that is awake and was tried as often as it may be gives up. -/
theorem Faces.givesUp {x y : Nat} (h : Faces σ limit s x y)
    (none : retriesExhausted σ.limit (s.tried x)) :
    σ.Segment s [.giveUp x] (σ.after s (.giveUp x)) := by
  obtain ⟨r, found, awake⟩ := h.awake
  have permitted : σ.permits s (.giveUp x) := by
    simp [permits, h.turn, Pool.hasRetry, found, awake, none]
  exact .cons _ permitted (.nil _)

/-- Two operations in autocommit mode use any limit up. -/
theorem Faces.exhausts {n : Nat} (limited : σ.limit = some n) {x y : Nat}
    (h : Faces σ limit s x y) (out : σ.outside x) (out' : σ.outside y) :
    ∃ ms t, σ.Segment s ms t ∧ (∀ m ∈ ms, m.isDropped = false) ∧ ∃ m ∈ ms, m.isGivenUp := by
  induction k : (n - s.tried x) + (n - s.tried y) using Nat.strongRecOn generalizing s x y with
  | _ k ih =>
      cases left : retriesExhausted σ.limit (s.tried x) with
      | true =>
          exact ⟨[.giveUp x], _, h.givesUp left, by simp [Move.isDropped], by simp [Move.isGivenUp]⟩
      | false =>
          obtain ⟨u, round, faces, triedX, triedY⟩ := h.round out left
          have more : s.tried y < n := by
            rw [← Nat.not_le, ← exhausted_iff, ← limited, h.left]
            exact Bool.false_ne_true
          obtain ⟨ms, t, segment, kept, gaveUp⟩ := ih _ (by omega) faces out' out rfl
          refine ⟨_, t, round.append segment, ?_, ?_⟩
          · simp only [List.cons_append, List.nil_append, List.forall_mem_cons]
            exact ⟨rfl, rfl, kept⟩
          · obtain ⟨m, mem, is⟩ := gaveUp
            exact ⟨m, List.mem_append_right _ mem, is⟩

/-! ## When a standoff settles -/

/-- What a standoff is that comes to rest. -/
structure Settles (σ : Standoff) (s : State) : Prop where
  /-- The retries are bounded by the load, and two more for each operation that ends. -/
  retried_le : ∀ ms t, σ.Segment s ms t → retried ms ≤ σ.load s + 2 * ended ms
  /-- An operation ends once. -/
  ended_add : ∀ ms t, σ.Segment s ms t → ended ms + t.pool.retries.length = s.pool.retries.length
  /-- At any time the operations, by their own steps, come to a state where each that is in
  turn waits for the clock. -/
  rests : ∀ ms t, σ.Segment s ms t →
    ∃ ms' t', σ.Segment t ms' t' ∧ (∀ m ∈ ms', m.isOwn) ∧ σ.Rests t'
  /-- Operations that may be tried more often than the load says do not give up. -/
  keeps : ∀ n, σ.limit = some n → (∀ id, s.tried id + σ.load s < n) →
    ∀ ms t, σ.Segment s ms t → (∀ m ∈ ms, m.isDropped = false) → ∀ m ∈ ms, m.isGivenUp = false

/-- The moment when one operation on each of several connections has met a lock, and
nobody waits. -/
structure Crowded (σ : Standoff) (s : State) : Prop where
  /-- No operation pauses. -/
  awake : ∀ r ∈ s.pool.retries, r.pause = none
  /-- None was tried again. -/
  untried : ∀ id, s.tried id = 0
  /-- They have different connections. -/
  apart : ∀ r ∈ s.pool.retries, ∀ r' ∈ s.pool.retries, σ.conn r.id = σ.conn r'.id → r = r'
  /-- Nobody waits. -/
  nobody : ∀ w ∈ s.pool.entry.waiters, w.live = false
  /-- Lock retries queue. -/
  queued : 1 < s.pool.entry.openConnections

/-- The retries have a bound. -/
def Bounded (σ : Standoff) (s : State) : Prop := ∃ n, ∀ ms t, σ.Segment s ms t → retried ms ≤ n

/-- No operation uses its retries up, unless one is cancelled. -/
def KeepsBudget (σ : Standoff) (s : State) : Prop := ∀ ms t, σ.Segment s ms t →
  (∀ m ∈ ms, m.isDropped = false) → ∀ m ∈ ms, m.isGivenUp = false

theorem settles (pos : 0 < σ.delay) (h : Ongoing σ limit s) (one : σ.OneOutside s.pool) :
    Settles σ s where
  retried_le := fun _ _ segment => Nat.le_of_add_right_le (segment.retried_le pos h one)
  ended_add := fun _ _ segment => segment.ended_add h
  rests := fun _ _ segment => exists_rest pos (segment.ongoing h) (segment.oneOutside one)
  keeps := fun _ limited few _ _ segment kept => segment.keepsBudget pos limited h one few kept

theorem Crowded.turns (crowded : Crowded σ s) : σ.Turns s.pool := by
  intro r mem paused
  rw [crowded.awake r mem] at paused
  cases paused

theorem Crowded.inTurn (crowded : Crowded σ s) {r : RetryState} (mem : r ∈ s.pool.retries) :
    σ.inTurn s.pool r.id := by
  rw [Standoff.inTurn, beq_iff_eq, List.find?_map, Option.map_eq_some_iff]
  cases found : s.pool.retries.find? ((σ.conn · == σ.conn r.id) ∘ RetryState.id) with
  | none => simpa using List.find?_eq_none.mp found r mem
  | some r' =>
      have same : σ.conn r'.id = σ.conn r.id := by simpa using List.find?_some found
      exact ⟨r', rfl, congrArg RetryState.id
        (crowded.apart r' (List.mem_of_find?_eq_some found) r mem same)⟩

/-- Each operation in autocommit mode is to wake somebody. -/
theorem Crowded.load_eq (crowded : Crowded σ s) :
    σ.load s = s.pool.retries.countP fun r => σ.outside r.id := by
  have awake := crowded.awake
  rw [load, Pool.load]
  generalize s.pool.retries = l at awake
  induction l with
  | nil => rfl
  | cons r l ih =>
      obtain ⟨this, others⟩ := List.forall_mem_cons.mp awake
      rw [List.map_cons, List.sum_cons, ih others, List.countP_cons, Pool.weight_awake this]
      cases σ.outside r.id <;> simp [Nat.add_comm]

theorem Crowded.load_le (crowded : Crowded σ s) (h : Ongoing σ limit s)
    (one : σ.OneOutside s.pool) : σ.load s ≤ 1 := by
  rw [crowded.load_eq, List.countP_eq_length_filter]
  have nodup : (s.pool.retries.filter fun r => σ.outside r.id).Nodup :=
    (List.Nodup.of_map _ h.pauses.retries).filter _
  have all : ∀ r ∈ s.pool.retries.filter (fun r => σ.outside r.id),
      ∀ r' ∈ s.pool.retries.filter (fun r => σ.outside r.id), r = r' := by
    intro r hr r' hr'
    obtain ⟨mem, out⟩ := List.mem_filter.mp hr
    obtain ⟨mem', out'⟩ := List.mem_filter.mp hr'
    exact crowded.apart r mem r' mem' (one r mem r' mem' out out')
  generalize s.pool.retries.filter (fun r => σ.outside r.id) = l at nodup all
  match l with
  | [] => exact Nat.zero_le 1
  | [_] => exact Nat.le_refl 1
  | r :: r' :: _ =>
      have same := all r List.mem_cons_self r' (List.mem_cons_of_mem _ List.mem_cons_self)
      exact absurd (same ▸ List.mem_cons_self) (List.nodup_cons.mp nodup).1

/-- One of two operations parks, and the other faces it. -/
theorem Crowded.faces (crowded : Crowded σ s) (h : Ongoing σ limit s) {r r' : RetryState}
    (mem : r ∈ s.pool.retries) (mem' : r' ∈ s.pool.retries) (ne : r.id ≠ r'.id)
    (left : retriesExhausted σ.limit 0 = false) :
    σ.permits s (.pause r'.id) ∧ Faces σ limit (σ.after s (.pause r'.id)) r.id r'.id := by
  have nobody : s.pool.sweep.entry.waiters = [] := by
    show s.pool.entry.waiters.filter (·.live) = []
    rw [List.filter_eq_nil_iff]
    intro w hw
    rw [crowded.nobody w hw]
    exact Bool.false_ne_true
  exact exists_faces h ne (crowded.inTurn mem) (crowded.inTurn mem')
    crowded.queued (h.pauses.retries.find?_eq mem) (crowded.awake r mem)
    (h.pauses.retries.find?_eq mem') (crowded.awake r' mem') (crowded.untried r'.id ▸ left) nobody

/-- With two connections in autocommit mode two operations begin to wake each other. -/
theorem Crowded.spins (crowded : Crowded σ s) (h : Ongoing σ limit s)
    (several : ¬ σ.OneOutside s.pool) (left : retriesExhausted σ.limit 0 = false) :
    ∃ x y, σ.permits s (.pause y) ∧ Faces σ limit (σ.after s (.pause y)) x y ∧
      σ.outside x ∧ σ.outside y := by
  simp only [OneOutside, not_forall] at several
  obtain ⟨r, mem, r', mem', out, out', ne⟩ := several
  obtain ⟨permitted, faces⟩ := crowded.faces h mem mem' (fun same => ne (congrArg σ.conn same)) left
  exact ⟨r.id, r'.id, permitted, faces, out, out'⟩

/-- Unlimited retries are bounded. -/
theorem Crowded.bounded_iff (crowded : Crowded σ s) (h : Ongoing σ limit s) (pos : 0 < σ.delay)
    (unlimited : σ.limit = none) : Bounded σ s ↔ σ.OneOutside s.pool := by
  constructor
  · rintro ⟨n, bound⟩
    by_contra several
    obtain ⟨x, y, permitted, faces, out, out'⟩ := crowded.spins h several (by rw [unlimited]; rfl)
    obtain ⟨ms, t, segment, more⟩ := faces.unbounded unlimited (n + 1) out out'
    have le := bound _ t (.cons _ permitted segment)
    rw [retried_cons] at le
    omega
  · intro one
    have settled := settles pos h one
    refine ⟨σ.load s + 2 * s.pool.retries.length, fun ms t segment => ?_⟩
    have le := settled.retried_le ms t segment
    have once := settled.ended_add ms t segment
    omega

/-- Two or more retries are not used up. -/
theorem Crowded.keepsBudget_iff (crowded : Crowded σ s) (h : Ongoing σ limit s) (pos : 0 < σ.delay)
    {n : Nat} (le : 2 ≤ n) (limited : σ.limit = some n) :
    KeepsBudget σ s ↔ σ.OneOutside s.pool := by
  constructor
  · intro keeps
    by_contra several
    have left : retriesExhausted σ.limit 0 = false := by
      rw [limited, ← Bool.not_eq_true, exhausted_iff]
      omega
    obtain ⟨x, y, permitted, faces, out, out'⟩ := crowded.spins h several left
    obtain ⟨ms, t, segment, kept, m, mem, gaveUp⟩ := faces.exhausts limited out out'
    have none := keeps _ t (.cons _ permitted segment) (List.forall_mem_cons.mpr ⟨rfl, kept⟩) m
      (List.mem_cons_of_mem _ mem)
    rw [gaveUp] at none
    cases none
  · intro one
    have few : ∀ id, s.tried id + σ.load s < n := by
      intro id
      have load := crowded.load_le h one
      rw [crowded.untried]
      omega
    exact (settles pos h one).keeps n limited few

/-- A single retry is used up by the wake of one connection in autocommit mode. -/
theorem Crowded.keepsBudget_one_iff (crowded : Crowded σ s) (h : Ongoing σ limit s)
    (pos : 0 < σ.delay) (limited : σ.limit = some 1) (several : 2 ≤ s.pool.retries.length) :
    KeepsBudget σ s ↔ ∀ r ∈ s.pool.retries, σ.outside r.id = false := by
  constructor
  · intro keeps r mem
    rw [← Bool.not_eq_true]
    intro out
    obtain ⟨r', mem', ne⟩ : ∃ r' ∈ s.pool.retries, r.id ≠ r'.id := by
      by_contra all
      simp only [not_exists, not_and, not_not] at all
      obtain ⟨l₁, l₂, eq, others, -, -⟩ := h.pauses.retries.split mem
      have none : l₁ ++ l₂ = [] := List.eq_nil_iff_forall_not_mem.mpr fun r' hr' =>
        (others r' hr').2 (all r' (others r' hr').1).symm
      obtain ⟨rfl, rfl⟩ := List.append_eq_nil_iff.mp none
      rw [eq, List.nil_append, List.length_singleton] at several
      exact Nat.not_succ_le_self 1 several
    obtain ⟨permitted, faces⟩ := crowded.faces h mem mem' ne (by rw [limited]; rfl)
    obtain ⟨t, round, faces', -, tried⟩ := faces.round out (by
      show retriesExhausted σ.limit (s.tried r.id) = false
      rw [crowded.untried, limited]
      rfl)
    have spent : retriesExhausted σ.limit (t.tried r'.id) := by
      rw [tried, limited, exhausted_iff]
      exact Nat.le_add_left 1 _
    have none := keeps _ _ (.cons _ permitted (round.append (faces'.givesUp spent)))
      (by simp [Move.isDropped]) (.giveUp r'.id) (by simp)
    cases none
  · intro inside
    have one : σ.OneOutside s.pool := fun r mem _ _ out => absurd out (by simp [inside r mem])
    have load : σ.load s = 0 := by
      rw [crowded.load_eq, List.countP_eq_zero]
      intro r mem
      rw [inside r mem]
      exact Bool.false_ne_true
    refine (settles pos h one).keeps 1 limited fun id => ?_
    rw [crowded.untried, load]
    exact Nat.one_pos

/-- Operations that block each other settle if at most one of their connections is in
autocommit mode.  From the moment when they have met the lock that is also necessary, both
for a bound on unlimited retries and for two or more retries not to be used up while the
clock stands still.  A single retry is used up as soon as one connection is in autocommit
mode, since it wakes somebody once. -/
theorem settles_iff_oneOutside (h : Ongoing σ limit s) (pos : 0 < σ.delay) :
    (σ.OneOutside s.pool → Settles σ s) ∧
    (Crowded σ s →
      (σ.limit = none → (Bounded σ s ↔ σ.OneOutside s.pool)) ∧
      (∀ n, 2 ≤ n → σ.limit = some n → (KeepsBudget σ s ↔ σ.OneOutside s.pool)) ∧
      (σ.limit = some 1 → 2 ≤ s.pool.retries.length →
        (KeepsBudget σ s ↔ ∀ r ∈ s.pool.retries, σ.outside r.id = false))) :=
  ⟨settles pos h, fun crowded =>
    ⟨crowded.bounded_iff h pos, fun _ le limited => crowded.keepsBudget_iff h pos le limited,
      crowded.keepsBudget_one_iff h pos⟩⟩

/-! ## Two operations -/

/-- Two operations on two primary connections. -/
def twoOperations : State where
  pool :=
    { entry := { limit := 5, primaries := 2 }, retries := [{ id := 0 }, { id := 1 }], fresh := 2 }

/-- They have a connection each. -/
def ofTwo (limit : Option Nat) (autocommit : Nat → Bool) : Standoff where
  delay := 50
  limit
  now := 0
  conn := id
  autocommit

theorem twoOperations_reachable : Pool.Reachable 5 twoOperations.pool := by
  have opened := ((Pool.Reachable.new 5).step .beginOpen rfl).step (.endOpen true) rfl
  have both := (opened.step .beginOpen rfl).step (.endOpen true) rfl
  exact (both.step .beginRetries rfl).step .beginRetries rfl

theorem twoOperations_crowded (limit : Option Nat) (autocommit : Nat → Bool) :
    Crowded (ofTwo limit autocommit) twoOperations where
  awake := by simp [twoOperations]
  untried := fun _ => rfl
  apart := by simp [twoOperations, ofTwo]
  nobody := by simp [twoOperations]
  queued := by decide

theorem twoOperations_ongoing (limit : Option Nat) (autocommit : Nat → Bool) :
    Ongoing (ofTwo limit autocommit) 5 twoOperations where
  reachable := twoOperations_reachable
  turns := (twoOperations_crowded limit autocommit).turns

/-- One of the two is inside a transaction. -/
theorem settles_iff_oneOutside_transaction :
    (∀ limit, Ongoing (ofTwo limit (· == 1)) 5 twoOperations ∧
      Settles (ofTwo limit (· == 1)) twoOperations) ∧
    Bounded (ofTwo none (· == 1)) twoOperations ∧
    KeepsBudget (ofTwo (some 2) (· == 1)) twoOperations ∧
    ¬ KeepsBudget (ofTwo (some 1) (· == 1)) twoOperations := by
  have one : ∀ limit, (ofTwo limit (· == 1)).OneOutside twoOperations.pool := by
    intro limit
    simp [OneOutside, twoOperations, outside, ofTwo]
  have pos : ∀ limit, 0 < (ofTwo limit (· == 1)).delay := fun _ => Nat.succ_pos 49
  have ongoing := fun limit => twoOperations_ongoing limit (· == 1)
  have crowded := fun limit => twoOperations_crowded limit (· == 1)
  refine ⟨fun limit => ⟨ongoing limit, ?_⟩, ?_, ?_, ?_⟩
  · exact (settles_iff_oneOutside (ongoing limit) (pos limit)).1 (one limit)
  · have facts := (settles_iff_oneOutside (ongoing none) (pos none)).2 (crowded none)
    exact (facts.1 rfl).mpr (one none)
  · have facts := (settles_iff_oneOutside (ongoing (some 2)) (pos _)).2 (crowded (some 2))
    exact (facts.2.1 2 (Nat.le_refl 2) rfl).mpr (one (some 2))
  · have facts := (settles_iff_oneOutside (ongoing (some 1)) (pos _)).2 (crowded (some 1))
    rw [facts.2.2 rfl (Nat.le_refl 2)]
    simp [twoOperations, outside, ofTwo]

/-- Two operations in autocommit mode use up three retries each while the clock stands
still, and would go on forever. -/
theorem spins_twoOperations : Pool.Reachable 5 twoOperations.pool ∧
    (∃ t, (ofTwo (some 3) fun _ => true).Segment twoOperations
      [.pause 0, .pause 1, .retry 0, .pause 0, .retry 1, .pause 1, .retry 0, .pause 0, .retry 1,
        .pause 1, .retry 0, .giveUp 0, .retry 1, .giveUp 1] t ∧ t.pool.retries = []) ∧
    ∀ n, ∃ ms t, (ofTwo none fun _ => true).Segment twoOperations ms t ∧ n ≤ retried ms := by
  refine ⟨twoOperations_reachable, ?_, fun n => ?_⟩
  · exact ⟨_, .cons _ rfl <| .cons _ rfl <| .cons _ rfl <| .cons _ rfl <| .cons _ rfl <|
      .cons _ rfl <| .cons _ rfl <| .cons _ rfl <| .cons _ rfl <| .cons _ rfl <| .cons _ rfl <|
      .cons _ rfl <| .cons _ rfl <| .cons _ rfl <| .nil _, rfl⟩
  · have first : ({ id := 0 } : RetryState) ∈ twoOperations.pool.retries := List.mem_cons_self
    have second : ({ id := 1 } : RetryState) ∈ twoOperations.pool.retries :=
      List.mem_cons_of_mem _ List.mem_cons_self
    obtain ⟨permitted, faces⟩ := (twoOperations_crowded none fun _ => true).faces
      (twoOperations_ongoing none _) first second (by decide) rfl
    obtain ⟨ms, t, segment, le⟩ := faces.unbounded rfl n rfl rfl
    exact ⟨_, t, .cons _ permitted segment, by rw [retried_cons]; exact Nat.le_add_left_of_le le⟩

end Standoff

end ConnectionPool
