import ConnectionPool.Proofs.Queue.Serial

/-!
# Queues come to rest

A queue that is left alone serves what it has: what is in flight returns, and what waits is
served in turn, whatever the operations before it returned.  A queue that closes cancels what
waits.  `Service.remaining` lists what is still to happen, and it happens.

With this, `Serial` says all that a queue guarantees.
-/

namespace ConnectionPool

namespace WorkQueue

namespace Service

variable {α ρ : Type} (results : Nat → Except ConnectionError ρ)

/-- An operation returns a result. -/
def returns (i : WorkItem α) (r : Except ConnectionError ρ) : List (Mark α ρ) :=
  [.returned i.id r, .ended i.id (i.ending r)]

/-- An operation that waits has its turn. -/
def served (i : WorkItem α) : List (Mark α ρ) :=
  if i.isGivenUp then [.ended i.id .skipped]
  else .started i.id i.work :: returns i (results i.id)

/-- What is in flight returns.  While it waits for a lock, it is cancelled if the connection
closes, and goes on otherwise. -/
def lastOf (s : Service α ρ) : List (Mark α ρ) :=
  match s.queue.current with
  | none => []
  | some i =>
    if s.pause.isNone then returns i (results i.id)
    else if s.queue.closing then returns i (.error .cancelled)
    else .resumed i.id :: returns i (results i.id)

/-- What is still to happen, given what the operations will return. -/
def remaining (s : Service α ρ) : List (Mark α ρ) :=
  s.lastOf results ++
    if s.queue.closing then s.queue.pending.map fun i => .ended i.id .cancelled
    else s.queue.pending.flatMap (served results)

variable {s : Service α ρ}

theorem free_of_current (idle : s.queue.current = none) (awake : s.pause = none) : s.free = s := by
  obtain ⟨⟨pending, current, closing, ended, taken⟩, pause, history, fresh⟩ := s
  obtain rfl : current = none := idle
  obtain rfl : pause = none := awake
  rfl

/-! ## What is in flight -/

/-- What is in flight may return whatever it returns, also while the queue closes. -/
theorem Steps.returns {i : WorkItem α} (current : s.queue.current = some i)
    (awake : s.pause = none) (r : Except ConnectionError ρ) :
    Steps s (s.free.note (returns i r)) := by
  have step : Steps s (s.after (.finish r)) :=
    .tail _ .refl (by rw [permits, current, awake]; rfl)
  rwa [after, Service.finish, withCurrent, current] at step

theorem Steps.resumes {i : WorkItem α} (current : s.queue.current = some i)
    (paused : s.pause.isSome) : Steps s ({ s with pause := none }.note [.resumed i.id]) := by
  have passed : Steps s { s with pause := some true } := by
    obtain ⟨isOver, pause⟩ := Option.isSome_iff_exists.mp paused
    cases isOver with
    | true => exact pause ▸ .refl
    | false => exact .tail .endPause .refl (by rw [permits, pause]; rfl)
  have look : ({ s with pause := some true } : Service α ρ).after .look =
      { s with pause := none }.note [.resumed i.id] := by
    rw [after, show ((some true : Option Bool) == some true) = true from rfl, Service.look,
      PauseState.of, if_pos rfl]
    simp only [withCurrent, current]
  exact look ▸ passed.tail .look rfl

theorem Steps.clear (inv : Inv s) : Steps s (s.free.note (s.lastOf results)) := by
  rw [lastOf]
  cases current : s.queue.current with
  | none =>
      rw [free_of_current current (inv.idle current)]
      simpa [note] using Steps.refl
  | some i =>
      cases awake : s.pause.isNone with
      | true => simpa [awake] using Steps.returns current (Option.isNone_iff_eq_none.mp awake) _
      | false =>
          have paused : s.pause.isSome := by simpa [Option.isNone_iff_eq_none] using awake
          cases closing : s.queue.closing with
          | true =>
              have step : Steps s (s.after .notice) :=
                .tail _ .refl (by rw [permits, paused, closing]; rfl)
              rw [after, Service.finish, withCurrent, current] at step
              simpa [awake, closing, Service.returns] using step
          | false =>
              have step := (Steps.resumes current paused).trans
                (Steps.returns (s := { s with pause := none }.note [.resumed i.id]) current rfl
                  (results i.id))
              simpa [awake, closing, note, free, idle] using step

/-! ## What waits -/

/-- The first that waits has its turn. -/
theorem Steps.serveFirst (idle : s.queue.current = none) (awake : s.pause = none)
    (accepts : s.queue.refuses = false) {i : WorkItem α} {rest : List (WorkItem α)}
    (pending : s.queue.pending = i :: rest) :
    Steps s ({ s with queue := { s.queue with pending := rest } }.note (served results i)) := by
  obtain ⟨open_, going⟩ := Bool.or_eq_false_iff.mp accepts
  have step : Steps s (s.after .turn) := .tail _ .refl rfl
  rw [served]
  cases left : i.isGivenUp with
  | true =>
      have turn : s.queue.turn = ({ s.queue with pending := rest }, .skip i) := by
        simp [WorkQueue.turn, open_, going, idle, pending, left]
      rwa [after, Service.turn, turn] at step
  | false =>
      have turn : s.queue.turn =
          ({ s.queue with pending := rest, current := some i }, .start i) := by
        simp [WorkQueue.turn, open_, going, idle, pending, left]
      have start : s.after .turn = { s with
          queue := { s.queue with pending := rest, current := some i } }.note
          [.started i.id i.work] := by
        rw [after, Service.turn, turn]
      have whole := step.trans (Steps.returns (i := i) (by rw [start]; rfl)
        (by rw [start]; exact awake) (results i.id))
      rw [start] at whole
      simpa [note, free, Service.idle, finishCurrent, idle, awake] using whole

/-- What waits is served in turn. -/
theorem Steps.serve (idle : s.queue.current = none) (awake : s.pause = none)
    (accepts : s.queue.refuses = false) :
    Steps s ({ s with queue := { s.queue with pending := [] } }.note
      (s.queue.pending.flatMap (served results))) := by
  generalize eq : s.queue.pending = ps
  induction ps generalizing s with
  | nil =>
      have same :
          ({ s with queue := { s.queue with pending := [] } } : Service α ρ).note [] = s := by
        rw [← eq]
        simp [note]
      rw [List.flatMap_nil, same]
      exact .refl
  | cons i rest ih =>
      have first := Steps.serveFirst results idle awake accepts eq
      have others := ih (s := { s with queue := { s.queue with pending := rest } }.note
        (served results i)) idle awake accepts rfl
      simpa [note, List.append_assoc] using first.trans others

theorem Steps.cancel (inv : Inv s) (idle : s.queue.current = none) (closing : s.queue.closing) :
    Steps s ({ s with queue := { s.queue with pending := [], ended := true } }.note
      (s.queue.pending.map fun i : WorkItem α => .ended i.id .cancelled)) := by
  cases ended : s.queue.ended with
  | true =>
      have none := (inv.ended ended).2.2
      have same : ({ s with queue := { s.queue with pending := [], ended := true } } :
          Service α ρ).note [] = s := by
        rw [← ended, ← none]
        simp [note]
      rw [none, List.map_nil, same]
      exact .refl
  | false =>
      have step : Steps s (s.after .turn) := .tail _ .refl rfl
      have turn : s.queue.turn =
          ({ s.queue with pending := [], ended := true }, .finish s.queue.pending) := by
        simp [WorkQueue.turn, ended, idle, closing]
      rwa [after, Service.turn, turn] at step

/-- A queue that is left alone comes to rest. -/
theorem Inv.rests (inv : Inv s) (results : Nat → Except ConnectionError ρ) :
    ∃ s', Steps s s' ∧ s'.queue.current = none ∧ s'.queue.pending = [] ∧
      s'.history = s.history ++ s.remaining results := by
  have clear := Steps.clear results inv
  rw [remaining]
  cases closing : s.queue.closing with
  | true =>
      have cancel := Steps.cancel (inv.steps clear) rfl closing
      exact ⟨_, clear.trans cancel, rfl, rfl, by simp [free]; rfl⟩
  | false =>
      have accepts : s.queue.refuses = false := by
        rw [inv.refuses_iff, ← inv.closing, closing]
      have serve := Steps.serve (s := s.free.note (s.lastOf results)) results rfl rfl accepts
      exact ⟨_, clear.trans serve, rfl, rfl, by simp [free]; rfl⟩

/-! ## What a queue guarantees -/

/-- The guarantees of a queue. -/
structure Serial (s : Service α ρ) : Prop where
  /-- Each mark of the history obeys the law. -/
  law : ∀ {before after : List (Mark α ρ)} {m : Mark α ρ},
    s.history = before ++ m :: after → Follows before m
  /-- Operations are started in the order in which they were submitted. -/
  order : (dispatched s.history).Sublist ((accepted s.history).map fun i => (i.id, i.work))
  /-- No submission ends twice. -/
  once : ∀ id, s.history.countP (·.isEnd id) ≤ 1
  /-- Nobody is told anything but what his own operation returned, or that it was refused or
  cancelled because closing was asked for. -/
  told : ∀ {id : Nat} {r : Except ConnectionError ρ}, (id, r) ∈ s.history.filterMap Mark.told? →
    .returned id r ∈ s.history ∨
      isClosed s.history ∧ (r = .error .closed ∨ r = .error .cancelled)
  /-- A detached operation is done, unless closing was asked for. -/
  detached : ∀ {id : Nat} {work : α} {e : Ending ρ}, .submitted id work true true ∈ s.history →
    .ended id e ∈ s.history → e = .done ∨ e = .cancelled ∧ isClosed s.history
  /-- What was not started when closing was asked for is cancelled. -/
  closing : ∀ {before after : List (Mark α ρ)} {id : Nat} {e : Ending ρ},
    s.history = before ++ .closing :: after → .ended id e ∈ after →
    hasStarted before id = false → e = .cancelled
  /-- A queue that ended was closed, and has nothing left. -/
  ended : s.queue.ended → isClosed s.history ∧ s.queue.current = none ∧ s.queue.pending = []
  /-- When nothing is left, each submission has ended. -/
  settled : s.queue.current = none → s.queue.pending = [] →
    ∀ {id : Nat} {work : α} {detached accepted : Bool},
      .submitted id work detached accepted ∈ s.history → s.history.countP (·.isEnd id) = 1
  /-- The queue comes to rest, whatever the operations return. -/
  rests : ∀ results : Nat → Except ConnectionError ρ, ∃ s', Steps s s' ∧
    s'.queue.current = none ∧ s'.queue.pending = [] ∧
    s'.history = s.history ++ s.remaining results

theorem Inv.told (inv : Inv s) {id : Nat} {r : Except ConnectionError ρ}
    (told : (id, r) ∈ s.history.filterMap Mark.told?) : .returned id r ∈ s.history ∨
      isClosed s.history ∧ (r = .error .closed ∨ r = .error .cancelled) := by
  obtain ⟨m, mem, is⟩ := List.mem_filterMap.mp told
  obtain ⟨before, after, eq⟩ := List.append_of_mem mem
  have law := (eq ▸ inv.lawful).follows.2
  have closed : isClosed before → isClosed s.history := by
    intro closed
    rw [eq, isClosed_append, closed, Bool.true_or]
  cases law with
  | submitted work detached _ =>
      cases asked : isClosed before with
      | true =>
          rw [asked] at is
          obtain ⟨-, rfl⟩ := Prod.mk.inj (Option.some.inj is)
          exact .inr ⟨closed asked, .inl rfl⟩
      | false =>
          rw [asked] at is
          cases is
  | delivered returned =>
      obtain ⟨rfl, rfl⟩ := Prod.mk.inj (Option.some.inj is)
      exact .inl (eq ▸ List.mem_append_left _ returned)
  | cancelled _ asked =>
      obtain ⟨-, rfl⟩ := Prod.mk.inj (Option.some.inj is)
      exact .inr ⟨closed asked, .inr rfl⟩
  | _ => cases is

theorem Inv.settled (inv : Inv s) (idle : s.queue.current = none) (none : s.queue.pending = [])
    {id : Nat} {work : α} {detached accepted : Bool}
    (submitted : .submitted id work detached accepted ∈ s.history) :
    s.history.countP (·.isEnd id) = 1 := by
  have ended : hasEnded s.history id := by
    cases accepted with
    | false => exact List.any_eq_true.mpr ⟨_, submitted, beq_self_eq_true id⟩
    | true =>
        have mem : ({ id, work, detached } : WorkItem α) ∈ WorkQueue.accepted s.history :=
          mem_accepted.mpr ⟨rfl, submitted⟩
        have left := inv.content
        rw [idle, none] at left
        have gone := List.filter_eq_nil_iff.mp (List.map_eq_nil_iff.mp left.symm) _ mem
        simpa using gone
  have some : 0 < s.history.countP (·.isEnd id) :=
    List.countP_pos_iff.mpr (List.any_eq_true.mp ended)
  exact Nat.le_antisymm (inv.lawful.once id) some

/-- Whatever is submitted, left, paused, finished and closed, in any order, a queue keeps its
guarantees. -/
theorem Reachable.serial (reachable : Reachable s) : Serial s where
  law eq := (eq ▸ reachable.inv.lawful).follows.2
  order := reachable.inv.lawful.dispatched_sublist
  once := reachable.inv.lawful.once
  told := reachable.inv.told
  detached := reachable.inv.lawful.detached_end
  closing eq := (eq ▸ reachable.inv.lawful).cancelled_after
  ended ended := by
    obtain ⟨closing, rest⟩ := reachable.inv.ended ended
    exact ⟨reachable.inv.closing ▸ closing, rest⟩
  settled := reachable.inv.settled
  rests := reachable.inv.rests

/-- One operation is in flight and one waits when closing is asked for. -/
def closedRun : Service String Nat :=
  [Event.submit "a" false, .turn, .submit "b" false, .close, .submit "c" false, .finish (.ok 7),
    .turn].foldl after {}

theorem serial_closed : Reachable closedRun ∧ Serial closedRun ∧ closedRun.queue.ended ∧
    closedRun.history.filterMap Mark.told? =
      [(2, .error .closed), (0, .ok 7), (1, .error .cancelled)] := by
  have reachable : Reachable closedRun :=
    .tail .turn (.tail (.finish (.ok 7)) (.tail (.submit "c" false) (.tail .close
      (.tail (.submit "b" false) (.tail .turn (.tail (.submit "a" false) .refl rfl) rfl) rfl)
      rfl) rfl) rfl) rfl
  exact ⟨reachable, reachable.serial, rfl, rfl⟩

end Service

end WorkQueue

end ConnectionPool
