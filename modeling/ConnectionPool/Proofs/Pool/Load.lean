import Mathlib.Algebra.GroupWithZero.Nat
import ConnectionPool.Proofs.Pool.Pauses

/-!
# Operations that may retry

An operation that met a lock pauses until it is woken or its time has come, and is then
tried again.  Some operations are outside: their connections are in autocommit mode, and
they wake the first waiter when they park.  The others keep a wake that they were given.

`Pool.load` bounds the retries that follow while no time becomes due.  An operation whose
pause is over weighs one.  So does an operation outside that does not wait, since it will
wake somebody when it parks.  A wake adds at most one, or two if it goes to an operation
outside; the lemmas here give the sum for each step of an operation.
-/

namespace ConnectionPool

namespace Pool

variable {outside due due' : Nat → Bool} {p q : Pool} {r r' : RetryState}

/-! ## Steps of others -/

/-- Somebody else takes the step, and gives nothing back. -/
def givesNothingBack (p : Pool) : Event → Bool
  | .releasePrimary => false
  | .release _ _ => false
  | .abandon ticket => p.stage? ticket == some .queued
  | .beginRetries => false
  | .park _ _ => false
  | .delay _ => false
  | .resume _ => false
  | .cancelPause _ => false
  | .endRetries _ => false
  | _ => true

/-- Such a step wakes no lock retry. -/
theorem after_retries {e : Event} (still : p.givesNothingBack e) :
    (p.after e).retries = p.retries ∧ (p.after e).receivers = p.receivers := by
  cases e with
  | acquire =>
      by_cases free : p.entry.inUse < p.entry.limit
      · rw [after, acquire_granted free]
        exact ⟨rfl, rfl⟩
      · rw [after, acquire_queued free]
        exact ⟨rfl, rfl⟩
  | claim ticket isOpen =>
      rw [after]
      rcases p.claim_cases ticket isOpen with ⟨_, _, _, _, eq⟩ | ⟨_, eq⟩
      · rw [eq]
        exact ⟨rfl, rfl⟩
      · rw [eq]
        exact ⟨rfl, rfl⟩
  | abandon ticket =>
      have queued : p.stage? ticket = some .queued := by simpa [givesNothingBack] using still
      rw [after, abandon_queued queued]
      exact ⟨rfl, rfl⟩
  | fire timer =>
      rw [after]
      rcases p.fire_cases timer with eq | ⟨_, _, _, eq⟩
      · rw [eq]
        exact ⟨rfl, rfl⟩
      · rw [eq]
        exact ⟨rfl, rfl⟩
  | endOpen opened => cases opened <;> exact ⟨rfl, rfl⟩
  | beginOpen => exact ⟨rfl, rfl⟩
  | closePrimary => exact ⟨rfl, rfl⟩
  | leasePrimary => exact ⟨rfl, rfl⟩
  | opened => exact ⟨rfl, rfl⟩
  | lease => exact ⟨rfl, rfl⟩
  | initializerFailed => exact ⟨rfl, rfl⟩
  | drainIdle => exact ⟨rfl, rfl⟩
  | beginShutdown => exact ⟨rfl, rfl⟩
  | endShutdown => exact ⟨rfl, rfl⟩
  | _ => cases still

/-! ## What the steps of an operation do with the operations -/

theorem pauseParked_retries (p : Pool) (r : RetryState) (autocommit : Bool) :
    (p.pauseParked r autocommit).1.retries =
      replaceKey RetryState.id r.id (fun _ => { r with
        pause := some (.parked p.fresh (r.owesWake && !p.passesOn autocommit r.owesWake)) })
        p.retries := by
  rw [pauseParked_eq]
  cases p.passesOn autocommit r.owesWake with
  | true => exact congrArg _ p.sweep.wake_woke.retries
  | false => rfl

theorem resume_retries (p : Pool) (r : RetryState) : (p.resume r).retries =
    replaceKey RetryState.id r.id (fun _ => { r with owesWake := p.holds r, pause := none })
      p.retries := by
  rw [resume_eq, endPause_retries]

theorem forgetRetry_retries (p : Pool) (r : RetryState) :
    (p.forgetRetry r).retries = removeKey RetryState.id r.id p.retries := by
  show removeKey RetryState.id r.id (p.cancelPause r).retries = _
  rw [cancelPause_eq, endPause_retries]
  exact removeKey_replaceKey fun _ _ => rfl

theorem endRetries_retries (p : Pool) (id : Nat) :
    (p.endRetries id).1.retries = removeKey RetryState.id id p.retries := by
  cases found : p.retry? id with
  | none =>
      have absent : ∀ r ∈ p.retries, r.id ≠ id := by
        intro r mem
        simpa using List.find?_eq_none.mp found r mem
      rw [endRetries_none found, removeKey_of_ne absent]
  | some r =>
      obtain ⟨-, rfl⟩ := mem_of_findRetry found
      rw [endRetries_some found]
      split
      · rw [(p.forgetRetry r).wake_woke.retries, forgetRetry_retries]
      · exact p.forgetRetry_retries r

/-- One operation changed, and the others are found as before. -/
theorem find_replaced (keyed : Keyed RetryState.id q.retries)
    (mem : r ∈ p.retries)
    (eq : q.retries = replaceKey RetryState.id r.id (fun _ => r') p.retries)
    (same : r'.id = r.id) :
    q.retry? r.id = some r' ∧ ∀ x ∈ p.retries, x.id ≠ r.id → q.retry? x.id = some x := by
  constructor
  · rw [← same]
    refine keyed.find?_eq ?_
    rw [eq]
    exact mem_replaceKey.mpr (.inr ⟨r, mem, rfl, rfl⟩)
  · intro x old ne
    refine keyed.find?_eq ?_
    rw [eq]
    exact mem_replaceKey.mpr (.inl ⟨old, ne⟩)

/-! ## The load -/

/-- The pause of an operation is over: it was woken, or its time has come. -/
def isReady (due : Nat → Bool) (p : Pool) (r : RetryState) : Bool :=
  r.pause.isSome && (p.hasWake r || due r.id)

/-- What an operation adds to the retries to come. -/
def weight (outside due : Nat → Bool) (p : Pool) (r : RetryState) : Nat :=
  (p.isReady due r).toNat + (outside r.id && (r.pause.isNone || p.isReady due r)).toNat

/-- The retries to come, if no operation ends. -/
def load (outside due : Nat → Bool) (p : Pool) : Nat :=
  (p.retries.map (p.weight outside due)).sum

/-! ## One operation -/

theorem weight_awake (awake : r.pause = none) :
    p.weight outside due r = (outside r.id).toNat := by
  simp [weight, isReady, awake]

theorem weight_ready (ready : p.isReady due r) :
    p.weight outside due r = 1 + (outside r.id).toNat := by
  simp [weight, ready]

theorem weight_waiting (paused : r.pause.isSome) (waits : p.isReady due r = false) :
    p.weight outside due r = 0 := by
  obtain ⟨pause, is⟩ := Option.isSome_iff_exists.mp paused
  simp [weight, waits, is]

theorem weight_le : p.weight outside due r ≤ 1 + (outside r.id).toNat := by
  have ready := Bool.toNat_le (p.isReady due r)
  rw [weight]
  cases outside r.id with
  | true => simpa using Nat.add_le_add ready (Bool.toNat_le (r.pause.isNone || p.isReady due r))
  | false => simpa using ready

/-- An operation is as ready as before, if it is as woken and as late. -/
theorem weight_congr (woken : q.hasWake r = p.hasWake r) (late : due' r.id = due r.id) :
    q.weight outside due' r = p.weight outside due r := by
  rw [weight, weight, isReady, isReady, woken, late]

/-! ## All operations -/

/-- The load does not change with what it does not see. -/
theorem load_congr (outside due : Nat → Bool) (retries : q.retries = p.retries)
    (woken : ∀ r ∈ p.retries, q.hasWake r = p.hasWake r) :
    q.load outside due = p.load outside due := by
  rw [load, load, retries]
  exact congrArg List.sum (List.map_congr_left fun r mem => weight_congr (woken r mem) rfl)

/-- The loads of two pools that differ in one operation. -/
theorem load_split {l₁ l₂ : List RetryState} (new : List RetryState)
    (eq : p.retries = l₁ ++ r :: l₂) (eq' : q.retries = l₁ ++ new ++ l₂)
    (same : ∀ s ∈ l₁ ++ l₂, q.weight outside due' s = p.weight outside due s) :
    q.load outside due' + p.weight outside due r =
      p.load outside due + (new.map (q.weight outside due')).sum := by
  have left := List.map_congr_left fun s mem => same s (List.mem_append_left l₂ mem)
  have right := List.map_congr_left fun s mem => same s (List.mem_append_right l₁ mem)
  rw [load, load, eq, eq']
  simp only [List.map_append, List.map_cons, List.sum_append, List.sum_cons, left, right]
  omega

/-- One operation changes. -/
theorem load_replace (outside due : Nat → Bool) (keyed : Keyed RetryState.id p.retries) (mem : r ∈ p.retries)
    (retries : q.retries = replaceKey RetryState.id r.id (fun _ => r') p.retries)
    (woken : ∀ s ∈ p.retries, s.id ≠ r.id → q.hasWake s = p.hasWake s)
    (late : ∀ s ∈ p.retries, s.id ≠ r.id → due' s.id = due s.id) :
    q.load outside due' + p.weight outside due r =
      p.load outside due + q.weight outside due' r' := by
  obtain ⟨l₁, l₂, eq, other, replaced, -⟩ := keyed.split mem
  have same : ∀ s ∈ l₁ ++ l₂, q.weight outside due' s = p.weight outside due s := fun s hs =>
    weight_congr (woken s (other s hs).1 (other s hs).2) (late s (other s hs).1 (other s hs).2)
  have split := load_split [r'] eq (by rw [retries, replaced]; simp) same
  simpa using split

/-- One operation goes. -/
theorem load_remove (outside due : Nat → Bool) (keyed : Keyed RetryState.id p.retries) (mem : r ∈ p.retries)
    (retries : q.retries = removeKey RetryState.id r.id p.retries)
    (woken : ∀ s ∈ p.retries, s.id ≠ r.id → q.hasWake s = p.hasWake s) :
    q.load outside due + p.weight outside due r = p.load outside due := by
  obtain ⟨l₁, l₂, eq, other, -, removed⟩ := keyed.split mem
  have same : ∀ s ∈ l₁ ++ l₂, q.weight outside due s = p.weight outside due s := fun s hs =>
    weight_congr (woken s (other s hs).1 (other s hs).2) rfl
  have split := load_split [] eq (by rw [retries, removed]; simp) same
  simpa using split

/-! ## Wakes -/

theorem hasWake_sendWake_ne {ticket : Nat} (ne : r.ticket? ≠ some ticket) :
    (p.sendWake ticket).hasWake r = p.hasWake r := by
  rw [hasWake_eq, hasWake_eq]
  cases waits : r.ticket? with
  | none => rfl
  | some t =>
      refine isWoken_sendWake_ne p ?_
      rintro rfl
      exact ne waits

theorem hasWake_of_receivers (receivers : q.receivers = p.receivers) (r : RetryState) :
    q.hasWake r = p.hasWake r := by
  rw [hasWake_eq, hasWake_eq]
  have same : q.isWoken = p.isWoken := by
    funext t
    rw [isWoken, receiver?, receivers, isWoken, receiver?]
  rw [same]

/-- A wake adds one, and one more if it goes to an operation outside. -/
theorem load_wake_le (outside due : Nat → Bool) (h : Pauses p) {n : Nat}
    (few : ∀ r ∈ p.retries, r.pause.isSome → (outside r.id).toNat ≤ n) :
    p.wake.1.load outside due ≤ p.load outside due + 1 + n := by
  have woke := p.wake_woke
  generalize p.wake.1 = q at woke ⊢
  have still : q.retries = p.retries → q.receivers = p.receivers →
      q.load outside due ≤ p.load outside due + 1 + n := by
    intro retries receivers
    rw [load_congr outside due retries fun r _ => hasWake_of_receivers receivers r]
    omega
  cases woke with
  | nobody _ => exact still rfl rfl
  | @retry dead rest w eq _ live kind =>
      have mem : w ∈ p.entry.waiters := by rw [eq]; simp
      obtain ⟨⟨r, hr, waits⟩, -⟩ := h.awaited w mem live kind
      obtain ⟨l₁, l₂, split, other, -, -⟩ := h.retries.split hr
      -- Nobody else waits with the ticket.
      have others : ∀ s ∈ l₁ ++ l₂,
          ((p.withWaiters rest p.entry.inUse).sendWake w.ticket).weight outside due s =
            p.weight outside due s := by
        intro s hs
        refine weight_congr (hasWake_sendWake_ne ?_) rfl
        intro waits'
        exact (other s hs).2
          (congrArg RetryState.id (h.apart s (other s hs).1 r hr _ waits' waits))
      have sum := load_split [r] split (by rw [← List.append_cons]; exact split) others
      have le : ((p.withWaiters rest p.entry.inUse).sendWake w.ticket).weight outside due r ≤
          1 + (outside r.id).toNat := weight_le
      have paused : r.pause.isSome := by
        cases pause : r.pause with
        | none => rw [RetryState.ticket?, pause] at waits; cases waits
        | some _ => rfl
      have := few r hr paused
      simp only [List.map_cons, List.map_nil, List.sum_cons, List.sum_nil] at sum
      omega
  | granted _ _ _ _ _ => exact still rfl rfl
  | kept _ _ _ _ _ => exact still rfl rfl

/-- A wake that an acquisition can use is no lock retry's. -/
theorem load_wake_ready (outside due : Nat → Bool) (ready : p.entry.acquisitionReady)
    (live : ∀ w ∈ p.entry.waiters, w.live) :
    p.wake.1.load outside due = p.load outside due := by
  have woke := p.wake_woke
  generalize p.wake.1 = q at woke ⊢
  cases woke with
  | nobody _ => exact load_congr outside due rfl fun r _ => hasWake_of_receivers rfl r
  | @retry dead rest w eq gone _ kind =>
      have none : dead = [] := by
        cases dead with
        | nil => rfl
        | cons d dead =>
            have lives := live d (by rw [eq]; simp)
            rw [gone d List.mem_cons_self] at lives
            cases lives
      rw [Entry.acquisitionReady, eq, none, List.nil_append, List.head?_cons, Option.any_some,
        kind] at ready
      cases ready
  | granted _ _ _ _ _ => exact load_congr outside due rfl fun r _ => hasWake_of_receivers rfl r
  | kept _ _ _ _ _ => exact load_congr outside due rfl fun r _ => hasWake_of_receivers rfl r

/-! ## The steps of an operation -/

/-- An operation that joins the queue waits. -/
theorem load_lineUp (outside due : Nat → Bool) (h : Pauses p) (mem : r ∈ p.retries) (awake : r.pause = none) (owed : Bool)
    (early : due' r.id = false) (late : ∀ s ∈ p.retries, s.id ≠ r.id → due' s.id = due s.id) :
    (p.joinQueue.setRetry { r with pause := some (.parked p.fresh owed) }).load outside due' +
      (outside r.id).toNat = p.load outside due := by
  have waits : (p.joinQueue.setRetry { r with pause := some (.parked p.fresh owed) }).weight
      outside due' { r with pause := some (.parked p.fresh owed) } = 0 := by
    apply weight_waiting rfl
    have unwoken := isWoken_fresh p h.receiver_lt
    rw [isReady, hasWake_eq]
    simp only [RetryState.ticket?, Option.any_some, Option.isSome_some, Bool.true_and, early,
      Bool.or_false]
    exact unwoken
  have woken : ∀ s ∈ p.retries, s.id ≠ r.id →
      (p.joinQueue.setRetry { r with pause := some (.parked p.fresh owed) }).hasWake s =
        p.hasWake s := by
    intro s hs _
    rw [hasWake_eq, hasWake_eq]
    cases parked : s.ticket? with
    | none => rfl
    | some t => exact isWoken_joinQueue p (h.ticket_lt hs parked)
  have sum := load_replace outside due h.retries mem rfl woken late
  rw [weight_awake awake, waits] at sum
  exact sum

/-- An operation that pauses for a fixed time waits. -/
theorem load_pauseDelayed (outside due : Nat → Bool) (h : Pauses p) (mem : r ∈ p.retries) (awake : r.pause = none)
    (early : due' r.id = false) (late : ∀ s ∈ p.retries, s.id ≠ r.id → due' s.id = due s.id) :
    (p.pauseDelayed r).load outside due' + (outside r.id).toNat = p.load outside due := by
  have waits : (p.pauseDelayed r).weight outside due' { r with pause := some .delayed } = 0 := by
    apply weight_waiting rfl
    simp [isReady, hasWake, early]
  have woken : ∀ s ∈ p.retries, s.id ≠ r.id → (p.pauseDelayed r).hasWake s = p.hasWake s :=
    fun s _ _ => hasWake_of_receivers rfl s
  have sum := load_replace outside due h.retries mem rfl woken late
  rw [weight_awake awake, waits] at sum
  exact sum

/-- An operation that parks makes the load no larger, if no other one outside is paused:
the wake that it sends for being outside was counted. -/
theorem load_pauseParked_le (h : Pauses p) {limit : Nat} (slots : Slots limit p)
    (mem : r ∈ p.retries) (awake : r.pause = none)
    (alone : outside r.id → ∀ s ∈ p.retries, s.pause.isSome → outside s.id = false)
    (early : due' r.id = false) (late : ∀ s ∈ p.retries, s.id ≠ r.id → due' s.id = due s.id) :
    (p.pauseParked r (outside r.id)).1.load outside due' ≤ p.load outside due := by
  have swept : p.sweep.load outside due = p.load outside due :=
    load_congr outside due rfl fun r _ => hasWake_of_receivers rfl r
  rw [pauseParked_eq]
  cases passes : p.passesOn (outside r.id) r.owesWake with
  | false =>
      have sum := load_lineUp outside due h.sweep mem awake
        (r.owesWake && !false) early late
      have same : p.sweep.fresh = p.fresh := rfl
      rw [same] at sum
      simp only [Bool.false_eq_true, if_false]
      omega
  | true =>
      have woke := p.sweep.wake_woke
      have mem' : r ∈ p.sweep.wake.1.retries := woke.retries ▸ mem
      have late' : ∀ s ∈ p.sweep.wake.1.retries, s.id ≠ r.id → due' s.id = due s.id :=
        woke.retries ▸ late
      have sum := load_lineUp outside due
        (h.sweep.wake slots.sweep.waiters) mem' awake (r.owesWake && !true) early late'
      have same : p.sweep.wake.1.fresh = p.fresh := woke.fresh
      rw [same] at sum
      simp only [if_true]
      cases out : outside r.id with
      | true =>
          have le := load_wake_le outside due (n := 0) h.sweep
            fun s hs paused => by simp [alone out s hs paused]
          rw [out, Bool.toNat_true] at sum
          omega
      | false =>
          -- It passes on a wake that it owes, to an acquisition.
          rw [passesOn, out, Bool.false_or, Bool.and_eq_true] at passes
          have served := load_wake_ready outside due passes.2
            fun w hw => by simpa using (List.mem_filter.mp hw).2
          rw [out, Bool.toNat_false] at sum
          omega

/-- An operation that is tried again after its pause was counted. -/
theorem load_resume (outside due : Nat → Bool) (h : Pauses p) (mem : r ∈ p.retries) (ready : p.isReady due r) :
    (p.resume r).load outside due + 1 = p.load outside due := by
  rw [resume_eq]
  have woken : ∀ s ∈ p.retries, s.id ≠ r.id →
      (p.endPause r (p.holds r)).hasWake s = p.hasWake s :=
    fun s hs ne => h.endPause_hasWake mem hs ne _
  have sum := load_replace outside due h.retries mem (endPause_retries p r _) woken
    fun _ _ _ => rfl
  have awake : (p.endPause r (p.holds r)).weight outside due
      { r with owesWake := p.holds r, pause := none } = (outside r.id).toNat := weight_awake rfl
  rw [weight_ready ready, awake] at sum
  omega

/-- An operation that ends adds at most a wake. -/
theorem load_endRetries_le (outside due : Nat → Bool) (h : Pauses p) (id : Nat) :
    (p.endRetries id).1.load outside due ≤ p.load outside due + 2 := by
  cases found : p.retry? id with
  | none => rw [endRetries_none found]; omega
  | some r =>
      obtain ⟨mem, rfl⟩ := mem_of_findRetry found
      have removed : (p.forgetRetry r).load outside due + p.weight outside due r =
          p.load outside due := by
        apply load_remove outside due h.retries mem (p.forgetRetry_retries r)
        intro s hs ne
        have same := h.endPause_hasWake mem hs ne r.owesWake
        rw [← cancelPause_eq] at same
        exact same
      rw [endRetries_some found]
      split
      · have le := load_wake_le outside due (n := 1)
          (h.forgetRetry mem) fun s _ _ => Bool.toNat_le (outside s.id)
        omega
      · omega

end Pool

end ConnectionPool
