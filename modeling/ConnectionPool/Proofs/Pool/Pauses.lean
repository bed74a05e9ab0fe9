import ConnectionPool.Proofs.Pool.Slots

/-!
# Pauses of lock retries

An operation that is parked waits with a ticket of its own: no other operation has the
ticket, its receiver is there, and a live waiter for a lock retry belongs to it until
the wake is sent.  `Pool.Pauses` is the invariant that says so.

A pause ends in two ways, by `resume` and by `cancelPause`, and they differ only in what
the operation owes afterwards: what it holds then, or what it owed before.  Both are
`Pool.endPause`.
-/

namespace ConnectionPool

/-- The ticket that an operation waits with. -/
def RetryState.ticket? (r : RetryState) : Option Nat :=
  match r.pause with
  | some (.parked ticket _) => some ticket
  | _ => none

namespace Pool

/-- An operation has a wake in hand, if it takes one that was sent. -/
def holds (p : Pool) (r : RetryState) : Bool :=
  match r.pause with
  | some (.parked ticket owed) => owed || p.isWoken ticket
  | _ => r.owesWake

theorem hasWake_eq (p : Pool) (r : RetryState) : p.hasWake r = r.ticket?.any p.isWoken := by
  obtain ⟨id, owesWake, pause⟩ := r
  cases pause with
  | none => rfl
  | some pause =>
      cases pause with
      | parked t owed => rfl
      | delayed => rfl

/-- A pause is over, and the operation owes a wake or does not. -/
def endPause (p : Pool) (r : RetryState) (owesWake : Bool) : Pool :=
  let p := p.setRetry { r with owesWake, pause := none }
  match r.ticket? with
  | some ticket => p.dropReceiver ticket
  | none => p

theorem endPause_retries (p : Pool) (r : RetryState) (owesWake : Bool) :
    (p.endPause r owesWake).retries =
      replaceKey RetryState.id r.id (fun _ => { r with owesWake, pause := none }) p.retries := by
  rw [endPause]
  cases r.ticket? with
  | none => rfl
  | some _ => rfl

theorem resume_eq (p : Pool) (r : RetryState) : p.resume r = p.endPause r (p.holds r) := by
  obtain ⟨id, owesWake, pause⟩ := r
  cases pause with
  | none => rfl
  | some pause =>
      cases pause with
      | parked ticket owed => rfl
      | delayed => rfl

theorem cancelPause_eq (p : Pool) (r : RetryState) :
    p.cancelPause r = p.endPause r r.owesWake := by
  obtain ⟨id, owesWake, pause⟩ := r
  cases pause with
  | none => rfl
  | some pause =>
      cases pause with
      | parked ticket owed => rfl
      | delayed => rfl

/-- Parking wakes the first waiter or does not, and then the operation waits behind the
others. -/
theorem pauseParked_eq (p : Pool) (r : RetryState) (autocommit : Bool) :
    (p.pauseParked r autocommit).1 =
      ((if p.passesOn autocommit r.owesWake then p.sweep.wake.1 else p.sweep).joinQueue).setRetry
        { r with
          pause := some (.parked p.fresh (r.owesWake && !p.passesOn autocommit r.owesWake)) } := by
  rw [← park_eq, ← park_owed]
  rfl

/-! ## Receivers -/

theorem isWoken_sendWake (p : Pool) {ticket : Nat} (there : ∃ c ∈ p.receivers, c.ticket = ticket) :
    (p.sendWake ticket).isWoken ticket := by
  obtain ⟨c, mem, rfl⟩ := there
  rw [isWoken, receiver?]
  cases found : (p.sendWake c.ticket).receivers.find? (·.ticket == c.ticket) with
  | none =>
      have told : (⟨c.ticket, true⟩ : Receiver) ∈ (p.sendWake c.ticket).receivers :=
        mem_replaceKey.mpr (.inr ⟨c, mem, rfl, rfl⟩)
      simpa using List.find?_eq_none.mp found _ told
  | some d =>
      obtain ⟨hd, same⟩ := mem_of_find?_key found
      rcases mem_replaceKey.mp hd with ⟨-, ne⟩ | ⟨_, _, _, rfl⟩
      · exact absurd same ne
      · rfl

theorem isWoken_sendWake_ne (p : Pool) {ticket other : Nat} (ne : other ≠ ticket) :
    (p.sendWake ticket).isWoken other = p.isWoken other := by
  have same : (p.sendWake ticket).receiver? other = p.receiver? other := by
    simp only [receiver?, sendWake, replaceKey]
    induction p.receivers with
    | nil => rfl
    | cons c rest ih =>
        by_cases is : c.ticket = ticket
        · have not : (ticket == other) = false := beq_eq_false_iff_ne.mpr (Ne.symm ne)
          simp only [List.map_cons, List.find?_cons, is, if_true, not, ih]
        · simp only [List.map_cons, List.find?_cons, if_neg is, ih]
  rw [isWoken, same, isWoken]

theorem isWoken_dropReceiver_ne (p : Pool) {ticket other : Nat} (ne : other ≠ ticket) :
    (p.dropReceiver ticket).isWoken other = p.isWoken other := by
  have same : (p.dropReceiver ticket).receiver? other = p.receiver? other := by
    simp only [receiver?, dropReceiver, List.find?_filter]
    congr 1
    funext c
    by_cases is : c.ticket = other
    · simp [is, ne]
    · simp [is]
  rw [isWoken, same, isWoken]

theorem isWoken_joinQueue (p : Pool) {ticket : Nat} (lt : ticket < p.fresh) :
    p.joinQueue.isWoken ticket = p.isWoken ticket := by
  have not : (p.fresh == ticket) = false := beq_eq_false_iff_ne.mpr (Nat.ne_of_gt lt)
  simp [isWoken, receiver?, joinQueue, withWaiters, List.find?_append, not]

theorem isWoken_fresh (p : Pool) (receiver_lt : ∀ c ∈ p.receivers, c.ticket < p.fresh) :
    p.joinQueue.isWoken p.fresh = false := by
  have none : p.receivers.find? (·.ticket == p.fresh) = none := by
    apply List.find?_eq_none.mpr
    intro c mem
    simpa using Nat.ne_of_lt (receiver_lt c mem)
  simp [isWoken, receiver?, joinQueue, withWaiters, List.find?_append, none]

/-! ## The invariant -/

/-- Operations that pause are told apart, and so are those they wait as. -/
structure Pauses (p : Pool) : Prop where
  /-- Operations have different numbers. -/
  retries : Keyed RetryState.id p.retries
  /-- Their numbers were given out. -/
  retry_lt : ∀ r ∈ p.retries, r.id < p.fresh
  /-- The tickets of receivers were given out. -/
  receiver_lt : ∀ c ∈ p.receivers, c.ticket < p.fresh
  /-- A parked operation has its receiver. -/
  received : ∀ r ∈ p.retries, ∀ t, r.ticket? = some t → ∃ c ∈ p.receivers, c.ticket = t
  /-- A wake owed besides the one it may get was owed before. -/
  owed : ∀ r ∈ p.retries, ∀ t, r.pause = some (.parked t true) → r.owesWake
  /-- Operations wait with different tickets. -/
  apart : ∀ r ∈ p.retries, ∀ s ∈ p.retries, ∀ t, r.ticket? = some t → s.ticket? = some t → r = s
  /-- A live waiter for a lock retry belongs to an operation that was sent no wake. -/
  awaited : ∀ w ∈ p.entry.waiters, w.live → w.kind = .retry →
    (∃ r ∈ p.retries, r.ticket? = some w.ticket) ∧ p.isWoken w.ticket = false
  /-- No operation waits with the ticket of an acquisition. -/
  separate : ∀ w ∈ p.entry.waiters, w.kind = .acquisition →
    ∀ r ∈ p.retries, r.ticket? ≠ some w.ticket

theorem mem_of_findRetry {p : Pool} {id : Nat} {r : RetryState} (found : p.retry? id = some r) :
    r ∈ p.retries ∧ r.id = id := mem_of_find?_key found

namespace Pauses

variable {p : Pool}

theorem new (limit : Nat) : Pauses (Pool.new limit) where
  retries := List.nodup_nil
  retry_lt := by intro r mem; cases mem
  receiver_lt := by intro c mem; cases mem
  received := by intro r mem; cases mem
  owed := by intro r mem; cases mem
  apart := by intro r mem; cases mem
  awaited := by intro w mem; cases mem
  separate := by intro w mem; cases mem

theorem ticket_lt (h : Pauses p) {r : RetryState} (mem : r ∈ p.retries) {t : Nat}
    (waits : r.ticket? = some t) : t < p.fresh := by
  obtain ⟨c, hc, rfl⟩ := h.received r mem t waits
  exact h.receiver_lt c hc

/-- Tickets may be given out to others, and waiters may leave or be joined by
acquisitions. -/
theorem frame (h : Pauses p) {q : Pool} (retries : q.retries = p.retries)
    (receivers : q.receivers = p.receivers) (fresh : p.fresh ≤ q.fresh)
    (waiters : ∀ w ∈ q.entry.waiters,
      (∃ v ∈ p.entry.waiters, v.ticket = w.ticket ∧ v.kind = w.kind ∧ (w.live → v.live)) ∨
        (w.kind = .acquisition ∧ p.fresh ≤ w.ticket)) :
    Pauses q where
  retries := retries ▸ h.retries
  retry_lt := fun r mem => Nat.lt_of_lt_of_le (h.retry_lt r (retries ▸ mem)) fresh
  receiver_lt := fun c mem => Nat.lt_of_lt_of_le (h.receiver_lt c (receivers ▸ mem)) fresh
  received := by rw [retries, receivers]; exact h.received
  owed := by rw [retries]; exact h.owed
  apart := by rw [retries]; exact h.apart
  awaited := by
    intro w mem live kind
    have same : q.isWoken w.ticket = p.isWoken w.ticket := by
      rw [isWoken, receiver?, receivers, isWoken, receiver?]
    rw [retries, same]
    rcases waiters w mem with ⟨v, hv, ticket, kinds, lives⟩ | ⟨is, -⟩
    · rw [← ticket]
      exact h.awaited v hv (lives live) (kinds.trans kind)
    · rw [is] at kind
      cases kind
  separate := by
    intro w mem kind r hr waits
    rw [retries] at hr
    rcases waiters w mem with ⟨v, hv, ticket, kinds, -⟩ | ⟨-, le⟩
    · exact h.separate v hv (kinds.trans kind) r hr (ticket ▸ waits)
    · exact Nat.not_lt.mpr le (h.ticket_lt hr waits)

/-- Waiters may leave. -/
theorem shrink (h : Pauses p) {q : Pool} (retries : q.retries = p.retries)
    (receivers : q.receivers = p.receivers) (fresh : p.fresh ≤ q.fresh)
    (waiters : ∀ w ∈ q.entry.waiters, w ∈ p.entry.waiters) : Pauses q :=
  h.frame retries receivers fresh fun w mem => .inl ⟨w, waiters w mem, rfl, rfl, id⟩

theorem wake (h : Pauses p) (keyed : Keyed Waiter.ticket p.entry.waiters) :
    Pauses p.wake.1 := by
  have woke := p.wake_woke
  generalize p.wake.1 = q at woke ⊢
  have sub := woke.waiters.subset
  cases woke with
  | nobody _ => exact h.shrink rfl rfl (Nat.le_refl _) sub
  | @retry dead rest w eq _ _ _ =>
      have told : (p.sendWake w.ticket).receivers.map Receiver.ticket =
          p.receivers.map Receiver.ticket := map_replaceKey Receiver.ticket fun _ => rfl
      exact { h with
        receiver_lt := forall_mem_replaceKey (fun _ lt => lt) h.receiver_lt
        received := by
          intro r mem t parked
          have old := List.mem_map.mpr (h.received r mem t parked)
          exact List.mem_map.mp (told ▸ old)
        awaited := by
          intro v mem live kind
          have ne : v.ticket ≠ w.ticket := Keyed.ne_of_mem_tail (eq ▸ keyed) mem
          obtain ⟨parked, unwoken⟩ := h.awaited v (sub mem) live kind
          exact ⟨parked, (isWoken_sendWake_ne p ne).trans unwoken⟩
        separate := fun v mem => h.separate v (sub mem) }
  | granted _ _ _ _ _ => exact h.shrink rfl rfl (Nat.le_refl _) sub
  | kept _ _ _ _ _ => exact h.shrink rfl rfl (Nat.le_refl _) sub

theorem sweep (h : Pauses p) : Pauses p.sweep :=
  h.shrink rfl rfl (Nat.le_refl _) fun _ mem => List.mem_of_mem_filter mem

/-- The pause of an operation changes, and it waits with no other's ticket. -/
theorem setRetry (h : Pauses p) {r : RetryState} (r' : RetryState) (mem : r ∈ p.retries)
    (same : r'.id = r.id)
    (received : ∀ t, r'.ticket? = some t → ∃ c ∈ p.receivers, c.ticket = t)
    (owed : ∀ t, r'.pause = some (.parked t true) → r'.owesWake)
    (apart : ∀ s ∈ p.retries, ∀ t, s.id ≠ r.id → r'.ticket? = some t → s.ticket? ≠ some t)
    (awaited : ∀ w ∈ p.entry.waiters, w.live → w.kind = .retry →
      r.ticket? = some w.ticket → r'.ticket? = some w.ticket)
    (separate : ∀ w ∈ p.entry.waiters, w.kind = .acquisition → r'.ticket? ≠ some w.ticket) :
    Pauses (p.setRetry r') := by
  have retries_eq : (p.setRetry r').retries =
      replaceKey RetryState.id r.id (fun _ => r') p.retries := by rw [← same]; rfl
  have cases_mem : ∀ s ∈ (p.setRetry r').retries, (s ∈ p.retries ∧ s.id ≠ r.id) ∨ s = r' := by
    intro s hs
    rw [retries_eq] at hs
    rcases mem_replaceKey.mp hs with old | ⟨_, _, _, eq⟩
    · exact .inl old
    · exact .inr eq
  have new_mem : r' ∈ (p.setRetry r').retries := by
    rw [retries_eq]
    exact mem_replaceKey.mpr (.inr ⟨r, mem, rfl, rfl⟩)
  exact {
    retries := by
      rw [retries_eq]
      obtain ⟨l₁, l₂, eq, others, replaced, -⟩ := h.retries.split mem
      rw [replaced]
      have keyed := h.retries
      rw [eq] at keyed
      simpa [Keyed, same] using keyed
    retry_lt := by
      intro s hs
      rcases cases_mem s hs with ⟨hs, -⟩ | rfl
      · exact h.retry_lt s hs
      · exact same ▸ h.retry_lt r mem
    receiver_lt := h.receiver_lt
    received := by
      intro s hs t parked
      rcases cases_mem s hs with ⟨hs, -⟩ | rfl
      · exact h.received s hs t parked
      · exact received t parked
    owed := by
      intro s hs t parked
      rcases cases_mem s hs with ⟨hs, -⟩ | rfl
      · exact h.owed s hs t parked
      · exact owed t parked
    apart := by
      intro s hs u hu t waits waits'
      rcases cases_mem s hs with ⟨old, ne⟩ | is
      · rcases cases_mem u hu with ⟨old', -⟩ | is'
        · exact h.apart s old u old' t waits waits'
        · exact absurd waits (apart s old t ne (is' ▸ waits'))
      · rcases cases_mem u hu with ⟨old', ne⟩ | is'
        · exact absurd waits' (apart u old' t ne (is ▸ waits))
        · rw [is, is']
    awaited := by
      intro w hw live kind
      obtain ⟨⟨s, hs, waits⟩, unwoken⟩ := h.awaited w hw live kind
      refine ⟨?_, unwoken⟩
      by_cases is : s.id = r.id
      · have eq := h.retries.eq_of_mem hs mem is
        exact ⟨r', new_mem, awaited w hw live kind (eq ▸ waits)⟩
      · refine ⟨s, ?_, waits⟩
        rw [retries_eq]
        exact mem_replaceKey.mpr (.inl ⟨hs, is⟩)
    separate := by
      intro w hw kind s hs
      rcases cases_mem s hs with ⟨hs, -⟩ | rfl
      · exact h.separate w hw kind s hs
      · exact separate w hw kind }

/-- The owner of a waiter may leave. -/
theorem kill (h : Pauses p) (ticket : Nat) :
    Pauses { p with entry := p.entry.abandon ticket } := by
  refine h.frame rfl rfl (Nat.le_refl _) ?_
  intro w mem
  rcases mem_replaceKey.mp mem with ⟨mem, -⟩ | ⟨v, hv, _, rfl⟩
  · exact .inl ⟨w, mem, rfl, rfl, id⟩
  · exact .inl ⟨v, hv, rfl, rfl, fun live => by cases live⟩

/-- A receiver that no operation waits at may go. -/
theorem loseReceiver (h : Pauses p) {ticket : Nat}
    (unused : ∀ r ∈ p.retries, r.ticket? ≠ some ticket)
    (dead : ∀ w ∈ p.entry.waiters, w.live → w.ticket ≠ ticket) :
    Pauses { p with receivers := removeKey Receiver.ticket ticket p.receivers } :=
  { h with
    receiver_lt := fun c mem => h.receiver_lt c (mem_removeKey.mp mem).1
    received := by
      intro r mem t parked
      obtain ⟨c, hc, same⟩ := h.received r mem t parked
      refine ⟨c, mem_removeKey.mpr ⟨hc, ?_⟩, same⟩
      intro is
      exact unused r mem (is ▸ same ▸ parked)
    awaited := by
      intro w mem live kind
      obtain ⟨waits, unwoken⟩ := h.awaited w mem live kind
      refine ⟨waits, ?_⟩
      exact (isWoken_dropReceiver_ne p (dead w mem live)).trans unwoken }

theorem endPause (h : Pauses p) {r : RetryState} (mem : r ∈ p.retries) (owesWake : Bool) :
    Pauses (p.endPause r owesWake) := by
  -- First the waiter goes, then the pause, then the receiver.
  have ended : ∀ q : Pool, Pauses q → r ∈ q.retries →
      (∀ w ∈ q.entry.waiters, w.live → r.ticket? ≠ some w.ticket) →
      Pauses (q.setRetry { r with owesWake, pause := none }) := by
    intro q hq mem gone
    refine hq.setRetry _ mem rfl ?_ ?_ ?_ ?_ ?_
    · intro t parked
      cases parked
    · intro t parked
      cases parked
    · intro s _ t _ parked
      cases parked
    · intro w hw live _ parked
      exact absurd parked (gone w hw live)
    · intro w _ _ parked
      cases parked
  rw [Pool.endPause]
  cases parked : r.ticket? with
  | none => exact ended p h mem (by rw [parked]; intro w _ _ eq; cases eq)
  | some t =>
      have dead : ∀ w ∈ (p.entry.abandon t).waiters, w.live → w.ticket ≠ t := by
        intro w hw live is
        rcases mem_replaceKey.mp hw with ⟨_, ne⟩ | ⟨v, _, _, rfl⟩
        · exact ne is
        · cases live
      have stopped := ended _ (h.kill t) mem (by
        intro w hw live eq
        rw [parked, Option.some_inj] at eq
        exact dead w hw live eq.symm)
      refine stopped.loseReceiver ?_ dead
      intro s hs waits
      rcases mem_replaceKey.mp hs with ⟨hs, ne⟩ | ⟨_, _, _, rfl⟩
      · rw [h.apart s hs r mem t waits parked] at ne
        exact ne rfl
      · cases waits

/-- The end of a pause leaves the wakes of others as they are. -/
theorem endPause_hasWake (h : Pauses p) {r s : RetryState} (mem : r ∈ p.retries)
    (hs : s ∈ p.retries) (ne : s.id ≠ r.id) (owesWake : Bool) :
    (p.endPause r owesWake).hasWake s = p.hasWake s := by
  rw [hasWake_eq, hasWake_eq, Pool.endPause]
  cases waits : r.ticket? with
  | none => rfl
  | some t =>
      cases waits' : s.ticket? with
      | none => rfl
      | some u =>
          have other : u ≠ t := by
            rintro rfl
            exact ne (congrArg RetryState.id (h.apart s hs r mem u waits' waits))
          exact isWoken_dropReceiver_ne p other

theorem delay (h : Pauses p) {r : RetryState} (mem : r ∈ p.retries) (awake : r.pause = none) :
    Pauses (p.pauseDelayed r) := by
  refine h.setRetry _ mem rfl ?_ ?_ ?_ ?_ ?_
  · intro t parked
    cases parked
  · intro t parked
    cases parked
  · intro s _ t _ parked
    cases parked
  · intro w _ _ _ parked
    rw [RetryState.ticket?, awake] at parked
    cases parked
  · intro w _ _ parked
    cases parked

/-- An operation that does not pause joins the queue. -/
theorem lineUp (h : Pauses p) (waiter_lt : ∀ w ∈ p.entry.waiters, w.ticket < p.fresh)
    {r : RetryState} (mem : r ∈ p.retries) (awake : r.pause = none)
    {owed : Bool} (owes : owed → r.owesWake) :
    Pauses (p.joinQueue.setRetry { r with pause := some (.parked p.fresh owed) }) := by
  -- First the receiver comes, then the pause, then the waiter.
  have offered : Pauses { p with
      receivers := p.receivers ++ [⟨p.fresh, false⟩]
      fresh := p.fresh + 1 } :=
    { h with
      retry_lt := fun s hs => Nat.lt_succ_of_lt (h.retry_lt s hs)
      receiver_lt := lt_succ_of_mem_append h.receiver_lt
      received := by
        intro s hs t waits
        obtain ⟨c, hc, same⟩ := h.received s hs t waits
        exact ⟨c, List.mem_append_left _ hc, same⟩
      awaited := by
        intro w hw live kind
        obtain ⟨⟨s, hs, waits⟩, unwoken⟩ := h.awaited w hw live kind
        obtain ⟨c, hc, same⟩ := h.received s hs _ waits
        exact ⟨⟨s, hs, waits⟩,
          (isWoken_joinQueue p (same ▸ h.receiver_lt c hc)).trans unwoken⟩ }
  have unparked : r.ticket? = none := by rw [RetryState.ticket?, awake]
  have paused := offered.setRetry { r with pause := some (.parked p.fresh owed) }
    mem rfl ?_ ?_ ?_ ?_ ?_
  · exact { paused with
      awaited := by
        intro w hw live kind
        rcases List.mem_append.mp hw with hw | hw
        · exact paused.awaited w hw live kind
        · rw [List.mem_singleton.mp hw]
          refine ⟨⟨_, mem_replaceKey.mpr (.inr ⟨r, mem, rfl, rfl⟩), rfl⟩, ?_⟩
          exact isWoken_fresh p h.receiver_lt
      separate := by
        intro w hw kind
        rcases List.mem_append.mp hw with hw | hw
        · exact paused.separate w hw kind
        · rw [List.mem_singleton.mp hw] at kind
          cases kind }
  · intro t parked
    cases parked
    exact ⟨⟨p.fresh, false⟩, List.mem_append_right _ (by simp), rfl⟩
  · intro t parked
    cases parked
    exact owes rfl
  · intro s hs t _ parked waits
    cases parked
    exact absurd (h.ticket_lt hs waits) (Nat.lt_irrefl _)
  · intro w _ _ _ parked
    rw [unparked] at parked
    cases parked
  · intro w hw _ parked
    have eq : p.fresh = w.ticket := Option.some.inj parked
    exact Nat.ne_of_gt (waiter_lt w hw) eq

theorem park (h : Pauses p) {limit : Nat} (slots : Slots limit p) {r : RetryState}
    (mem : r ∈ p.retries) (awake : r.pause = none) (autocommit : Bool) :
    Pauses (p.pauseParked r autocommit).1 := by
  rw [pauseParked_eq]
  have owes : ∀ b, (r.owesWake && b) = true → r.owesWake = true :=
    fun b both => (Bool.and_eq_true_iff.mp both).1
  cases passes : p.passesOn autocommit r.owesWake with
  | true =>
      have woke := p.sweep.wake_woke
      have joined := (h.sweep.wake slots.sweep.waiters).lineUp slots.sweep.wake.waiter_lt
        (woke.retries ▸ mem) awake (owes (!true))
      rwa [woke.fresh] at joined
  | false => exact h.sweep.lineUp slots.sweep.waiter_lt mem awake (owes (!false))

theorem forgetRetry (h : Pauses p) {r : RetryState} (mem : r ∈ p.retries) :
    Pauses (p.forgetRetry r) := by
  have ended := h.endPause mem r.owesWake
  rw [← cancelPause_eq] at ended
  have sub : ∀ s ∈ (p.forgetRetry r).retries, s ∈ (p.cancelPause r).retries :=
    fun s hs => (mem_removeKey.mp hs).1
  exact { ended with
    retries := ended.retries.remove
    retry_lt := fun s hs => ended.retry_lt s (sub s hs)
    received := fun s hs => ended.received s (sub s hs)
    owed := fun s hs => ended.owed s (sub s hs)
    apart := fun s hs u hu => ended.apart s (sub s hs) u (sub u hu)
    separate := fun w hw kind s hs => ended.separate w hw kind s (sub s hs)
    awaited := by
      intro w hw live kind
      obtain ⟨⟨s, hs, waits⟩, unwoken⟩ := ended.awaited w hw live kind
      refine ⟨⟨s, mem_removeKey.mpr ⟨hs, ?_⟩, waits⟩, unwoken⟩
      intro is
      -- The operation itself pauses no more.
      rw [cancelPause_eq, endPause_retries] at hs
      rcases mem_replaceKey.mp hs with ⟨_, ne⟩ | ⟨_, _, _, rfl⟩
      · exact ne is
      · cases waits }

theorem endRetries (h : Pauses p) {limit : Nat} (slots : Slots limit p) (id : Nat) :
    Pauses (p.endRetries id).1 := by
  cases found : p.retry? id with
  | none => rwa [endRetries_none found]
  | some r =>
      have forgotten := h.forgetRetry (mem_of_findRetry found).1
      rw [endRetries_some found]
      split
      · exact forgotten.wake (slots.forgetRetry r).waiters
      · exact forgotten

theorem beginRetries (h : Pauses p) : Pauses p.beginRetries.1 := by
  have cases_mem : ∀ s ∈ p.beginRetries.1.retries, s ∈ p.retries ∨ s = { id := p.fresh } :=
    fun s hs => (List.mem_append.mp hs).imp id List.mem_singleton.mp
  exact {
    retries := h.retries.append_fresh h.retry_lt
    retry_lt := lt_succ_of_mem_append h.retry_lt
    receiver_lt := fun c mem => Nat.lt_succ_of_lt (h.receiver_lt c mem)
    received := by
      intro s hs t waits
      rcases cases_mem s hs with hs | rfl
      · exact h.received s hs t waits
      · cases waits
    owed := by
      intro s hs t parked
      rcases cases_mem s hs with hs | rfl
      · exact h.owed s hs t parked
      · cases parked
    apart := by
      intro s hs u hu t waits waits'
      rcases cases_mem s hs with hs | rfl
      · rcases cases_mem u hu with hu | rfl
        · exact h.apart s hs u hu t waits waits'
        · cases waits'
      · cases waits
    awaited := by
      intro w hw live kind
      obtain ⟨⟨s, hs, waits⟩, unwoken⟩ := h.awaited w hw live kind
      exact ⟨⟨s, List.mem_append_left _ hs, waits⟩, unwoken⟩
    separate := by
      intro w hw kind s hs waits
      rcases cases_mem s hs with hs | rfl
      · exact h.separate w hw kind s hs waits
      · cases waits }

theorem acquire (h : Pauses p) : Pauses p.acquire.1 := by
  by_cases free : p.entry.inUse < p.entry.limit
  · rw [acquire_granted free]
    exact h.shrink rfl rfl (Nat.le_succ _) fun _ mem => mem
  · rw [acquire_queued free]
    refine h.frame rfl rfl (Nat.le_succ _) ?_
    intro w mem
    rcases List.mem_append.mp mem with mem | mem
    · exact .inl ⟨w, mem, rfl, rfl, id⟩
    · rw [List.mem_singleton.mp mem]
      exact .inr ⟨rfl, Nat.le_refl _⟩

theorem claim (h : Pauses p) (ticket : Nat) (isOpen : Nat → Bool) :
    Pauses (p.claim ticket isOpen).1 := by
  rcases p.claim_cases ticket isOpen with ⟨_, _, _, _, eq⟩ | ⟨_, eq⟩
  · rw [eq]
    exact { h with }
  · rw [eq]
    exact { h with }

theorem abandon (h : Pauses p) {limit : Nat} (slots : Slots limit p) (ticket : Nat) :
    Pauses (p.abandon ticket).1 := by
  cases found : p.stage? ticket with
  | none => rwa [abandon_none found]
  | some stage =>
      by_cases waits : stage = .queued
      · subst waits
        rw [abandon_queued found]
        exact { h.kill ticket with }
      · rw [abandon_slot found waits]
        have freed : Pauses (p.dropAcquisition ticket).freeSlot := { h with }
        exact freed.wake slots.waiters

theorem giveBack (h : Pauses p) (conn : Nat) (deadline : Option Nat) :
    Pauses (p.giveBack conn deadline) := by
  cases deadline with
  | none => exact { h with }
  | some deadline => exact h.shrink rfl rfl (Nat.le_succ _) fun _ mem => mem

theorem release (h : Pauses p) {limit : Nat} (slots : Slots limit p) (conn : Nat)
    (deadline : Option Nat) : Pauses (p.release conn deadline).1 := by
  rw [release_eq]
  apply (h.giveBack conn deadline).wake
  cases deadline with
  | none => exact slots.waiters
  | some _ => exact slots.waiters

theorem fire (h : Pauses p) (timer : Nat) : Pauses (p.fire timer).1 := by
  rcases p.fire_cases timer with eq | ⟨_, _, _, eq⟩
  · rwa [eq]
  · rw [eq]
    exact { h with }

/-- Every step keeps the invariant. -/
theorem after (h : Pauses p) {limit : Nat} (slots : Slots limit p) (e : Event)
    (permitted : p.permits e) : Pauses (p.after e) := by
  cases e with
  | beginOpen => exact { h with }
  | endOpen opened => cases opened <;> exact { h with }
  | closePrimary => exact { h with }
  | leasePrimary => exact { h with }
  | releasePrimary => exact { h.wake slots.waiters with }
  | acquire => exact h.acquire
  | claim ticket isOpen => exact h.claim ticket isOpen
  | opened ticket conn => exact { h with }
  | lease ticket conn => exact { h with }
  | initializerFailed ticket conn => exact { h with }
  | abandon ticket => exact h.abandon slots ticket
  | release conn deadline => exact h.release slots conn deadline
  | fire timer => exact h.fire timer
  | drainIdle => exact { h with }
  | beginShutdown => exact { h with }
  | endShutdown => exact { h with }
  | beginRetries => exact h.beginRetries
  | park id autocommit =>
      obtain ⟨r, found, awake⟩ := retry_of_hasRetry permitted
      rw [Pool.after, withRetry_eq found]
      exact h.park slots (mem_of_findRetry found).1 (Option.isNone_iff_eq_none.mp awake)
        autocommit
  | delay id =>
      obtain ⟨r, found, awake⟩ := retry_of_hasRetry permitted
      rw [Pool.after, withRetry_eq found]
      exact h.delay (mem_of_findRetry found).1 (Option.isNone_iff_eq_none.mp awake)
  | resume id =>
      obtain ⟨r, found, _⟩ := retry_of_hasRetry permitted
      rw [Pool.after, withRetry_eq found, resume_eq]
      exact h.endPause (mem_of_findRetry found).1 _
  | cancelPause id =>
      obtain ⟨r, found, _⟩ := retry_of_hasRetry permitted
      rw [Pool.after, withRetry_eq found, cancelPause_eq]
      exact h.endPause (mem_of_findRetry found).1 _
  | endRetries id => exact h.endRetries slots id

end Pauses

theorem Run.pauses {limit lost : Nat} {p : Pool} (run : Run limit lost p) : Pauses p := by
  induction run with
  | new => exact Pauses.new limit
  | step e run permitted ih => exact ih.after run.slots e permitted

end Pool

end ConnectionPool
