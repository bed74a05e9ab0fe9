import ConnectionPool.Proofs.Pool.Waking

/-!
# Slots

A pool has as many slots as its limit says.  Each slot taken belongs to one acquisition
that was granted it or to one lease, and the books count them: `inUse` is the number of
both.  The pooled connections are more than that, since idle ones take no slot.  They
stay within the limit as well, but not because of the count of slots: a connection
that is given back becomes idle and its slot may go to the next acquisition in the same
step.  That acquisition has no connection yet.  When it goes on it takes the idle
connection, and it opens one only when no idle connection is left.

`Pool.Slots` is the invariant that says so.  It holds in every reachable pool
(`Reachable.slots`), by one lemma for each kind of step.
-/

namespace ConnectionPool

/-- The acquisition has a slot. -/
def Acquisition.hasSlot (a : Acquisition) : Bool := a.stage != .queued

/-- The acquisition opens a connection, or has one that it opened. -/
def Acquisition.hasConnection (a : Acquisition) : Bool :=
  match a.stage with
  | .opening | .preparing _ | .closing _ => true
  | .queued | .granted => false

theorem Acquisition.hasSlot_of_hasConnection {a : Acquisition} (h : a.hasConnection) :
    a.hasSlot := by
  obtain ⟨ticket, stage⟩ := a
  cases stage with
  | queued => cases h
  | granted => cases h
  | opening => rfl
  | preparing _ => rfl
  | closing _ => rfl

namespace Pool

/-- The pooled connections that are leased, being opened or prepared, or idle.  One
whose initializer failed counts until it is closed.  One that a timer or a shutdown took
to close it counts no longer. -/
def pooled (p : Pool) : Nat :=
  p.leases.length + p.acquisitions.countP Acquisition.hasConnection + p.entry.idle.length

/-- Slots and pooled connections are accounted for. -/
structure Slots (limit : Nat) (p : Pool) : Prop where
  /-- The limit never changes. -/
  limit_eq : p.entry.limit = limit
  /-- Acquisitions have different tickets. -/
  acquisitions : Keyed Acquisition.ticket p.acquisitions
  /-- Their tickets were given out. -/
  acquisition_lt : ∀ a ∈ p.acquisitions, a.ticket < p.fresh
  /-- Waiters have different tickets. -/
  waiters : Keyed Waiter.ticket p.entry.waiters
  /-- Their tickets were given out. -/
  waiter_lt : ∀ w ∈ p.entry.waiters, w.ticket < p.fresh
  /-- Behind a live waiter for a slot is an acquisition that has none. -/
  queued : ∀ w ∈ p.entry.waiters, w.isAcquisition →
    ∃ a ∈ p.acquisitions, a.ticket = w.ticket ∧ a.stage = .queued
  /-- A slot belongs to an acquisition or to a lease. -/
  inUse_eq : p.entry.inUse = p.acquisitions.countP Acquisition.hasSlot + p.leases.length
  /-- Slots are within the limit. -/
  inUse_le : p.entry.inUse ≤ limit
  /-- Pooled connections are within the limit. -/
  pooled_le : p.pooled ≤ limit

theorem mem_of_stage? {p : Pool} {ticket : Nat} {stage : Acquisition.Stage}
    (found : p.stage? ticket = some stage) : (⟨ticket, stage⟩ : Acquisition) ∈ p.acquisitions := by
  obtain ⟨a, find, rfl⟩ := Option.map_eq_some_iff.mp found
  obtain ⟨mem, rfl⟩ := mem_of_find?_key find
  exact mem

namespace Slots

variable {limit : Nat} {p : Pool}

theorem new (limit : Nat) : Slots limit (Pool.new limit) where
  limit_eq := rfl
  acquisitions := List.nodup_nil
  acquisition_lt := by intro a mem; cases mem
  waiters := List.nodup_nil
  waiter_lt := by intro w mem; cases mem
  queued := by intro w mem; cases mem
  inUse_eq := rfl
  inUse_le := Nat.zero_le limit
  pooled_le := Nat.zero_le limit

/-! ## Waiters -/

/-- Waiters may leave. -/
theorem shrink (h : Slots limit p) {ws : List Waiter}
    (sub : List.Sublist ws p.entry.waiters) :
    Slots limit (p.withWaiters ws p.entry.inUse) :=
  { h with
    waiters := h.waiters.sublist sub
    waiter_lt := fun w mem => h.waiter_lt w (sub.subset mem)
    queued := fun w mem => h.queued w (sub.subset mem) }

/-- The first live waiter may be granted a slot. -/
theorem grant (h : Slots limit p) {dead rest : List Waiter} {w : Waiter}
    (eq : p.entry.waiters = dead ++ w :: rest) (sub : List.Sublist rest p.entry.waiters)
    (acquisition : w.isAcquisition) (free : p.entry.inUse < p.entry.limit) :
    Slots limit ((p.withWaiters rest (p.entry.inUse + 1)).setStage w.ticket .granted) := by
  have mem : w ∈ p.entry.waiters := by simp [eq]
  obtain ⟨a, ha, ticket_eq, stage_eq⟩ := h.queued w mem acquisition
  have others : ∀ v ∈ rest, v.ticket ≠ w.ticket :=
    fun v hv => Keyed.ne_of_mem_tail (eq ▸ h.waiters) hv
  let grant (b : Acquisition) : Acquisition := { b with stage := .granted }
  have slots := countP_replaceKey (f := grant) h.acquisitions ha ticket_eq Acquisition.hasSlot
  have connections := countP_replaceKey (f := grant) h.acquisitions ha ticket_eq
    Acquisition.hasConnection
  have no_slot : a.hasSlot = false := by rw [Acquisition.hasSlot, stage_eq]; rfl
  have no_connection : a.hasConnection = false := by rw [Acquisition.hasConnection, stage_eq]
  rw [no_slot, show (grant a).hasSlot = true from rfl] at slots
  rw [no_connection, show (grant a).hasConnection = false from rfl] at connections
  have inUse_eq := h.inUse_eq
  have pooled_le := h.pooled_le
  have limit_eq := h.limit_eq
  exact {
    limit_eq := h.limit_eq
    acquisitions := h.acquisitions.replace (f := grant) fun _ => rfl
    acquisition_lt := forall_mem_replaceKey (f := grant) (fun _ lt => lt) h.acquisition_lt
    waiters := h.waiters.sublist sub
    waiter_lt := fun v hv => h.waiter_lt v (sub.subset hv)
    queued := by
      intro v hv hw
      obtain ⟨b, hb, eq, stage⟩ := h.queued v (sub.subset hv) hw
      exact ⟨b, mem_replaceKey.mpr (.inl ⟨hb, eq ▸ others v hv⟩), eq, stage⟩
    inUse_eq := by
      show p.entry.inUse + 1 = (replaceKey _ _ grant p.acquisitions).countP _ + p.leases.length
      simp only [if_true, Bool.false_eq_true, if_false] at slots
      omega
    inUse_le := by
      show p.entry.inUse + 1 ≤ limit
      omega
    pooled_le := by
      show p.leases.length + (replaceKey _ _ grant p.acquisitions).countP _
        + p.entry.idle.length ≤ limit
      unfold pooled at pooled_le
      omega }

theorem wake (h : Slots limit p) : Slots limit p.wake.1 := by
  have woke := p.wake_woke
  generalize p.wake.1 = q at woke ⊢
  have sub := woke.waiters
  cases woke with
  | nobody _ => exact h.shrink sub
  | retry _ _ _ _ => exact { h.shrink sub with }
  | granted eq _ live kind free =>
      exact h.grant eq sub (by rw [Waiter.isAcquisition, live, kind]; rfl) free
  | kept _ _ _ _ _ => exact h.shrink sub

theorem sweep (h : Slots limit p) : Slots limit p.sweep := h.shrink List.filter_sublist

theorem joinQueue (h : Slots limit p) : Slots limit p.joinQueue :=
  { h with
    acquisition_lt := fun a mem => Nat.lt_succ_of_lt (h.acquisition_lt a mem)
    waiters := h.waiters.append_fresh h.waiter_lt
    waiter_lt := lt_succ_of_mem_append h.waiter_lt
    queued := by
      intro w mem acquisition
      rcases List.mem_append.mp mem with mem | mem
      · exact h.queued w mem acquisition
      · rw [List.mem_singleton.mp mem] at acquisition
        cases acquisition }

theorem park (h : Slots limit p) (autocommit owesWake : Bool) :
    Slots limit (p.park autocommit owesWake).1 := by
  rw [park_eq]
  apply joinQueue
  split
  · exact h.sweep.wake
  · exact h.sweep

/-- The owner of a waiter may leave. -/
theorem kill (h : Slots limit p) (ticket : Nat) :
    Slots limit { p with entry := p.entry.abandon ticket } := by
  have kept : ∀ w ∈ (p.entry.abandon ticket).waiters, ∃ v ∈ p.entry.waiters,
      v.ticket = w.ticket ∧ (w.isAcquisition → v.isAcquisition) := by
    intro w mem
    obtain ⟨v, hv, rfl⟩ := List.mem_map.mp mem
    refine ⟨v, hv, ?_⟩
    by_cases eq : v.ticket = ticket
    · rw [if_pos eq]
      exact ⟨rfl, fun dead => by cases dead⟩
    · rw [if_neg eq]
      exact ⟨rfl, id⟩
  exact { h with
    waiters := by
      refine Keyed.replace (f := fun w => { w with live := false }) h.waiters fun _ => rfl
    waiter_lt := by
      intro w mem
      obtain ⟨v, hv, eq, -⟩ := kept w mem
      exact eq ▸ h.waiter_lt v hv
    queued := by
      intro w mem acquisition
      obtain ⟨v, hv, eq, still⟩ := kept w mem
      exact eq ▸ h.queued v hv (still acquisition) }

/-! ## Idle connections -/

/-- Idle connections may leave, and timers change. -/
theorem loseIdle (h : Slots limit p) (idle : List Idle) (timers : List GraceTimer)
    (fewer : idle.length ≤ p.entry.idle.length) :
    Slots limit { p with entry := { p.entry with idle }, timers } :=
  { h with
    pooled_le := by
      have le := h.pooled_le
      unfold pooled at le
      show p.leases.length + p.acquisitions.countP _ + idle.length ≤ limit
      omega }

theorem fire (h : Slots limit p) (timer : Nat) : Slots limit (p.fire timer).1 := by
  rcases p.fire_cases timer with eq | ⟨_, _, fewer, eq⟩
  · rwa [eq]
  · rw [eq]
    exact h.loseIdle _ _ fewer

theorem drainIdle (h : Slots limit p) : Slots limit p.drainIdle.1 :=
  h.loseIdle _ _ (Nat.zero_le _)

/-! ## Acquisitions -/

theorem acquire (h : Slots limit p) : Slots limit p.acquire.1 := by
  have limit_eq := h.limit_eq
  have inUse_eq := h.inUse_eq
  have pooled_le := h.pooled_le
  unfold pooled at pooled_le
  by_cases free : p.entry.inUse < p.entry.limit
  · rw [acquire_granted free]
    exact {
      limit_eq := h.limit_eq
      acquisitions := h.acquisitions.append_fresh h.acquisition_lt
      acquisition_lt := lt_succ_of_mem_append h.acquisition_lt
      waiters := h.waiters
      waiter_lt := fun w mem => Nat.lt_succ_of_lt (h.waiter_lt w mem)
      queued := by
        intro w mem acquisition
        obtain ⟨a, ha, found⟩ := h.queued w mem acquisition
        exact ⟨a, List.mem_append_left _ ha, found⟩
      inUse_eq := by
        show p.entry.inUse + 1 =
          List.countP Acquisition.hasSlot (p.acquisitions ++ [⟨p.fresh, .granted⟩]) + _
        rw [List.countP_append, List.countP_singleton]
        show _ = List.countP _ _ + 1 + p.leases.length
        omega
      inUse_le := by
        show p.entry.inUse + 1 ≤ limit
        omega
      pooled_le := by
        show p.leases.length +
          List.countP Acquisition.hasConnection (p.acquisitions ++ [⟨p.fresh, .granted⟩]) + _ ≤
            limit
        rw [List.countP_append, List.countP_singleton]
        exact pooled_le }
  · rw [acquire_queued free]
    exact {
      limit_eq := h.limit_eq
      acquisitions := h.acquisitions.append_fresh h.acquisition_lt
      acquisition_lt := lt_succ_of_mem_append h.acquisition_lt
      waiters := h.waiters.append_fresh h.waiter_lt
      waiter_lt := lt_succ_of_mem_append h.waiter_lt
      queued := by
        intro w mem acquisition
        rcases List.mem_append.mp mem with mem | mem
        · obtain ⟨a, ha, found⟩ := h.queued w mem acquisition
          exact ⟨a, List.mem_append_left _ ha, found⟩
        · rw [List.mem_singleton.mp mem]
          exact ⟨⟨p.fresh, .queued⟩, List.mem_append_right _ (by simp), rfl, rfl⟩
      inUse_eq := by
        show p.entry.inUse =
          List.countP Acquisition.hasSlot (p.acquisitions ++ [⟨p.fresh, .queued⟩]) + _
        rw [List.countP_append, List.countP_singleton]
        exact inUse_eq
      inUse_le := h.inUse_le
      pooled_le := by
        show p.leases.length +
          List.countP Acquisition.hasConnection (p.acquisitions ++ [⟨p.fresh, .queued⟩]) + _ ≤ limit
        rw [List.countP_append, List.countP_singleton]
        exact pooled_le }

/-- The stage of an acquisition with a slot changes. -/
theorem advance (h : Slots limit p) {ticket : Nat} {old : Acquisition.Stage}
    (found : p.stage? ticket = some old) (stage : Acquisition.Stage)
    (slot : (⟨ticket, old⟩ : Acquisition).hasSlot)
    (slot' : (⟨ticket, stage⟩ : Acquisition).hasSlot)
    (within : (p.setStage ticket stage).pooled ≤ limit) :
    Slots limit (p.setStage ticket stage) := by
  have mem := mem_of_stage? found
  let change (a : Acquisition) : Acquisition := { a with stage }
  have slots := countP_replaceKey (k := ticket) (f := change) h.acquisitions mem rfl
    Acquisition.hasSlot
  rw [if_pos slot, if_pos (show (change _).hasSlot from slot')] at slots
  exact { h with
    acquisitions := h.acquisitions.replace (f := change) fun _ => rfl
    acquisition_lt := forall_mem_replaceKey (f := change) (fun _ lt => lt) h.acquisition_lt
    queued := by
      intro w hw acquisition
      obtain ⟨b, hb, eq, waits⟩ := h.queued w hw acquisition
      refine ⟨b, mem_replaceKey.mpr (.inl ⟨hb, ?_⟩), eq, waits⟩
      intro same
      have found : b = ⟨ticket, old⟩ := h.acquisitions.eq_of_mem hb mem same
      rw [Acquisition.hasSlot, ← found, waits] at slot
      cases slot
    inUse_eq := by
      have eq := h.inUse_eq
      show p.entry.inUse =
        List.countP Acquisition.hasSlot (replaceKey _ _ change p.acquisitions) + p.leases.length
      omega
    pooled_le := within }

/-- An acquisition that has a connection changes its stage. -/
theorem proceed (h : Slots limit p) {ticket : Nat} {old stage : Acquisition.Stage}
    (found : p.stage? ticket = some old) (connected : (⟨ticket, old⟩ : Acquisition).hasConnection)
    (connected' : (⟨ticket, stage⟩ : Acquisition).hasConnection) :
    Slots limit (p.setStage ticket stage) := by
  refine h.advance found stage (Acquisition.hasSlot_of_hasConnection connected)
    (Acquisition.hasSlot_of_hasConnection connected') ?_
  let change (a : Acquisition) : Acquisition := { a with stage }
  have connections := countP_replaceKey (k := ticket) (f := change) h.acquisitions
    (mem_of_stage? found)
    rfl Acquisition.hasConnection
  rw [if_pos connected, if_pos (show (change _).hasConnection from connected')] at connections
  have le := h.pooled_le
  unfold pooled at le
  show p.leases.length +
    List.countP Acquisition.hasConnection (replaceKey _ _ change p.acquisitions) +
      p.entry.idle.length ≤ limit
  omega

/-- An acquisition leaves with its slot, and the slot is given back or its connection is
leased. -/
theorem finish (h : Slots limit p) {ticket : Nat} {stage : Acquisition.Stage}
    (found : p.stage? ticket = some stage) (slot : (⟨ticket, stage⟩ : Acquisition).hasSlot)
    (leases : List Nat) (inUse : Nat) (idle : List Idle) (timers : List GraceTimer)
    (inUse_eq : inUse + 1 + p.leases.length = p.entry.inUse + leases.length)
    (inUse_le : inUse ≤ p.entry.inUse)
    (within : leases.length + idle.length ≤ p.leases.length + p.entry.idle.length +
      (if (⟨ticket, stage⟩ : Acquisition).hasConnection then 1 else 0)) :
    Slots limit { p.dropAcquisition ticket with
      entry := { p.entry with inUse, idle }, leases, timers } := by
  have mem := mem_of_stage? found
  have slots := countP_removeKey (k := ticket) h.acquisitions mem rfl Acquisition.hasSlot
  have connections := countP_removeKey (k := ticket) h.acquisitions mem rfl
    Acquisition.hasConnection
  rw [if_pos slot] at slots
  exact { h with
    acquisitions := h.acquisitions.remove
    acquisition_lt := fun b hb => h.acquisition_lt b (mem_removeKey.mp hb).1
    queued := by
      intro w hw acquisition
      obtain ⟨b, hb, eq, waits⟩ := h.queued w hw acquisition
      refine ⟨b, mem_removeKey.mpr ⟨hb, ?_⟩, eq, waits⟩
      intro same
      have found : b = ⟨ticket, stage⟩ := h.acquisitions.eq_of_mem hb mem same
      rw [Acquisition.hasSlot, ← found, waits] at slot
      cases slot
    inUse_eq := by
      have eq := h.inUse_eq
      show inUse = List.countP Acquisition.hasSlot
        (removeKey Acquisition.ticket ticket p.acquisitions) + leases.length
      omega
    inUse_le := Nat.le_trans inUse_le h.inUse_le
    pooled_le := by
      have le := h.pooled_le
      unfold pooled at le
      show leases.length + List.countP Acquisition.hasConnection
        (removeKey Acquisition.ticket ticket p.acquisitions) + idle.length ≤ limit
      omega }

/-- An acquisition that waits leaves, and a dead waiter stays. -/
theorem dropQueued (h : Slots limit p) {ticket : Nat} (found : p.stage? ticket = some .queued) :
    Slots limit { p.dropAcquisition ticket with entry := p.entry.abandon ticket } := by
  have mem := mem_of_stage? found
  have slots := countP_removeKey (k := ticket) h.acquisitions mem rfl Acquisition.hasSlot
  have connections := countP_removeKey (k := ticket) h.acquisitions mem rfl
    Acquisition.hasConnection
  have killed := h.kill ticket
  exact { killed with
    acquisitions := h.acquisitions.remove
    acquisition_lt := fun b hb => h.acquisition_lt b (mem_removeKey.mp hb).1
    queued := by
      intro w hw acquisition
      obtain ⟨b, hb, eq, waits⟩ := killed.queued w hw acquisition
      refine ⟨b, mem_removeKey.mpr ⟨hb, ?_⟩, eq, waits⟩
      intro same
      -- The waiter with this ticket is dead now.
      obtain ⟨v, _, rfl⟩ := List.mem_map.mp hw
      by_cases is : v.ticket = ticket
      · rw [if_pos is] at acquisition
        cases acquisition
      · rw [if_neg is] at eq
        exact is (eq ▸ same)
    inUse_eq := by
      have eq := killed.inUse_eq
      show p.entry.inUse = List.countP Acquisition.hasSlot
        (removeKey Acquisition.ticket ticket p.acquisitions) + p.leases.length
      exact eq.trans (by rw [← slots]; rfl)
    pooled_le := by
      have le := h.pooled_le
      unfold pooled at le
      show p.leases.length + List.countP Acquisition.hasConnection
        (removeKey Acquisition.ticket ticket p.acquisitions) + p.entry.idle.length ≤ limit
      omega }

/-- While an acquisition has a slot, some slot is taken. -/
theorem inUse_pos (h : Slots limit p) {ticket : Nat} {stage : Acquisition.Stage}
    (found : p.stage? ticket = some stage) (slot : (⟨ticket, stage⟩ : Acquisition).hasSlot) :
    0 < p.entry.inUse := by
  have eq := h.inUse_eq
  have some := List.countP_pos_iff.mpr ⟨_, mem_of_stage? found, slot⟩
  omega

theorem claim (h : Slots limit p) {ticket : Nat} {isOpen : Nat → Bool}
    (found : p.stage? ticket = some .granted) : Slots limit (p.claim ticket isOpen).1 := by
  rcases p.claim_cases ticket isOpen with ⟨i, idle, timers, fewer, eq⟩ | ⟨timers, eq⟩
  · rw [eq]
    refine h.finish found rfl (p.leases ++ [i.conn]) p.entry.inUse idle timers ?_
      (Nat.le_refl _) ?_
    · rw [List.length_append, List.length_singleton]
      omega
    · rw [List.length_append, List.length_singleton]
      omega
  · rw [eq]
    have drained := h.loseIdle [] timers (Nat.zero_le _)
    refine drained.advance found .opening rfl rfl ?_
    -- No idle connection is left, so every connection has a slot of its own.
    let opening (a : Acquisition) : Acquisition := { a with stage := .opening }
    have slots := countP_replaceKey (k := ticket) (f := opening) h.acquisitions
      (mem_of_stage? found) rfl Acquisition.hasSlot
    have fewer : List.countP Acquisition.hasConnection
        (replaceKey Acquisition.ticket ticket opening p.acquisitions) ≤
        List.countP Acquisition.hasSlot
          (replaceKey Acquisition.ticket ticket opening p.acquisitions) :=
      List.countP_mono_left fun a _ connected => Acquisition.hasSlot_of_hasConnection connected
    have before : (⟨ticket, .granted⟩ : Acquisition).hasSlot := rfl
    have after : (opening ⟨ticket, .granted⟩).hasSlot := rfl
    rw [if_pos before, if_pos after] at slots
    have inUse_eq := h.inUse_eq
    have inUse_le := h.inUse_le
    show p.leases.length + List.countP Acquisition.hasConnection
      (replaceKey Acquisition.ticket ticket opening p.acquisitions) + 0 ≤ limit
    omega

theorem lease (h : Slots limit p) {ticket conn : Nat}
    (found : p.stage? ticket = some (.preparing conn)) : Slots limit (p.lease ticket conn) := by
  refine h.finish found rfl (p.leases ++ [conn]) p.entry.inUse p.entry.idle p.timers ?_
    (Nat.le_refl _) ?_
  · rw [List.length_append, List.length_singleton]
    omega
  · rw [List.length_append, List.length_singleton]
    show _ ≤ _ + 1
    omega

/-- An acquisition with a slot leaves, and gives its slot back. -/
theorem dropSlot (h : Slots limit p) {ticket : Nat} {stage : Acquisition.Stage}
    (found : p.stage? ticket = some stage) (slot : stage ≠ .queued) :
    Slots limit (p.dropAcquisition ticket).freeSlot := by
  have used := h.inUse_pos found (bne_iff_ne.mpr slot)
  refine h.finish found (bne_iff_ne.mpr slot) p.leases (p.entry.inUse - 1) p.entry.idle p.timers
    ?_ ?_ ?_
  · omega
  · omega
  · omega

theorem abandon (h : Slots limit p) (ticket : Nat) : Slots limit (p.abandon ticket).1 := by
  cases found : p.stage? ticket with
  | none => rwa [abandon_none found]
  | some stage =>
      by_cases waits : stage = .queued
      · subst waits
        rw [abandon_queued found]
        exact h.dropQueued found
      · rw [abandon_slot found waits]
        exact (h.dropSlot found waits).wake

theorem giveBack (h : Slots limit p) {conn : Nat} (leased : conn ∈ p.leases)
    (deadline : Option Nat) : Slots limit (p.giveBack conn deadline) := by
  have fewer : (p.leases.erase conn).length + 1 = p.leases.length := by
    have := List.length_pos_of_mem leased
    rw [List.length_erase_of_mem leased]
    omega
  have inUse_eq := h.inUse_eq
  have inUse_le := h.inUse_le
  have pooled_le := h.pooled_le
  unfold pooled at pooled_le
  cases deadline with
  | none =>
      exact { h with
        inUse_eq := by
          show p.entry.inUse - 1 =
            p.acquisitions.countP Acquisition.hasSlot + (p.leases.erase conn).length
          omega
        inUse_le := by
          show p.entry.inUse - 1 ≤ limit
          omega
        pooled_le := by
          show (p.leases.erase conn).length +
            p.acquisitions.countP Acquisition.hasConnection + p.entry.idle.length ≤ limit
          omega }
  | some deadline =>
      exact { h with
        acquisition_lt := fun a mem => Nat.lt_succ_of_lt (h.acquisition_lt a mem)
        waiter_lt := fun w mem => Nat.lt_succ_of_lt (h.waiter_lt w mem)
        inUse_eq := by
          show p.entry.inUse - 1 =
            p.acquisitions.countP Acquisition.hasSlot + (p.leases.erase conn).length
          omega
        inUse_le := by
          show p.entry.inUse - 1 ≤ limit
          omega
        pooled_le := by
          show (p.leases.erase conn).length + p.acquisitions.countP Acquisition.hasConnection +
            (p.entry.idle ++ [_]).length ≤ limit
          rw [List.length_append, List.length_singleton]
          omega }

theorem release (h : Slots limit p) {conn : Nat} (leased : conn ∈ p.leases)
    (deadline : Option Nat) : Slots limit (p.release conn deadline).1 := by
  rw [release_eq]
  exact (h.giveBack leased deadline).wake

/-! ## Steps and runs -/

/-- What a step does with an operation that may retry, `Slots` does not see. -/
theorem ofRetry (h : Slots limit p) {id : Nat} {f : RetryState → Pool}
    (keeps : ∀ r, Slots limit (f r)) : Slots limit (p.withRetry id f) := by
  rw [withRetry]
  cases p.retry? id with
  | none => exact h
  | some r => exact keeps r

theorem cancelPause (h : Slots limit p) (r : RetryState) : Slots limit (p.cancelPause r) := by
  rw [Pool.cancelPause]
  cases r.pause with
  | none => exact { h with }
  | some pause =>
      cases pause with
      | parked ticket _ => exact { h.kill ticket with }
      | delayed => exact { h with }

theorem resume (h : Slots limit p) (r : RetryState) : Slots limit (p.resume r) := by
  rw [Pool.resume]
  cases r.pause with
  | none => exact { h with }
  | some pause =>
      cases pause with
      | parked ticket _ => exact { h.kill ticket with }
      | delayed => exact { h with }

theorem forgetRetry (h : Slots limit p) (r : RetryState) : Slots limit (p.forgetRetry r) :=
  { h.cancelPause r with }

theorem endRetries (h : Slots limit p) (id : Nat) : Slots limit (p.endRetries id).1 := by
  cases found : p.retry? id with
  | none => rwa [endRetries_none found]
  | some r =>
      rw [endRetries_some found]
      split
      · exact (h.forgetRetry r).wake
      · exact h.forgetRetry r

/-- Every step keeps the invariant. -/
theorem after (h : Slots limit p) (e : Event) (permitted : p.permits e) :
    Slots limit (p.after e) := by
  cases e with
  | beginOpen => exact { h with }
  | endOpen opened => cases opened <;> exact { h with }
  | closePrimary => exact { h with }
  | leasePrimary => exact { h with }
  | releasePrimary => exact { h.wake with }
  | acquire => exact h.acquire
  | claim ticket isOpen => exact h.claim (beq_iff_eq.mp permitted)
  | opened ticket conn => exact h.proceed (beq_iff_eq.mp permitted) rfl rfl
  | lease ticket conn => exact h.lease (beq_iff_eq.mp permitted)
  | initializerFailed ticket conn => exact h.proceed (beq_iff_eq.mp permitted) rfl rfl
  | abandon ticket => exact h.abandon ticket
  | release conn deadline => exact h.release (List.contains_iff_mem.mp permitted) deadline
  | fire timer => exact h.fire timer
  | drainIdle => exact h.drainIdle
  | beginShutdown => exact { h with }
  | endShutdown => exact { h with }
  | beginRetries =>
      exact { h with
        acquisition_lt := fun a mem => Nat.lt_succ_of_lt (h.acquisition_lt a mem)
        waiter_lt := fun w mem => Nat.lt_succ_of_lt (h.waiter_lt w mem) }
  | park id autocommit => exact h.ofRetry fun r => { h.park autocommit r.owesWake with }
  | delay id => exact h.ofRetry fun r => { h with }
  | resume id => exact h.ofRetry h.resume
  | cancelPause id => exact h.ofRetry h.cancelPause
  | endRetries id => exact h.endRetries id

end Slots

theorem Run.slots {limit lost : Nat} {p : Pool} (run : Run limit lost p) : Slots limit p := by
  induction run with
  | new => exact Slots.new limit
  | step e _ permitted ih => exact ih.after e permitted

theorem Reachable.slots {limit : Nat} {p : Pool} (h : Reachable limit p) : Slots limit p := by
  obtain ⟨lost, run⟩ := h
  exact run.slots

end Pool

end ConnectionPool
