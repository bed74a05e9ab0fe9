import ConnectionPool.Proofs.Pool.Order

/-!
# Slots are given back once

A slot is handed out when an acquisition gets it: at once when it comes, or with its wake.
It is given back when the acquisition is given up or its lease is.  In between it changes
hands, from the acquisition to the lease, and is the same slot.

So what a pool handed out it got back, apart from the slots taken
(`Slots.inUse_afterAll`).  Nothing is lost by subtracting from nothing, because who
gives back a slot has one (`Slots.not_saturates`).
-/

namespace ConnectionPool

namespace Pool

instance (p : Pool) (ticket : Nat) : Decidable (p.HasSlot ticket) :=
  inferInstanceAs (Decidable (∃ a ∈ p.acquisitions, a.hasSlot ∧ a.ticket = ticket))

/-- The slots that a step gives back. -/
def givesBack (p : Pool) : Event → Nat
  | .abandon ticket => if p.HasSlot ticket then 1 else 0
  | .release conn _ => if conn ∈ p.leases then 1 else 0
  | _ => 0

/-- The slots that a step hands out: acquisitions that had none have one then. -/
def handsOut (p : Pool) (e : Event) : Nat :=
  (p.after e).acquisitions.countP fun a => a.hasSlot && !decide (p.HasSlot a.ticket)

/-- The slots that some steps give back. -/
def givenBack (p : Pool) : List Event → Nat
  | [] => 0
  | e :: es => p.givesBack e + (p.after e).givenBack es

/-- The slots that some steps hand out. -/
def handedOut (p : Pool) : List Event → Nat
  | [] => 0
  | e :: es => p.handsOut e + (p.after e).handedOut es

/-- The step subtracts from a count that is zero. -/
def saturates (p : Pool) : Event → Bool
  | .closePrimary => p.entry.primaries == 0
  | .abandon ticket => (p.stage? ticket).any (· != .queued) && p.entry.inUse == 0
  | .release _ _ => p.entry.inUse == 0
  | _ => false

/-! ## Who has a slot -/

section Slots

variable {limit : Nat} {p : Pool}

theorem Slots.hasSlot_iff (h : Slots limit p) {a : Acquisition} (mem : a ∈ p.acquisitions) :
    p.HasSlot a.ticket ↔ a.hasSlot := by
  constructor
  · rintro ⟨b, hb, has, eq⟩
    exact h.acquisitions.eq_of_mem hb mem eq ▸ has
  · exact fun has => ⟨a, mem, has, rfl⟩

theorem Slots.hasSlot_of_stage? (h : Slots limit p) {ticket : Nat} {stage : Acquisition.Stage}
    (found : p.stage? ticket = some stage) : p.HasSlot ticket ↔ stage ≠ .queued :=
  (h.hasSlot_iff (mem_of_stage? found)).trans bne_iff_ne

theorem not_hasSlot_of_stage? {ticket : Nat} (found : p.stage? ticket = none) :
    ¬p.HasSlot ticket := by
  rintro ⟨a, mem, -, rfl⟩
  rw [stage?, Option.map_eq_none_iff] at found
  simpa using List.find?_eq_none.mp found a mem

/-- Who gives back a slot has one. -/
theorem Slots.not_saturates (h : Slots limit p) {e : Event} (permitted : p.permits e)
    (slot : e ≠ .closePrimary) : p.saturates e = false := by
  cases e with
  | closePrimary => exact absurd rfl slot
  | abandon ticket =>
      cases found : p.stage? ticket with
      | none => rw [saturates, found]; rfl
      | some stage =>
          by_cases waits : stage = .queued
          · rw [saturates, found, waits]; rfl
          · have used := h.inUse_pos found (bne_iff_ne.mpr waits)
            rw [saturates, beq_false_of_ne (Nat.ne_of_gt used), Bool.and_false]
  | release conn _ =>
      have leased := List.length_pos_of_mem (List.contains_iff_mem.mp permitted)
      have eq := h.inUse_eq
      exact beq_false_of_ne (by omega)
  | _ => rfl

end Slots

/-! ## One step -/

/-- From one pool to the other so many slots went back, and every other one stays with its
acquisition or is leased now. -/
structure Returns (p q : Pool) (given : Nat) : Prop where
  /-- Slots taken before are with their acquisitions, leased, or given back. -/
  kept : q.acquisitions.countP (fun a => a.hasSlot && decide (p.HasSlot a.ticket)) +
    q.leases.length + given = p.acquisitions.countP Acquisition.hasSlot + p.leases.length
  /-- Who waits had no slot before. -/
  waits : ∀ a ∈ q.acquisitions, a.hasSlot = false → ¬p.HasSlot a.ticket

namespace Returns

variable {limit given : Nat} {p q : Pool}

/-- Acquisitions and leases may be left alone. -/
theorem stay (h : Slots limit p) (acquisitions : q.acquisitions = p.acquisitions)
    (leases : q.leases = p.leases) : Returns p q 0 where
  kept := by
    have same : p.acquisitions.countP (fun a => a.hasSlot && decide (p.HasSlot a.ticket)) =
        p.acquisitions.countP Acquisition.hasSlot := by
      refine List.countP_congr fun a mem => ?_
      simp [h.hasSlot_iff mem]
    rw [acquisitions, leases, same]
    rfl
  waits := by
    intro a mem slotless has
    rw [acquisitions] at mem
    exact absurd ((h.hasSlot_iff mem).mp has) (by simp [slotless])

/-- The acquisition that gets a slot had none. -/
theorem wake (h : Returns p q given) (slots : Slots limit q) : Returns p q.wake.1 given := by
  have woke := q.wake_woke
  generalize q.wake.1 = r at woke ⊢
  cases woke with
  | nobody _ => exact { h with }
  | retry _ _ _ _ => exact { h with }
  | kept _ _ _ _ _ => exact { h with }
  | @granted dead rest w eq _ live kind _ =>
      have acquisition : w.isAcquisition := by rw [Waiter.isAcquisition, live, kind]; rfl
      obtain ⟨a, mem, is, stage⟩ := slots.queued w (by simp [eq]) acquisition
      have slotless : a.hasSlot = false := by rw [Acquisition.hasSlot, stage]; rfl
      have before : ¬p.HasSlot a.ticket := h.waits a mem slotless
      let grant (b : Acquisition) : Acquisition := { b with stage := .granted }
      have count := countP_replaceKey (f := grant) slots.acquisitions mem is
        fun b => b.hasSlot && decide (p.HasSlot b.ticket)
      have old : (a.hasSlot && decide (p.HasSlot a.ticket)) = false := by rw [slotless]; rfl
      have new : ((grant a).hasSlot && decide (p.HasSlot (grant a).ticket)) = false := by
        rw [show (grant a).ticket = a.ticket from rfl, decide_eq_false before, Bool.and_false]
      simp only [old, new, Bool.false_eq_true, if_false] at count
      exact {
        kept := by
          have eq := h.kept
          show (replaceKey _ _ grant q.acquisitions).countP _ + q.leases.length + given = _
          omega
        waits := by
          intro b hb none
          rcases mem_replaceKey.mp hb with ⟨mem, -⟩ | ⟨_, _, _, rfl⟩
          · exact h.waits b mem none
          · cases none }

theorem setStage (h : Slots limit p) {ticket : Nat} {old stage : Acquisition.Stage}
    (found : p.stage? ticket = some old) (slot : (⟨ticket, old⟩ : Acquisition).hasSlot)
    (slot' : (⟨ticket, stage⟩ : Acquisition).hasSlot) : Returns p (p.setStage ticket stage) 0 := by
  have mem := mem_of_stage? found
  have has : p.HasSlot ticket := ⟨_, mem, slot, rfl⟩
  let change (a : Acquisition) : Acquisition := { a with stage }
  have count := countP_replaceKey (k := ticket) (f := change) h.acquisitions mem rfl
    fun b => b.hasSlot && decide (p.HasSlot b.ticket)
  have before : ((⟨ticket, old⟩ : Acquisition).hasSlot && decide (p.HasSlot ticket)) = true := by
    rw [slot, decide_eq_true has]; rfl
  have after : ((change ⟨ticket, old⟩).hasSlot && decide (p.HasSlot ticket)) = true := by
    rw [show (change ⟨ticket, old⟩).hasSlot = true from slot', decide_eq_true has]; rfl
  rw [if_pos before, if_pos after] at count
  have same := stay (q := p) h rfl rfl
  exact {
    kept := by
      have eq := same.kept
      show (replaceKey _ _ change p.acquisitions).countP _ + p.leases.length + 0 = _
      omega
    waits := by
      intro b hb none
      rcases mem_replaceKey.mp hb with ⟨mem, -⟩ | ⟨a, _, is, rfl⟩
      · exact same.waits b mem none
      · have slot : (change a).hasSlot = true := slot'
        rw [slot] at none
        cases none }

/-- An acquisition leaves, and what slot it has is leased or given back. -/
theorem drop (h : Slots limit p) {ticket : Nat} {stage : Acquisition.Stage}
    (found : p.stage? ticket = some stage)
    (acquisitions : q.acquisitions = (p.dropAcquisition ticket).acquisitions)
    (leases : q.leases.length + given =
      p.leases.length + if (⟨ticket, stage⟩ : Acquisition).hasSlot then 1 else 0) :
    Returns p q given := by
  have mem := mem_of_stage? found
  have count := countP_removeKey (k := ticket) h.acquisitions mem rfl
    fun b => b.hasSlot && decide (p.HasSlot b.ticket)
  have holds : ((⟨ticket, stage⟩ : Acquisition).hasSlot && decide (p.HasSlot ticket)) =
      (⟨ticket, stage⟩ : Acquisition).hasSlot := by
    rw [Bool.and_eq_left_iff_imp]
    exact fun slot => decide_eq_true ((h.hasSlot_iff mem).mpr slot)
  simp only [holds] at count
  have same := stay (q := p) h rfl rfl
  exact {
    kept := by
      have eq := same.kept
      rw [acquisitions]
      show (removeKey _ _ p.acquisitions).countP _ + _ + _ = _
      omega
    waits := by
      intro b hb none
      rw [acquisitions] at hb
      exact same.waits b (mem_removeKey.mp hb).1 none }

theorem acquire (h : Slots limit p) : Returns p p.acquire.1 0 := by
  have same := stay (q := p) h rfl rfl
  have new : ¬p.HasSlot p.fresh := by
    rintro ⟨a, mem, -, eq⟩
    exact absurd (h.acquisition_lt a mem) (by omega)
  have joined : ∀ stage, p.acquire.1.acquisitions = p.acquisitions ++ [⟨p.fresh, stage⟩] →
      p.acquire.1.leases = p.leases → Returns p p.acquire.1 0 := by
    intro stage acquisitions leases
    exact {
      kept := by
        have eq := same.kept
        rw [acquisitions, leases, List.countP_append, List.countP_singleton,
          decide_eq_false new, Bool.and_false, if_neg Bool.false_ne_true]
        omega
      waits := by
        intro a mem none
        rw [acquisitions] at mem
        rcases List.mem_append.mp mem with mem | mem
        · exact same.waits a mem none
        · rw [List.mem_singleton.mp mem]
          exact new }
  by_cases free : p.entry.inUse < p.entry.limit
  · rw [acquire_granted free] at joined ⊢
    exact joined .granted rfl rfl
  · rw [acquire_queued free] at joined ⊢
    exact joined .queued rfl rfl

theorem claim (h : Slots limit p) {ticket : Nat} (found : p.stage? ticket = some .granted)
    (isOpen : Nat → Bool) : Returns p (p.claim ticket isOpen).1 0 := by
  rcases p.claim_cases ticket isOpen with ⟨_, _, _, _, eq⟩ | ⟨_, eq⟩
  · rw [eq]
    exact drop h found rfl (by simp [Acquisition.hasSlot])
  · rw [eq]
    have opens : Returns p (p.setStage ticket .opening) 0 := setStage h found rfl rfl
    exact { opens with }

theorem abandon (h : Slots limit p) (ticket : Nat) :
    Returns p (p.abandon ticket).1 (p.givesBack (.abandon ticket)) := by
  rw [givesBack]
  cases found : p.stage? ticket with
  | none =>
      rw [abandon_none found, if_neg (not_hasSlot_of_stage? found)]
      exact stay h rfl rfl
  | some stage =>
      by_cases waits : stage = .queued
      · subst waits
        rw [abandon_queued found, if_neg fun has => (h.hasSlot_of_stage? found).mp has rfl]
        exact drop h found rfl rfl
      · have slot : (⟨ticket, stage⟩ : Acquisition).hasSlot := bne_iff_ne.mpr waits
        rw [abandon_slot found waits, if_pos ((h.hasSlot_of_stage? found).mpr waits)]
        have gone : Returns p (p.dropAcquisition ticket).freeSlot 1 :=
          drop h found rfl (by rw [if_pos slot]; rfl)
        exact gone.wake (h.dropSlot found waits)

theorem release (h : Slots limit p) {conn : Nat} (leased : conn ∈ p.leases)
    (deadline : Option Nat) :
    Returns p (p.release conn deadline).1 (p.givesBack (.release conn deadline)) := by
  rw [release_eq, givesBack, if_pos leased]
  refine wake ?_ (h.giveBack leased deadline)
  have same := stay (q := p) h rfl rfl
  have acquisitions : (p.giveBack conn deadline).acquisitions = p.acquisitions := by
    cases deadline <;> rfl
  have leases : (p.giveBack conn deadline).leases = p.leases.erase conn := by
    cases deadline <;> rfl
  exact {
    kept := by
      have eq := same.kept
      have some := List.length_pos_of_mem leased
      rw [acquisitions, leases, List.length_erase_of_mem leased]
      omega
    waits := by
      rw [acquisitions]
      exact same.waits }

theorem park (h : Slots limit p) (autocommit owesWake : Bool) :
    Returns p (p.park autocommit owesWake).1 0 := by
  have swept : Returns p p.sweep 0 := stay h rfl rfl
  rw [park_eq]
  split
  · exact { swept.wake h.sweep with }
  · exact { swept with }

theorem endRetries (h : Slots limit p) (id : Nat) : Returns p (p.endRetries id).1 0 := by
  cases found : p.retry? id with
  | none =>
      rw [endRetries_none found]
      exact stay h rfl rfl
  | some r =>
      have forgot : Returns p (p.forgetRetry r) 0 := by
        rw [forgetRetry, cancelPause_eq, Pool.endPause]
        cases r.ticket? <;> exact stay h rfl rfl
      rw [endRetries_some found]
      split
      · exact forgot.wake (h.forgetRetry r)
      · exact forgot

theorem ofRetry (h : Slots limit p) {id : Nat} {f : RetryState → Pool}
    (returns : ∀ r, Returns p (f r) 0) : Returns p (p.withRetry id f) 0 := by
  rw [withRetry]
  split
  · exact returns _
  · exact stay h rfl rfl

theorem after (h : Slots limit p) (e : Event) (permitted : p.permits e) :
    Returns p (p.after e) (p.givesBack e) := by
  cases e with
  | beginOpen | closePrimary | leasePrimary | drainIdle | beginShutdown | endShutdown
  | beginRetries => exact stay h rfl rfl
  | endOpen opened => cases opened <;> exact stay h rfl rfl
  | releasePrimary => exact { (stay (q := p) h rfl rfl).wake h with }
  | acquire => exact acquire h
  | claim ticket isOpen => exact claim h (beq_iff_eq.mp permitted) isOpen
  | opened ticket conn => exact setStage h (beq_iff_eq.mp permitted) rfl rfl
  | lease ticket conn =>
      exact drop h (beq_iff_eq.mp permitted) rfl (by simp [Pool.after, Pool.lease,
        Acquisition.hasSlot, givesBack])
  | initializerFailed ticket conn => exact setStage h (beq_iff_eq.mp permitted) rfl rfl
  | abandon ticket => exact abandon h ticket
  | release conn deadline => exact release h (List.contains_iff_mem.mp permitted) deadline
  | fire timer =>
      rw [Pool.after]
      rcases p.fire_cases timer with eq | ⟨_, _, _, eq⟩ <;> rw [eq] <;> exact stay h rfl rfl
  | park id autocommit => exact ofRetry h fun r => { park h autocommit r.owesWake with }
  | delay id => exact ofRetry h fun r => stay h rfl rfl
  | resume id =>
      refine ofRetry h fun r => ?_
      rw [resume_eq, Pool.endPause]
      cases r.ticket? <;> exact stay h rfl rfl
  | cancelPause id =>
      refine ofRetry h fun r => ?_
      rw [cancelPause_eq, Pool.endPause]
      cases r.ticket? <;> exact stay h rfl rfl
  | endRetries id => exact endRetries h id

end Returns

/-- Between two steps the slots taken change by what was handed out and given back. -/
theorem Slots.inUse_after {limit : Nat} {p : Pool} (h : Slots limit p) {e : Event}
    (permitted : p.permits e) :
    (p.after e).entry.inUse + p.givesBack e = p.entry.inUse + p.handsOut e := by
  have returns := (Returns.after h e permitted).kept
  have parts := List.countP_eq_countP_filter_add (p.after e).acquisitions Acquisition.hasSlot
    fun a => decide (p.HasSlot a.ticket)
  have before := h.inUse_eq
  have after := (h.after e permitted).inUse_eq
  simp only [List.countP_filter] at parts
  rw [handsOut]
  omega

/-! ## Any number of steps -/

theorem PermitsAll.cons {p : Pool} {e : Event} {es : List Event} (h : p.PermitsAll (e :: es)) :
    p.permits e ∧ (p.after e).PermitsAll es := by
  refine ⟨h [] e ⟨es, rfl⟩, fun before f le => h (e :: before) f ?_⟩
  exact List.cons_prefix_cons.mpr ⟨rfl, le⟩

/-- Whatever happens in a pool, the slots handed out are the ones given back and the ones
taken. -/
theorem Slots.inUse_afterAll {limit : Nat} {p : Pool} (h : Slots limit p) {es : List Event}
    (permitted : p.PermitsAll es) :
    (p.afterAll es).entry.inUse + p.givenBack es = p.entry.inUse + p.handedOut es := by
  induction es generalizing p with
  | nil => rfl
  | cons e es ih =>
      obtain ⟨permits, rest⟩ := permitted.cons
      have step := h.inUse_after permits
      have steps := ih (h.after e permits) rest
      show ((p.after e).afterAll es).entry.inUse + (p.givesBack e + _) = _ + (p.handsOut e + _)
      omega

end Pool

end ConnectionPool
