import ConnectionPool.Proofs.Pool.Custody

/-!
# Who has business with a pool

A pool counts the opens that are pending, the primary connections that are open, the
acquisitions that are pending, and the leases.  Each of them is a `Part` of somebody, and
`Pool.number` is how often the pool counts it.  `leaves` and `joins` tell the parts that
end with a step and those that begin, and `number_after` says that the pool counts no
other way.

Nobody who has a part finds the pool pruned (`needed_of_number`).
-/

namespace ConnectionPool

/-- What somebody has to do with a pool. -/
inductive Part where
  /-- A primary connection is being opened. -/
  | opening
  /-- A primary connection is open. -/
  | primary
  /-- A pooled connection was asked for. -/
  | acquisition (ticket : Nat)
  /-- A pooled connection is leased. -/
  | lease (conn : Nat)
  /-- A primary connection is leased. -/
  | primaryLease
  deriving DecidableEq, Repr

/-- The step is one of those by which somebody with the part goes on. -/
def Part.mayTake : Part → Pool.Event → Bool
  | .opening, .endOpen _ => true
  | .primary, .closePrimary => true
  | .acquisition ticket, .claim other _ => ticket == other
  | .acquisition ticket, .opened other _ => ticket == other
  | .acquisition ticket, .lease other _ => ticket == other
  | .acquisition ticket, .initializerFailed other _ => ticket == other
  | .acquisition ticket, .abandon other => ticket == other
  | .lease conn, .release other _ => conn == other
  | .primaryLease, .releasePrimary => true
  | _, _ => false

theorem Entry.primaries_takeIdle (e : Entry) (isOpen : Nat → Bool) :
    (e.takeIdle isOpen).1.primaries = e.primaries := by
  rw [takeIdle]
  split <;> rfl

namespace Pool

variable {limit : Nat} {p q : Pool} {e : Event}

/-- How often a pool counts a part. -/
def number (p : Pool) : Part → Nat
  | .opening => p.opens
  | .primary => p.entry.primaries
  | .acquisition ticket => p.acquisitions.countP (·.ticket == ticket)
  | .lease conn => p.leases.count conn
  | .primaryLease => p.primaryLeases

/-- The parts that end with a step. -/
def leaves (p : Pool) : Event → List Part
  | .endOpen _ => [.opening]
  | .closePrimary => [.primary]
  | .releasePrimary => [.primaryLease]
  | .claim ticket isOpen => (p.claim ticket isOpen).2.toList.map fun _ => .acquisition ticket
  | .lease ticket _ => [.acquisition ticket]
  | .abandon ticket => [.acquisition ticket]
  | .release conn _ => [.lease conn]
  | _ => []

/-- The parts that begin with a step. -/
def joins (p : Pool) : Event → List Part
  | .beginOpen => [.opening]
  | .endOpen opened => if opened then [.primary] else []
  | .leasePrimary => [.primaryLease]
  | .acquire => [.acquisition p.fresh]
  | .claim ticket isOpen => (p.claim ticket isOpen).2.toList.map .lease
  | .lease _ conn => [.lease conn]
  | _ => []

/-- The step is taken by somebody who has a part, or gets one. -/
def Event.isPart : Event → Bool
  | .beginOpen | .endOpen _ | .closePrimary | .leasePrimary | .releasePrimary | .acquire
  | .claim _ _ | .opened _ _ | .lease _ _ | .initializerFailed _ _ | .abandon _
  | .release _ _ => true
  | _ => false

/-- A pool that counts a part is not pruned. -/
theorem needed_of_number {x : Part} (counts : 0 < p.number x) :
    p.isHeld || !p.entry.isUnused := by
  cases x with
  | opening =>
      have some : p.opens ≠ 0 := Nat.ne_of_gt counts
      simp [isHeld, some]
  | primary =>
      have some : p.entry.primaries ≠ 0 := Nat.ne_of_gt counts
      simp [Entry.isUnused, some]
  | acquisition ticket =>
      obtain ⟨a, mem, -⟩ := List.countP_pos_iff.mp counts
      simp [isHeld, List.ne_nil_of_mem mem]
  | lease conn => simp [isHeld, List.ne_nil_of_mem (List.count_pos_iff.mp counts)]
  | primaryLease =>
      have some : p.primaryLeases ≠ 0 := Nat.ne_of_gt counts
      simp [isHeld, some]

/-- A step by which somebody goes on ends the part or leaves it. -/
theorem leaves_of_mayTake {x : Part} (may : x.mayTake e) : p.leaves e = [] ∨ p.leaves e = [x] := by
  cases e with
  | endOpen opened => cases x <;> first | exact .inr rfl | cases may
  | closePrimary => cases x <;> first | exact .inr rfl | cases may
  | releasePrimary => cases x <;> first | exact .inr rfl | cases may
  | claim ticket isOpen =>
      cases x with
      | acquisition other =>
          obtain rfl : other = ticket := beq_iff_eq.mp may
          rw [leaves]
          cases (p.claim other isOpen).2 with
          | none => exact .inl rfl
          | some conn => exact .inr rfl
      | _ => cases may
  | lease ticket conn =>
      cases x with
      | acquisition other => exact .inr (by rw [leaves, beq_iff_eq.mp may])
      | _ => cases may
  | abandon ticket =>
      cases x with
      | acquisition other => exact .inr (by rw [leaves, beq_iff_eq.mp may])
      | _ => cases may
  | release conn deadline =>
      cases x with
      | lease other => exact .inr (by rw [leaves, beq_iff_eq.mp may])
      | _ => cases may
  | _ => exact .inl rfl

/-! ## Steps that nobody's part is in -/

/-- The pools count the same parts. -/
structure Alike (p q : Pool) : Prop where
  /-- The same opens are pending. -/
  opens : q.opens = p.opens
  /-- The same primary connections are open. -/
  primaries : q.entry.primaries = p.entry.primaries
  /-- The same acquisitions are pending. -/
  tickets : q.acquisitions.map Acquisition.ticket = p.acquisitions.map Acquisition.ticket
  /-- The same pooled connections are leased. -/
  leases : q.leases = p.leases
  /-- As many primary connections are leased. -/
  primaryLeases : q.primaryLeases = p.primaryLeases

namespace Alike

theorem rfl : Alike p p := ⟨.refl _, .refl _, .refl _, .refl _, .refl _⟩

theorem trans {r : Pool} (h : Alike p q) (h' : Alike q r) : Alike p r where
  opens := h'.opens.trans h.opens
  primaries := h'.primaries.trans h.primaries
  tickets := h'.tickets.trans h.tickets
  leases := h'.leases.trans h.leases
  primaryLeases := h'.primaryLeases.trans h.primaryLeases

theorem number (h : Alike p q) (x : Part) : q.number x = p.number x := by
  cases x with
  | opening => exact h.opens
  | primary => exact h.primaries
  | acquisition ticket =>
      have same := congrArg (List.countP (· == ticket)) h.tickets
      rwa [List.countP_map, List.countP_map] at same
  | lease conn => exact congrArg (List.count conn) h.leases
  | primaryLease => exact h.primaryLeases

theorem setStage (p : Pool) (ticket : Nat) (stage : Acquisition.Stage) :
    Alike p (p.setStage ticket stage) :=
  { Alike.rfl with tickets := map_replaceKey Acquisition.ticket fun _ => .refl _ }

theorem wake (p : Pool) : Alike p p.wake.1 := by
  have woke := p.wake_woke
  generalize p.wake.1 = q at woke ⊢
  cases woke with
  | nobody _ => exact { Alike.rfl with }
  | retry _ _ _ _ => exact { Alike.rfl with }
  | granted _ _ _ _ _ => exact { setStage p _ _ with }
  | kept _ _ _ _ _ => exact { Alike.rfl with }

theorem park (p : Pool) (autocommit owesWake : Bool) : Alike p (p.park autocommit owesWake).1 := by
  have swept : Alike p p.sweep := { Alike.rfl with }
  rw [park_eq]
  split
  · exact { swept.trans (wake p.sweep) with }
  · exact { swept with }

theorem endPause (p : Pool) (r : RetryState) (owesWake : Bool) :
    Alike p (p.endPause r owesWake) := by
  rw [Pool.endPause]
  cases r.ticket? with
  | none => exact { Alike.rfl with }
  | some _ => exact { Alike.rfl with }

theorem endRetries (p : Pool) (id : Nat) : Alike p (p.endRetries id).1 := by
  cases found : p.retry? id with
  | none => rw [endRetries_none found]; exact .rfl
  | some r =>
      have forgotten : Alike p (p.forgetRetry r) := by
        rw [forgetRetry, cancelPause_eq]
        exact { endPause p r r.owesWake with }
      rw [endRetries_some found]
      split
      · exact forgotten.trans (wake _)
      · exact forgotten

theorem fire (p : Pool) (timer : Nat) : Alike p (p.fire timer).1 := by
  rcases p.fire_cases timer with eq | ⟨_, _, _, eq⟩
  · rw [eq]; exact .rfl
  · rw [eq]; exact { Alike.rfl with }

theorem withRetry {id : Nat} {f : RetryState → Pool} (alike : ∀ r, Alike p (f r)) :
    Alike p (p.withRetry id f) := by
  rw [Pool.withRetry]
  split
  · exact alike _
  · exact .rfl

end Alike

theorem alike_after (p : Pool) (other : e.isPart = false) : Alike p (p.after e) := by
  cases e with
  | fire timer => exact .fire p timer
  | drainIdle => exact { Alike.rfl with }
  | beginShutdown => exact { Alike.rfl with }
  | endShutdown => exact { Alike.rfl with }
  | beginRetries => exact { Alike.rfl with }
  | park id autocommit => exact .withRetry fun r => { Alike.park p autocommit r.owesWake with }
  | delay id => exact .withRetry fun r => { Alike.rfl with }
  | resume id => exact .withRetry fun r => by rw [resume_eq]; exact .endPause p r _
  | cancelPause id => exact .withRetry fun r => by rw [cancelPause_eq]; exact .endPause p r _
  | endRetries id => exact .endRetries p id
  | _ => cases other

/-! ## Steps of those who have a part -/

theorem number_dropAcquisition (slots : Slots limit p) {ticket : Nat}
    (there : 0 < p.number (.acquisition ticket)) (x : Part) :
    (p.dropAcquisition ticket).number x + [Part.acquisition ticket].count x = p.number x := by
  cases x with
  | acquisition other =>
      obtain ⟨a, mem, is⟩ := List.countP_pos_iff.mp there
      have removed := countP_removeKey slots.acquisitions mem (beq_iff_eq.mp is)
        (·.ticket == other)
      rw [beq_iff_eq.mp is] at removed
      rw [List.count_singleton]
      simpa [number, dropAcquisition, removeKey] using removed
  | _ => rfl

theorem number_claim (slots : Slots limit p) {ticket : Nat} {isOpen : Nat → Bool}
    (there : ∀ x ∈ p.leaves (.claim ticket isOpen), 0 < p.number x) (x : Part) :
    (p.claim ticket isOpen).1.number x + (p.leaves (.claim ticket isOpen)).count x =
      p.number x + (p.joins (.claim ticket isOpen)).count x := by
  cases taken : (p.entry.takeIdle isOpen).2.1 with
  | none =>
      have none : (p.claim ticket isOpen).2 = none := by simp only [claim, taken]
      have stopped : Alike p (({ p with entry := (p.entry.takeIdle isOpen).1 }).stopTimers
          (p.entry.takeIdle isOpen).2.2) :=
        { Alike.rfl with primaries := p.entry.primaries_takeIdle isOpen }
      have same := (stopped.trans (.setStage _ ticket .opening)).number x
      rw [← claim_none taken] at same
      simp only [leaves, joins, none, same]
      rfl
  | some i =>
      have some : (p.claim ticket isOpen).2 = some i.conn := by simp only [claim, taken]
      simp only [leaves, joins, some, Option.toList_some, List.map_cons, List.map_nil] at there ⊢
      have dropped := number_dropAcquisition slots (there _ List.mem_cons_self) x
      rw [claim_some taken]
      cases x with
      | lease conn =>
          show (p.leases ++ [i.conn]).count conn + _ = p.leases.count conn + _
          rw [List.count_append]
          simp [List.count_singleton]
      | primary => exact congrArg (· + 0) (p.entry.primaries_takeIdle isOpen)
      | opening => rfl
      | acquisition other => exact dropped
      | primaryLease => rfl

theorem number_abandon (slots : Slots limit p) {ticket : Nat}
    (there : 0 < p.number (.acquisition ticket)) (x : Part) :
    (p.abandon ticket).1.number x + [Part.acquisition ticket].count x = p.number x := by
  rw [← number_dropAcquisition slots there x]
  congr 1
  cases found : p.stage? ticket with
  | none =>
      obtain ⟨a, mem, is⟩ := List.countP_pos_iff.mp there
      rw [stage?, Option.map_eq_none_iff, List.find?_eq_none] at found
      exact absurd is (found a mem)
  | some stage =>
      by_cases waits : stage = .queued
      · rw [abandon_queued (waits ▸ found)]
        have killed : Alike (p.dropAcquisition ticket)
            { p.dropAcquisition ticket with entry := p.entry.abandon ticket } :=
          { Alike.rfl with }
        exact killed.number x
      · rw [abandon_slot found waits]
        have freed : Alike (p.dropAcquisition ticket) (p.dropAcquisition ticket).freeSlot :=
          { Alike.rfl with }
        exact (freed.trans (.wake _)).number x

theorem number_release (p : Pool) {conn : Nat} (leased : conn ∈ p.leases)
    (deadline : Option Nat) (x : Part) :
    (p.release conn deadline).1.number x + [Part.lease conn].count x = p.number x := by
  rw [release_eq, (Alike.wake _).number x]
  have given : Alike { p with leases := p.leases.erase conn } (p.giveBack conn deadline) := by
    cases deadline <;> exact { Alike.rfl with }
  rw [given.number x]
  cases x with
  | lease other =>
      have pos := List.count_pos_iff.mpr leased
      have erased : (p.leases.erase conn).count other =
          p.leases.count other - if conn == other then 1 else 0 := List.count_erase
      show (p.leases.erase conn).count other + _ = p.leases.count other
      rw [erased, List.count_singleton]
      by_cases is : conn = other
      · subst is
        simp only [beq_self_eq_true, if_true]
        omega
      · simp [is]
  | _ => rfl

/-- The parts that a pool counts change by those that end and those that begin. -/
theorem number_after (slots : Slots limit p) (permitted : p.permits e)
    (there : ∀ x ∈ p.leaves e, 0 < p.number x) (x : Part) :
    (p.after e).number x + (p.leaves e).count x = p.number x + (p.joins e).count x := by
  cases part : e.isPart with
  | false =>
      have none : p.leaves e = [] ∧ p.joins e = [] := by
        cases e <;> first | exact ⟨rfl, rfl⟩ | cases part
      rw [(p.alike_after part).number x, none.1, none.2]
  | true =>
      cases e with
      | beginOpen => cases x <;> rfl
      | endOpen opened =>
          have pos : 0 < p.opens := of_decide_eq_true permitted
          have last : p.opens - 1 + 1 = p.opens := Nat.sub_add_cancel pos
          cases opened with
          | true => cases x <;> first | exact last | rfl
          | false => cases x <;> first | exact last | rfl
      | closePrimary =>
          have pos : 0 < p.entry.primaries := there .primary List.mem_cons_self
          have last : p.entry.primaries - 1 + 1 = p.entry.primaries := Nat.sub_add_cancel pos
          cases x <;> first | exact last | rfl
      | leasePrimary => cases x <;> rfl
      | releasePrimary =>
          have pos : 0 < p.primaryLeases := of_decide_eq_true permitted
          have woken := Alike.wake p
          have same := woken.number x
          have last : p.wake.1.primaryLeases - 1 + 1 = p.primaryLeases := by
            rw [woken.primaryLeases]
            exact Nat.sub_add_cancel pos
          cases x <;> first | exact last | exact same
      | acquire =>
          have joined : Alike { p with acquisitions := p.acquisitions ++ [⟨p.fresh, .queued⟩] }
              p.acquire.1 := by
            by_cases free : p.entry.inUse < p.entry.limit
            · rw [acquire_granted free]
              exact { Alike.rfl with tickets := by simp }
            · rw [acquire_queued free]
              exact { Alike.rfl with }
          show p.acquire.1.number x + 0 = _
          rw [joined.number x]
          cases x with
          | acquisition ticket =>
              show (p.acquisitions ++ [_]).countP _ + 0 = _
              rw [List.countP_append, List.countP_singleton]
              simp [number, joins, List.count_singleton]
          | _ => rfl
      | claim ticket isOpen => exact number_claim slots there x
      | opened ticket conn => exact (Alike.setStage p ticket _).number x
      | lease ticket conn =>
          have dropped := number_dropAcquisition slots (there _ List.mem_cons_self) x
          cases x with
          | lease other =>
              show (p.leases ++ [conn]).count other + _ = p.leases.count other + _
              rw [List.count_append]
              simp [leaves, joins, List.count_singleton]
          | acquisition other => exact dropped
          | _ => rfl
      | initializerFailed ticket conn => exact (Alike.setStage p ticket _).number x
      | abandon ticket => exact number_abandon slots (there _ List.mem_cons_self) x
      | release conn deadline =>
          exact p.number_release (List.contains_iff_mem.mp permitted) deadline x
      | _ => cases part

end Pool

end ConnectionPool
