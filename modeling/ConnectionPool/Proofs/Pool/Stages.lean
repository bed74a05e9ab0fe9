import ConnectionPool.Proofs.Pool.Custody
import ConnectionPool.Proofs.Pool.NextInLine

/-!
# The stages of an acquisition

An acquisition goes from stage to stage by steps of its own.  All that others can do to it
is to grant it the slot it waits for: `leftAlone_after`.  When it is gone it does not come
back, since its ticket is not given out again.  A connection that it had at the end is
nowhere in the pool then.
-/

namespace ConnectionPool

namespace Pool

variable {limit t c : Nat} {p q : Pool} {e : Event} {stage : Acquisition.Stage}

/-- The step is one of the acquisition's own. -/
def Event.isOf (t : Nat) : Event → Bool
  | .claim ticket _ | .opened ticket _ | .lease ticket _ | .initializerFailed ticket _
  | .abandon ticket => ticket == t
  | _ => false

/-- An acquisition is in the stage it was in, or was granted the slot it waited for. -/
def LeftAlone (t : Nat) (p q : Pool) : Prop :=
  q.stage? t = p.stage? t ∨ p.stage? t = some .queued ∧ q.stage? t = some .granted

namespace LeftAlone

theorem of_eq (same : q.acquisitions = p.acquisitions) : LeftAlone t p q :=
  .inl (by rw [stage?, same, stage?])

/-- Only an acquisition that waits is granted a slot. -/
theorem wake (slots : Slots limit p) : LeftAlone t p p.wake.1 := by
  cases woken : p.wake.2 with
  | none =>
      rw [wake_none woken]
      exact .of_eq rfl
  | some w =>
      rw [wake_some woken]
      cases kind : w.kind with
      | retry => exact .of_eq rfl
      | acquisition =>
          by_cases is : t = w.ticket
          · have served := p.wake_served
            rw [woken] at served
            obtain ⟨live, dead, eq, -⟩ := served.woken
            have waits := slots.stage?_queued (w := w) (by simp [eq])
              (by rw [Waiter.isAcquisition, live, kind]; rfl)
            rw [is]
            exact .inr ⟨waits, stage?_setStage
              (p := { p with entry := p.entry.service.1 }) waits .granted⟩
          · exact .inl (stage?_setStage_ne is { p with entry := p.entry.service.1 } .granted)

/-- The books are changed, and then somebody is woken. -/
theorem ofWake (slots : Slots limit q) (same : q.stage? t = p.stage? t) :
    LeftAlone t p q.wake.1 := by
  have woken := wake slots (t := t)
  rwa [LeftAlone, same] at woken

theorem acquire (old : t ≠ p.fresh) : LeftAlone t p p.acquire.1 := by
  have joined : ∀ new, (p.acquisitions ++ [(⟨p.fresh, new⟩ : Acquisition)]).find?
      (·.ticket == t) = p.acquisitions.find? (·.ticket == t) := by
    intro new
    have other : (p.fresh == t) = false := beq_false_of_ne old.symm
    simp [List.find?_append, other]
  by_cases free : p.entry.inUse < p.entry.limit
  · rw [acquire_granted free]
    exact .inl (congrArg (Option.map _) (joined .granted))
  · rw [acquire_queued free]
    exact .inl (congrArg (Option.map _) (joined .queued))

theorem claim {ticket : Nat} (other : t ≠ ticket) (isOpen : Nat → Bool) :
    LeftAlone t p (p.claim ticket isOpen).1 := by
  cases taken : (p.entry.takeIdle isOpen).2.1 with
  | none =>
      rw [claim_none taken]
      exact .inl (stage?_setStage_ne other _ .opening)
  | some i =>
      rw [claim_some taken]
      exact .inl (stage?_dropAcquisition_ne other p)

theorem abandon (slots : Slots limit p) {ticket : Nat} (other : t ≠ ticket) :
    LeftAlone t p (p.abandon ticket).1 := by
  cases found : p.stage? ticket with
  | none =>
      rw [abandon_none found]
      exact .of_eq rfl
  | some stage =>
      have dropped := stage?_dropAcquisition_ne other p
      by_cases waits : stage = .queued
      · rw [abandon_queued (waits ▸ found)]
        exact .inl dropped
      · rw [abandon_slot found waits]
        exact .ofWake (slots.dropSlot found waits) dropped

theorem park (slots : Slots limit p) (autocommit owesWake : Bool) :
    LeftAlone t p (p.park autocommit owesWake).1 := by
  have joined : ∀ {q : Pool}, LeftAlone t p q → LeftAlone t p q.joinQueue := fun h => h
  rw [park_eq]
  split
  · exact joined (.ofWake slots.sweep rfl)
  · exact joined (.of_eq rfl)

theorem endPause (p : Pool) (r : RetryState) (owesWake : Bool) :
    LeftAlone t p (p.endPause r owesWake) := by
  rw [Pool.endPause]
  cases r.ticket? <;> exact .of_eq rfl

theorem endRetries (slots : Slots limit p) (id : Nat) : LeftAlone t p (p.endRetries id).1 := by
  cases found : p.retry? id with
  | none =>
      rw [endRetries_none found]
      exact .of_eq rfl
  | some r =>
      have forgotten : (p.forgetRetry r).stage? t = p.stage? t := by
        rw [forgetRetry, cancelPause_eq, Pool.endPause]
        cases r.ticket? <;> rfl
      rw [endRetries_some found]
      split
      · exact .ofWake (slots.forgetRetry r) forgotten
      · exact .inl forgotten

theorem withRetry {id : Nat} {f : RetryState → Pool} (left : ∀ r, LeftAlone t p (f r)) :
    LeftAlone t p (p.withRetry id f) := by
  rw [Pool.withRetry]
  split
  · exact left _
  · exact .of_eq rfl

end LeftAlone

/-- Nobody else takes an acquisition further than to its slot. -/
theorem leftAlone_after (slots : Slots limit p) (permitted : p.permits e)
    (other : e.isOf t = false) (old : e = .acquire → t ≠ p.fresh) : LeftAlone t p (p.after e) := by
  cases e with
  | beginOpen | closePrimary | leasePrimary | drainIdle | beginShutdown | endShutdown
  | beginRetries => exact .of_eq rfl
  | endOpen opened => cases opened <;> exact .of_eq rfl
  | releasePrimary => exact LeftAlone.wake slots
  | acquire => exact .acquire (old rfl)
  | claim ticket isOpen => exact .claim (Ne.symm (beq_eq_false_iff_ne.mp other)) isOpen
  | opened ticket conn =>
      exact .inl (stage?_setStage_ne (Ne.symm (beq_eq_false_iff_ne.mp other)) p _)
  | lease ticket conn =>
      exact .inl (stage?_dropAcquisition_ne (Ne.symm (beq_eq_false_iff_ne.mp other)) p)
  | initializerFailed ticket conn =>
      exact .inl (stage?_setStage_ne (Ne.symm (beq_eq_false_iff_ne.mp other)) p _)
  | abandon ticket => exact .abandon slots (Ne.symm (beq_eq_false_iff_ne.mp other))
  | release conn deadline =>
      rw [after, release_eq]
      refine .ofWake (slots.giveBack (List.contains_iff_mem.mp permitted) deadline) ?_
      cases deadline <;> rfl
  | fire timer =>
      rw [after]
      rcases p.fire_cases timer with eq | ⟨_, _, _, eq⟩ <;> rw [eq] <;> exact .of_eq rfl
  | park id autocommit => exact .withRetry fun r => LeftAlone.park slots autocommit r.owesWake
  | delay id => exact .withRetry fun r => .of_eq rfl
  | resume id => exact .withRetry fun r => by rw [resume_eq]; exact .endPause p r _
  | cancelPause id => exact .withRetry fun r => by rw [cancelPause_eq]; exact .endPause p r _
  | endRetries id => exact .endRetries slots id

/-! ## Its beginning and its end -/

theorem Slots.lt_of_stage? (slots : Slots limit p) (there : p.stage? t = some stage) :
    t < p.fresh := slots.acquisition_lt _ (mem_of_stage? there)

/-- A newcomer has a slot or waits. -/
theorem stage?_acquire (slots : Slots limit p) : p.acquire.1.stage? p.fresh =
    some (if p.entry.inUse < p.entry.limit then .granted else .queued) := by
  have none_yet : p.acquisitions.find? (·.ticket == p.fresh) = none := by
    refine List.find?_eq_none.mpr fun a mem => ?_
    have old := slots.acquisition_lt a mem
    simpa using Nat.ne_of_lt old
  have joined : ∀ new, (p.acquisitions ++ [(⟨p.fresh, new⟩ : Acquisition)]).find?
      (·.ticket == p.fresh) = some ⟨p.fresh, new⟩ := by
    intro new
    simp [List.find?_append, none_yet]
  split
  · next free =>
      rw [acquire_granted free]
      exact congrArg (Option.map _) (joined .granted)
  · next full =>
      rw [acquire_queued full]
      exact congrArg (Option.map _) (joined .queued)

/-- An acquisition that looks for an idle connection is over or has to open one. -/
theorem stage?_claim (there : p.stage? t = some stage) (isOpen : Nat → Bool) :
    (p.claim t isOpen).1.stage? t =
      if (p.claim t isOpen).2.isSome then none else some .opening := by
  cases taken : (p.entry.takeIdle isOpen).2.1 with
  | none =>
      have result : (p.claim t isOpen).2 = none := by simp only [claim, taken]
      rw [claim_none taken, result]
      exact stage?_setStage (p := ({ p with entry := (p.entry.takeIdle isOpen).1 }).stopTimers
        (p.entry.takeIdle isOpen).2.2) there .opening
  | some i =>
      have result : (p.claim t isOpen).2 = some i.conn := by simp only [claim, taken]
      rw [claim_some taken, result]
      exact stage?_dropAcquisition p t

/-- Whoever is given up is gone. -/
theorem stage?_abandon (slots : Slots limit p) (t : Nat) : (p.abandon t).1.stage? t = none := by
  have dropped := stage?_dropAcquisition p t
  cases found : p.stage? t with
  | none => rwa [abandon_none found]
  | some stage =>
      by_cases waits : stage = .queued
      · rw [abandon_queued (waits ▸ found)]
        exact dropped
      · rw [abandon_slot found waits]
        rcases LeftAlone.wake (slots.dropSlot found waits) (t := t) with same | ⟨waited, -⟩
        · exact same.trans dropped
        · rw [show (p.dropAcquisition t).freeSlot.stage? t = none from dropped] at waited
          cases waited

/-- An acquisition that is gone does not come back. -/
theorem stage?_none_after (slots : Slots limit p) (permitted : p.permits e) (old : t < p.fresh)
    (gone : p.stage? t = none) : (p.after e).stage? t = none := by
  cases own : e.isOf t with
  | false =>
      rcases leftAlone_after slots permitted own fun _ => Nat.ne_of_lt old with
        same | ⟨waited, -⟩
      · exact same.trans gone
      · rw [gone] at waited
        cases waited
  | true =>
      have absent : ∀ {ticket : Nat} {stage : Acquisition.Stage}, (ticket == t) = true →
          ¬p.stage? ticket = some stage := by
        intro ticket stage is there
        rw [beq_iff_eq.mp is, gone] at there
        cases there
      cases e with
      | claim ticket isOpen => exact absurd (beq_iff_eq.mp permitted) (absent own)
      | opened ticket conn => exact absurd (beq_iff_eq.mp permitted) (absent own)
      | lease ticket conn => exact absurd (beq_iff_eq.mp permitted) (absent own)
      | initializerFailed ticket conn => exact absurd (beq_iff_eq.mp permitted) (absent own)
      | abandon ticket =>
          rw [← beq_iff_eq.mp own]
          exact stage?_abandon slots ticket
      | _ => cases own

theorem places_pos_of_has (there : p.stage? t = some stage)
    (has : (⟨t, stage⟩ : Acquisition).has c) : 0 < p.places c := by
  have counted : 0 < p.acquisitions.countP (·.has c) :=
    List.countP_pos_iff.mpr ⟨_, mem_of_stage? there, has⟩
  unfold places
  omega

/-- A connection that is in one place is not idle while an acquisition has it. -/
theorem not_idle_of_has (once : p.places c ≤ 1) (there : p.stage? t = some stage)
    (has : (⟨t, stage⟩ : Acquisition).has c) : ∀ i ∈ p.entry.idle, i.conn ≠ c := by
  rintro i mem rfl
  have idle : 0 < p.entry.idle.countP (·.conn == i.conn) :=
    List.countP_pos_iff.mpr ⟨i, mem, beq_self_eq_true _⟩
  have counted : 0 < p.acquisitions.countP (·.has i.conn) :=
    List.countP_pos_iff.mpr ⟨_, mem_of_stage? there, has⟩
  unfold places at once
  omega

/-- Only one acquisition has a connection that is in one place. -/
theorem eq_of_has (slots : Slots limit p) (once : p.places c ≤ 1) (there : p.stage? t = some stage)
    (has : (⟨t, stage⟩ : Acquisition).has c) {u : Nat} {stage' : Acquisition.Stage}
    (there' : p.stage? u = some stage') (has' : (⟨u, stage'⟩ : Acquisition).has c) : t = u := by
  by_contra ne
  have removed : (p.dropAcquisition t).acquisitions.countP (·.has c) +
      (if (⟨t, stage⟩ : Acquisition).has c then 1 else 0) = p.acquisitions.countP (·.has c) :=
    countP_removeKey slots.acquisitions (mem_of_stage? there) rfl (·.has c)
  have other : (⟨u, stage'⟩ : Acquisition) ∈ (p.dropAcquisition t).acquisitions :=
    mem_removeKey.mpr ⟨mem_of_stage? there', Ne.symm ne⟩
  have counted : 0 < (p.dropAcquisition t).acquisitions.countP (·.has c) :=
    List.countP_pos_iff.mpr ⟨_, other, has'⟩
  rw [if_pos has] at removed
  unfold places at once
  omega

end Pool

end ConnectionPool
