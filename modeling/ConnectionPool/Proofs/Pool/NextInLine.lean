import Mathlib.Data.List.TakeWhile
import ConnectionPool.Proofs.Pool.Balance
import ConnectionPool.Proofs.Pool.Line

/-!
# The next waiter in line

A step that gives a slot back hands one wake to the queue, and so does one that passes a
wake on: the lease on a primary connection is given back, a lock retry that owes a wake
ends, or one lines up and does not keep the wake to itself.  `Pool.Attends` says what this
comes to.  The first live waiter is woken, the dead ones ahead of him leave with him, and
nobody else notices.  Only an acquisition that finds no free slot stays where it is, with
nobody woken.  A step that gives a slot back has a free slot, so it always wakes somebody
if anybody waits.

`Reachable.wakes_next` says so for every pool that steps lead to, and that however it goes
on nobody is woken twice and the slots are enough.
-/

namespace ConnectionPool

namespace Waiter

variable {limit n n' : Nat} {ws rest : List Waiter} {result : Option Waiter}

/-- Who is woken, in terms of the queue. -/
theorem Served.eq_find? (served : Served limit ws n (rest, n', result)) :
    result = (ws.find? (·.live)).filter fun w => w.kind == .retry || decide (n < limit) := by
  have first : ∀ {dead rest : List Waiter} {w : Waiter}, (∀ d ∈ dead, d.live = false) →
      w.live = true → (dead ++ w :: rest).find? (·.live) = some w := by
    intro dead rest w none_live live
    have skipped : dead.find? (·.live) = none :=
      List.find?_eq_none.mpr (by simpa using none_live)
    rw [List.find?_append, skipped, Option.none_or, List.find?_cons_of_pos live]
  cases served with
  | nobody dead => rw [List.find?_eq_none.mpr (by simpa using dead)]; rfl
  | retry dead live kind => rw [first dead live]; simp [Option.filter, kind]
  | granted dead live kind free => rw [first dead live]; simp [Option.filter, kind, free]
  | kept dead live kind full => rw [first dead live]; simp [Option.filter, kind, full]

/-- Who stays, in terms of the queue. -/
theorem Served.eq_drop (served : Served limit ws n (rest, n', result)) :
    rest = (ws.dropWhile (!·.live)).drop result.toList.length := by
  have first : ∀ {dead rest : List Waiter} {w : Waiter}, (∀ d ∈ dead, d.live = false) →
      w.live = true → (dead ++ w :: rest).dropWhile (!·.live) = w :: rest := by
    intro dead rest w none_live live
    rw [List.dropWhile_append_of_pos (by simpa using none_live),
      List.dropWhile_cons_of_neg (by simp [live])]
  cases served with
  | nobody dead => rw [List.dropWhile_eq_nil_iff.mpr (by simpa using dead)]; rfl
  | retry dead live _ => rw [first dead live]; rfl
  | granted dead live _ _ => rw [first dead live]; rfl
  | kept dead live _ _ => rw [first dead live]; rfl

/-- A slot is taken by an acquisition that is woken. -/
theorem Served.eq_inUse (served : Served limit ws n (rest, n', result)) :
    n' = n + result.toList.countP isAcquisition := by
  cases served with
  | nobody _ => rfl
  | retry _ _ kind => simp [isAcquisition, kind]
  | granted _ live kind _ => simp [isAcquisition, live, kind]
  | kept _ _ _ _ => rfl

end Waiter

namespace Pool

variable {limit taken t : Nat} {p m : Pool} {e : Event} {kind : Waiter.Kind} {w : Waiter}

/-- A waiter was told: a lock retry was sent its wake, an acquisition has its slot. -/
def isTold (p : Pool) (ticket : Nat) : Waiter.Kind → Bool
  | .retry => p.isWoken ticket
  | .acquisition => p.stage? ticket == some .granted

/-- The step passes a wake on. -/
def passesWake (p : Pool) : Event → Bool
  | .releasePrimary => true
  | .endRetries id => p.hasRetry id (·.owesWake)
  | .park id autocommit => p.hasRetry id fun r => p.passesOn autocommit r.owesWake
  | _ => false

/-- Whom some steps wake. -/
def wokenAlong (p : Pool) : List Event → List Waiter
  | [] => []
  | e :: es => (p.woken e).toList ++ (p.after e).wokenAlong es

/-- The first live waiter is attended to by a step, when so many slots are taken. -/
structure Attends (p : Pool) (e : Event) (taken : Nat) : Prop where
  /-- He is woken, unless he is an acquisition and there is no slot for it. -/
  first : p.woken e = ((p.found e).find? (·.live)).filter fun w =>
    w.kind == .retry || decide (taken < p.entry.limit)
  /-- The dead waiters ahead of him leave, and he does if he is woken.  All others stay in
  their order. -/
  queue : (p.after e).entry.waiters =
    ((p.found e).dropWhile (!·.live)).drop (p.woken e).toList.length ++ p.joiners e
  /-- A slot is counted for an acquisition that is woken, and none for a lock retry. -/
  inUse : (p.after e).entry.inUse = taken + (p.woken e).toList.countP Waiter.isAcquisition
  /-- He is told that he is woken. -/
  told : ∀ w, p.woken e = some w → (p.after e).isTold w.ticket w.kind
  /-- Nobody else is. -/
  alone : ∀ t kind, (p.after e).isTold t kind →
    p.isTold t kind ∨ ∃ w, p.woken e = some w ∧ w.ticket = t ∧ w.kind = kind

/-! ## Telling -/

theorem stage?_setStage_ne {u : Nat} (ne : u ≠ t) (p : Pool) (stage : Acquisition.Stage) :
    (p.setStage t stage).stage? u = p.stage? u := by
  have same : (p.setStage t stage).acquisitions.find? (·.ticket == u) =
      p.acquisitions.find? (·.ticket == u) := find?_replaceKey_ne ne fun _ => id
  rw [stage?, same, stage?]

theorem stage?_setStage {old : Acquisition.Stage} (there : p.stage? t = some old)
    (stage : Acquisition.Stage) : (p.setStage t stage).stage? t = some stage := by
  obtain ⟨a, found, -⟩ := Option.map_eq_some_iff.mp there
  have changed : (p.setStage t stage).acquisitions.find? (·.ticket == t) =
      (p.acquisitions.find? (·.ticket == t)).map fun a => { a with stage } :=
    find?_replaceKey fun _ => id
  rw [stage?, changed, found]
  rfl

theorem stage?_dropAcquisition (p : Pool) (t : Nat) : (p.dropAcquisition t).stage? t = none := by
  have gone : (p.dropAcquisition t).acquisitions.find? (·.ticket == t) = none := find?_removeKey
  rw [stage?, gone]
  rfl

theorem stage?_dropAcquisition_ne {u : Nat} (ne : u ≠ t) (p : Pool) :
    (p.dropAcquisition t).stage? u = p.stage? u := by
  have same : (p.dropAcquisition t).acquisitions.find? (·.ticket == u) =
      p.acquisitions.find? (·.ticket == u) := find?_removeKey_ne ne
  rw [stage?, same, stage?]

/-- Behind a live waiter for a slot is an acquisition without one. -/
theorem Slots.stage?_queued (slots : Slots limit p) (mem : w ∈ p.entry.waiters)
    (acquisition : w.isAcquisition) : p.stage? w.ticket = some .queued := by
  obtain ⟨a, ha, is, stage⟩ := slots.queued w mem acquisition
  rw [stage?, ← is, slots.acquisitions.find?_eq ha, Option.map_some, stage]

/-- A waiter is told that he is woken. -/
def tell (p : Pool) (ticket : Nat) : Waiter.Kind → Pool
  | .retry => p.sendWake ticket
  | .acquisition => p.setStage ticket .granted

theorem wake_none (nobody : p.wake.2 = none) :
    p.wake.1 = { p with entry := p.entry.service.1 } := by
  rw [wake, settle_woken] at nobody
  rw [wake, settle, nobody]

theorem wake_some (wakes : p.wake.2 = some w) :
    p.wake.1 = ({ p with entry := p.entry.service.1 } : Pool).tell w.ticket w.kind := by
  rw [wake, settle_woken] at wakes
  obtain ⟨ticket, kind, live⟩ := w
  rw [wake, settle, wakes]
  cases kind <;> rfl

theorem isTold_tell_ne (other : ¬(w.ticket = t ∧ w.kind = kind)) :
    (p.tell w.ticket w.kind).isTold t kind = p.isTold t kind := by
  obtain ⟨ticket, waits, live⟩ := w
  have ne : waits = kind → t ≠ ticket := fun is same => other ⟨same.symm, is⟩
  cases waits with
  | retry =>
      cases kind with
      | acquisition => rfl
      | retry => exact isWoken_sendWake_ne p (ne rfl)
  | acquisition =>
      cases kind with
      | retry => rfl
      | acquisition => exact congrArg (· == _) (stage?_setStage_ne (ne rfl) p .granted)

/-- A wake tells whoever is woken. -/
theorem isTold_wake (slots : Slots limit p) (pauses : Pauses p) (wakes : p.wake.2 = some w) :
    p.wake.1.isTold w.ticket w.kind := by
  have served := p.wake_served
  rw [wakes] at served
  obtain ⟨live, dead, eq, -⟩ := served.woken
  have mem : w ∈ p.entry.waiters := by simp [eq]
  rw [wake_some wakes]
  cases kind : w.kind with
  | retry =>
      obtain ⟨⟨r, hr, waits⟩, -⟩ := pauses.awaited w mem live kind
      exact isWoken_sendWake { p with entry := p.entry.service.1 } (pauses.received r hr _ waits)
  | acquisition =>
      have queued := slots.stage?_queued mem (by rw [Waiter.isAcquisition, live, kind]; rfl)
      exact beq_iff_eq.mpr
        (stage?_setStage (p := { p with entry := p.entry.service.1 }) queued .granted)

/-- A wake tells nobody else. -/
theorem isTold_of_wake (told : p.wake.1.isTold t kind) :
    p.isTold t kind ∨ ∃ w, p.wake.2 = some w ∧ w.ticket = t ∧ w.kind = kind := by
  cases wakes : p.wake.2 with
  | none =>
      rw [wake_none wakes] at told
      exact .inl (by cases kind <;> exact told)
  | some w =>
      by_cases is : w.ticket = t ∧ w.kind = kind
      · exact .inr ⟨w, rfl, is⟩
      · rw [wake_some wakes, isTold_tell_ne is] at told
        exact .inl (by cases kind <;> exact told)

/-- Joining the queue tells nobody. -/
theorem isTold_joinQueue (p : Pool) (t : Nat) (kind : Waiter.Kind) :
    p.joinQueue.isTold t kind = p.isTold t kind := by
  cases kind with
  | acquisition => rfl
  | retry =>
      have receivers : p.joinQueue.receivers = p.receivers ++ [⟨p.fresh, false⟩] := rfl
      simp only [isTold, isWoken, receiver?, receivers, List.find?_append]
      cases p.receivers.find? (·.ticket == t) with
      | some c => rfl
      | none =>
          by_cases is : p.fresh = t
          · simp [is]
          · simp [is]

theorem isTold_of_dropReceiver {ticket : Nat} (told : (p.dropReceiver ticket).isTold t kind) :
    p.isTold t kind := by
  cases kind with
  | acquisition => exact told
  | retry =>
      by_cases is : t = ticket
      · have gone : (p.dropReceiver ticket).receivers.find? (·.ticket == ticket) = none :=
          find?_removeKey
        rw [is, isTold, isWoken, receiver?, gone] at told
        cases told
      · exact (isWoken_dropReceiver_ne p is).symm.trans told

theorem isTold_of_dropAcquisition {ticket : Nat}
    (told : (p.dropAcquisition ticket).isTold t kind) : p.isTold t kind := by
  cases kind with
  | retry => exact told
  | acquisition =>
      by_cases is : t = ticket
      · rw [is, isTold, stage?_dropAcquisition] at told
        cases told
      · rw [isTold, stage?_dropAcquisition_ne is] at told
        exact told

theorem isTold_of_endPause {r : RetryState} {owesWake : Bool}
    (told : (p.endPause r owesWake).isTold t kind) : p.isTold t kind := by
  rw [endPause] at told
  cases ticket : r.ticket? with
  | none =>
      rw [ticket] at told
      exact told
  | some _ =>
      rw [ticket] at told
      exact isTold_of_dropReceiver (p := p.setRetry { r with owesWake, pause := none }) told

/-! ## Steps that wake -/

namespace Attends

/-- A step makes the pool ready, wakes the first live waiter, and is done with what does
not touch the books of others. -/
theorem ofWake (slots : Slots limit m) (pauses : Pauses m)
    (ready : m.entry.waiters = p.found e) (free : m.entry.inUse = taken)
    (limits : m.entry.limit = p.entry.limit)
    (before : ∀ {t kind}, m.isTold t kind → p.isTold t kind)
    (woken : p.woken e = m.wake.2)
    (queue : (p.after e).entry.waiters = m.wake.1.entry.waiters ++ p.joiners e)
    (inUse : (p.after e).entry.inUse = m.wake.1.entry.inUse)
    (told : ∀ t kind, (p.after e).isTold t kind = m.wake.1.isTold t kind) :
    Attends p e taken where
  first := by rw [woken, ← ready, ← limits, ← free, m.wake_served.eq_find?]
  queue := by rw [queue, woken, ← ready, ← m.wake_served.eq_drop]
  inUse := by rw [inUse, woken, ← free, ← m.wake_served.eq_inUse]
  told := by
    intro w wakes
    rw [told]
    exact isTold_wake slots pauses (woken.symm.trans wakes)
  alone := by
    intro t kind now
    rw [told] at now
    rw [woken]
    exact (isTold_of_wake now).imp_left before

theorem releasePrimary (slots : Slots limit p) (pauses : Pauses p) :
    Attends p .releasePrimary p.entry.inUse :=
  ofWake slots pauses rfl rfl rfl id rfl (List.append_nil _).symm rfl fun _ kind => by
    cases kind <;> rfl

/-- An acquisition that has a slot leaves no place in the queue. -/
theorem found_of_slot {ticket : Nat} {stage : Acquisition.Stage}
    (there : p.stage? ticket = some stage) (slot : stage ≠ .queued) :
    p.found (.abandon ticket) = p.entry.waiters := by
  show Waiter.leave (p.leaver (.abandon ticket)) p.entry.waiters = _
  rw [leaver, there, if_neg fun is => slot (Option.some.inj is)]
  rfl

theorem release (slots : Slots limit p) (pauses : Pauses p) {conn : Nat}
    (leased : conn ∈ p.leases) (deadline : Option Nat) :
    Attends p (.release conn deadline) (p.entry.inUse - 1) := by
  have back := slots.giveBack leased deadline
  have paused := pauses.giveBack conn deadline
  have ready : (p.giveBack conn deadline).entry.waiters = p.entry.waiters ∧
      (p.giveBack conn deadline).entry.inUse = p.entry.inUse - 1 ∧
      (p.giveBack conn deadline).entry.limit = p.entry.limit ∧
      (p.giveBack conn deadline).receivers = p.receivers ∧
      (p.giveBack conn deadline).acquisitions = p.acquisitions := by
    cases deadline <;> exact ⟨rfl, rfl, rfl, rfl, rfl⟩
  obtain ⟨waiters, inUse, limits, receivers, acquisitions⟩ := ready
  have before : ∀ {t kind}, (p.giveBack conn deadline).isTold t kind → p.isTold t kind := by
    intro t kind told
    cases kind with
    | retry => rwa [isTold, isWoken, receiver?, receivers] at told
    | acquisition => rwa [isTold, stage?, acquisitions] at told
  refine ofWake back paused waiters inUse limits before ?_ ?_ ?_ ?_
  · rw [Pool.woken, release_wake]
  · rw [after, release_eq]
    exact (List.append_nil _).symm
  · rw [after, release_eq]
  · intro t kind
    rw [after, release_eq]

theorem abandon (slots : Slots limit p) (pauses : Pauses p) {ticket : Nat}
    {stage : Acquisition.Stage} (there : p.stage? ticket = some stage) (slot : stage ≠ .queued) :
    Attends p (.abandon ticket) (p.entry.inUse - 1) := by
  have paused : Pauses (p.dropAcquisition ticket).freeSlot := { pauses with }
  have before : ∀ {t kind}, (p.dropAcquisition ticket).freeSlot.isTold t kind →
      p.isTold t kind := by
    intro t kind told
    cases kind with
    | retry => exact told
    | acquisition =>
        have dropped : (p.dropAcquisition ticket).isTold t .acquisition := told
        exact isTold_of_dropAcquisition dropped
  have ready : p.entry.waiters = p.found (.abandon ticket) := (found_of_slot there slot).symm
  refine ofWake (slots.dropSlot there slot) paused ready rfl rfl before ?_ ?_ ?_ ?_
  · rw [Pool.woken, abandon_wake there slot]
  · rw [after, abandon_slot there slot]
    exact (List.append_nil _).symm
  · rw [after, abandon_slot there slot]
  · intro t kind
    rw [after, abandon_slot there slot]

theorem endRetries (slots : Slots limit p) (pauses : Pauses p) {id : Nat} {r : RetryState}
    (there : p.retry? id = some r) (owes : r.owesWake) :
    Attends p (.endRetries id) p.entry.inUse := by
  obtain ⟨mem, rfl⟩ := mem_of_findRetry there
  have ready : (p.forgetRetry r).entry.waiters = p.found (.endRetries r.id) ∧
      (p.forgetRetry r).entry.inUse = p.entry.inUse ∧
      (p.forgetRetry r).entry.limit = p.entry.limit := by
    have finds : p.found (.endRetries r.id) = Waiter.leave r.ticket? p.entry.waiters := by
      show Waiter.leave (p.leaver (.endRetries r.id)) p.entry.waiters = _
      rw [leaver, there, Option.bind_some]
    rw [finds, forgetRetry, cancelPause_eq, endPause]
    cases r.ticket? <;> exact ⟨rfl, rfl, rfl⟩
  obtain ⟨waiters, inUse, limits⟩ := ready
  have before : ∀ {t kind}, (p.forgetRetry r).isTold t kind → p.isTold t kind := by
    intro t kind told
    have ended : (p.endPause r r.owesWake).isTold t kind := by
      rw [← cancelPause_eq]
      cases kind <;> exact told
    exact isTold_of_endPause ended
  refine ofWake (slots.forgetRetry r) (pauses.forgetRetry mem) waiters inUse limits before ?_ ?_ ?_ ?_
  · rw [woken, endRetries_wake there, if_pos owes]
  · rw [after, endRetries_some there, if_pos owes]
    exact (List.append_nil _).symm
  · rw [after, endRetries_some there, if_pos owes]
  · intro t kind
    rw [after, endRetries_some there, if_pos owes]

theorem park (slots : Slots limit p) (pauses : Pauses p) {id : Nat} {r : RetryState}
    {autocommit : Bool} (there : p.retry? id = some r) (passes : p.passesOn autocommit r.owesWake) :
    Attends p (.park id autocommit) p.entry.inUse := by
  have same : p.after (.park id autocommit) = p.sweep.wake.1.joinQueue.setRetry
      { r with pause := some (.parked p.fresh (r.owesWake && !p.passesOn autocommit r.owesWake)) } := by
    rw [after, withRetry_eq there, pauseParked_eq, if_pos passes]
  have before : ∀ {t kind}, p.sweep.isTold t kind → p.isTold t kind := by
    intro t kind told
    cases kind <;> exact told
  refine ofWake slots.sweep pauses.sweep rfl rfl rfl before ?_ ?_ ?_ ?_
  · rw [woken, there, Option.bind_some, pauseParked_woken, if_pos passes]
  · rw [same]
    show p.sweep.wake.1.entry.waiters ++ [⟨p.sweep.wake.1.fresh, .retry, true⟩] = _
    rw [p.sweep.wake_woke.fresh]
    rfl
  · rw [same]
    rfl
  · intro t kind
    rw [same]
    cases kind with
    | acquisition => rfl
    | retry => exact p.sweep.wake.1.isTold_joinQueue t .retry

/-- Where a slot is free the first live waiter is woken, whoever he is. -/
theorem woken_eq (attends : Attends p e taken) (free : taken < p.entry.limit) :
    p.woken e = (p.found e).find? (·.live) := by
  rw [attends.first]
  cases (p.found e).find? (·.live) with
  | none => rfl
  | some w => simp [Option.filter, free]

/-- Somebody is, if anybody waits. -/
theorem isSome_woken (attends : Attends p e taken) (free : taken < p.entry.limit) :
    (p.woken e).isSome ↔ ∃ w ∈ p.found e, w.live := by
  rw [attends.woken_eq free, List.find?_isSome]

end Attends

/-- Every step that gives a slot back attends to the first live waiter. -/
theorem attends_of_givesBack (slots : Slots limit p) (pauses : Pauses p)
    (gives : p.givesBack e = 1) :
    Attends p e (p.entry.inUse - 1) ∧ 0 < p.entry.inUse ∧ p.found e = p.entry.waiters := by
  cases e with
  | abandon ticket =>
      rw [givesBack] at gives
      have slot : p.HasSlot ticket := by
        by_contra none
        rw [if_neg none] at gives
        cases gives
      cases there : p.stage? ticket with
      | none => exact absurd slot (not_hasSlot_of_stage? there)
      | some stage =>
          have held := (slots.hasSlot_of_stage? there).mp slot
          exact ⟨.abandon slots pauses there held, slots.inUse_pos there (bne_iff_ne.mpr held),
            Attends.found_of_slot there held⟩
  | release conn deadline =>
      rw [givesBack] at gives
      have leased : conn ∈ p.leases := by
        by_contra none
        rw [if_neg none] at gives
        cases gives
      have counted := slots.inUse_eq
      have some_leased := List.length_pos_of_mem leased
      exact ⟨.release slots pauses leased deadline, by omega, rfl⟩
  | _ => cases gives

/-- Every step that passes a wake on attends to the first live waiter. -/
theorem attends_of_passesWake (slots : Slots limit p) (pauses : Pauses p)
    (passes : p.passesWake e) : Attends p e p.entry.inUse := by
  cases e with
  | releasePrimary => exact .releasePrimary slots pauses
  | endRetries id =>
      obtain ⟨r, there, owes⟩ := retry_of_hasRetry passes
      exact .endRetries slots pauses there owes
  | park id autocommit =>
      obtain ⟨r, there, on⟩ := retry_of_hasRetry passes
      exact .park slots pauses there on
  | _ => cases passes

/-! ## Any number of steps -/

/-- Whoever is woken later waits now, or has not come yet. -/
theorem queued_of_mem_wokenAlong (slots : Slots limit p) {es : List Event}
    (permitted : p.PermitsAll es) (wakes : w ∈ p.wokenAlong es) :
    p.queued w.ticket ∨ p.fresh ≤ w.ticket := by
  induction es generalizing p with
  | nil => cases wakes
  | cons e es ih =>
      obtain ⟨permits, rest⟩ := permitted.cons
      have grows := fresh_le_after slots permits
      rcases List.mem_append.mp wakes with now | later
      · exact .inl (not_queued_of_woken slots permits (Option.mem_toList.mp now)).1
      · rcases ih (slots.after e permits) rest later with waits | new
        · rcases queued_after permits waits with waited | joins
          · exact .inl waited
          · exact .inr (Nat.le_of_eq joins.symm)
        · exact .inr (Nat.le_trans grows new)

/-- Nobody is woken twice. -/
theorem nodup_wokenAlong (slots : Slots limit p) {es : List Event} (permitted : p.PermitsAll es) :
    ((p.wokenAlong es).map Waiter.ticket).Nodup := by
  induction es generalizing p with
  | nil => exact List.nodup_nil
  | cons e es ih =>
      obtain ⟨permits, rest⟩ := permitted.cons
      have later := ih (slots.after e permits) rest
      cases wakes : p.woken e with
      | none =>
          rw [wokenAlong, wakes]
          exact later
      | some w =>
          rw [wokenAlong, wakes, Option.toList_some, List.singleton_append, List.map_cons,
            List.nodup_cons]
          refine ⟨?_, later⟩
          intro again
          obtain ⟨v, mem, same⟩ := List.mem_map.mp again
          obtain ⟨waited, gone⟩ := not_queued_of_woken slots permits wakes
          rcases queued_of_mem_wokenAlong (slots.after e permits) rest mem with waits | new
          · rw [same, gone] at waits
            cases waits
          · obtain ⟨u, hu, is⟩ := List.mem_map.mp (queued_iff.mp waited)
            have old := slots.waiter_lt u hu
            have grows := fresh_le_after slots permits
            omega

/-! ## One wake for each slot -/

/-- A step that gives a slot back wakes the first live waiter, whoever he is.  One that
passes a wake on does so as well, unless he is an acquisition and the slots are taken.
Dead waiters ahead of him leave, all others stay.  Nobody is ever woken twice, and the
slots taken stay within the limit. -/
theorem Reachable.wakes_next (h : Reachable limit p) :
    (∀ e, p.givesBack e = 1 → 0 < p.entry.inUse ∧
      Attends p e (p.entry.inUse - 1) ∧ p.found e = p.entry.waiters ∧
        ((p.woken e).isSome ↔ ∃ w ∈ p.entry.waiters, w.live)) ∧
    (∀ e, p.passesWake e → Attends p e p.entry.inUse) ∧
    (∀ es, p.PermitsAll es → (p.afterAll es).entry.inUse ≤ limit ∧
      ((p.wokenAlong es).map Waiter.ticket).Nodup) := by
  have slots := h.slots
  obtain ⟨lost, run⟩ := h
  refine ⟨?_, ?_, ?_⟩
  · intro e gives
    obtain ⟨attends, used, same⟩ := attends_of_givesBack slots run.pauses gives
    have within := slots.inUse_le
    have limits := slots.limit_eq
    have wakes := attends.isSome_woken (by omega)
    exact ⟨used, attends, same, same ▸ wakes⟩
  · exact fun e passes => attends_of_passesWake slots run.pauses passes
  · intro es permitted
    have reachable : Reachable limit p := ⟨lost, run⟩
    exact ⟨(reachable.afterAll permitted).1.slots.inUse_le, nodup_wokenAlong slots permitted⟩

/-- A pool whose only slot is leased.  Of the four acquisitions in its queue the first and
the third were given up. -/
def crowded : Pool where
  entry := { limit := 1, inUse := 1, waiters := [⟨1, .acquisition, false⟩, ⟨2, .acquisition, true⟩,
    ⟨3, .acquisition, false⟩, ⟨4, .acquisition, true⟩] }
  acquisitions := [⟨2, .queued⟩, ⟨4, .queued⟩]
  leases := [7]
  fresh := 5

theorem crowded_run : Run 1 0 crowded := by
  have granted := (@Run.new 1).step .acquire rfl
  have opening := granted.step (.claim 0 fun _ => true) rfl
  have opened := opening.step (.opened 0 7) rfl
  have leased := opened.step (.lease 0 7) rfl
  have waiting := (leased.step .acquire rfl).step .acquire rfl
  have crowd := (waiting.step .acquire rfl).step .acquire rfl
  have left := crowd.step (.abandon 1) rfl
  exact left.step (.abandon 3) rfl

/-- The lease is given back, and the slot goes to the first acquisition that still waits. -/
theorem wakes_next_crowded : Reachable 1 crowded ∧ crowded.givesBack (.release 7 none) = 1 ∧
    Attends crowded (.release 7 none) 0 ∧ (crowded.woken (.release 7 none)).isSome ∧
      (crowded.after (.release 7 none)).entry.waiters =
        [⟨3, .acquisition, false⟩, ⟨4, .acquisition, true⟩] := by
  have reachable : Reachable 1 crowded := ⟨0, crowded_run⟩
  obtain ⟨-, attends, -, wakes⟩ := reachable.wakes_next.1 (.release 7 none) rfl
  exact ⟨reachable, rfl, attends, wakes.mpr ⟨⟨2, .acquisition, true⟩, by decide, rfl⟩, rfl⟩

end Pool

end ConnectionPool
