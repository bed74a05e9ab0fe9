import ConnectionPool.Proofs.Pool.Order

/-!
# The queue from step to step

A step does three things to the queue, and each of them or none.  Somebody leaves, so that
his place is dead, or dead places are swept out: `Pool.found` is the queue then.  The first
live waiter is served: `Pool.woken` tells whom that wakes.  And somebody lines up behind
the others, with the next ticket: that is one of `Pool.joiners`.  `line_after` says that
nothing else happens to the queue, and what is true of it in the course of a run is read
off from there.

A ticket that has left the queue does not come back (`queued_after`), and whoever is woken
leaves it (`not_queued_of_woken`).  The place of somebody who left is dead until a step
comes past it, and a dead place has no other origin (`dead_after`).
-/

namespace ConnectionPool

namespace Waiter

variable {limit n n' : Nat} {ws rest : List Waiter} {result : Option Waiter} {w : Waiter}

/-- A queue is served, or not. -/
inductive Attended (limit : Nat) (ws : List Waiter) : Option Waiter → List Waiter → Prop where
  /-- Nobody comes past. -/
  | passed : Attended limit ws none ws
  /-- The first live waiter is woken, if there is one and there is a slot for him. -/
  | served {n n' : Nat} {woken : Option Waiter} {rest : List Waiter} :
      Served limit ws n (rest, n', woken) → Attended limit ws woken rest

/-- Those who stay keep their order. -/
theorem Served.sublist (served : Served limit ws n (rest, n', result)) :
    List.Sublist rest ws := by
  cases served with
  | nobody _ => exact List.nil_sublist ws
  | retry _ _ _ =>
      exact (List.sublist_cons_self _ rest).trans (List.sublist_append_right _ (_ :: rest))
  | granted _ _ _ _ =>
      exact (List.sublist_cons_self _ rest).trans (List.sublist_append_right _ (_ :: rest))
  | kept _ _ _ _ => exact List.sublist_append_right _ _

/-- Who is woken was alive, and his place is the last one to go. -/
theorem Served.woken (served : Served limit ws n (rest, n', some w)) :
    w.live ∧ ∃ dead, ws = dead ++ w :: rest ∧ ∀ d ∈ dead, d.live = false := by
  cases served with
  | retry dead live _ => exact ⟨live, _, rfl, dead⟩
  | granted dead live _ _ => exact ⟨live, _, rfl, dead⟩

/-- Somebody may leave, and his place is dead. -/
def leave (leaver : Option Nat) (ws : List Waiter) : List Waiter :=
  leaver.elim ws fun ticket => kill ticket ws

theorem map_ticket_leave (leaver : Option Nat) (ws : List Waiter) :
    (leave leaver ws).map Waiter.ticket = ws.map Waiter.ticket := by
  cases leaver with
  | none => rfl
  | some ticket => exact map_replaceKey Waiter.ticket fun _ => rfl

theorem dead_leave {leaver : Option Nat} (mem : w ∈ leave leaver ws) (dead : w.live = false) :
    (w ∈ ws ∧ w.live = false) ∨ leaver = some w.ticket := by
  cases leaver with
  | none => exact .inl ⟨mem, dead⟩
  | some ticket =>
      rcases mem_replaceKey.mp mem with ⟨old, -⟩ | ⟨v, _, is, rfl⟩
      · exact .inl ⟨old, dead⟩
      · exact .inr (congrArg some is.symm)

theorem Attended.sublist (h : Attended limit ws result rest) : List.Sublist rest ws := by
  cases h with
  | passed => exact List.Sublist.refl ws
  | served served => exact served.sublist

theorem Attended.not_mem (h : Attended limit ws (some w) rest)
    (keyed : Keyed Waiter.ticket ws) : w ∈ ws ∧ ∀ v ∈ rest, v.ticket ≠ w.ticket := by
  cases h with
  | served served =>
      obtain ⟨-, dead, rfl, -⟩ := served.woken
      exact ⟨by simp, fun v mem => Keyed.ne_of_mem_tail keyed mem⟩

end Waiter

namespace Pool

variable {limit : Nat} {p : Pool} {e : Event} {t : Nat} {w : Waiter}

/-- The ticket of somebody who waits no longer. -/
def leaver (p : Pool) : Event → Option Nat
  | .abandon ticket => if p.stage? ticket = some .queued then some ticket else none
  | .resume id | .cancelPause id | .endRetries id => (p.retry? id).bind RetryState.ticket?
  | _ => none

/-- Dead places are swept out of the queue. -/
def Event.sweeps : Event → Bool
  | .park _ _ => true
  | _ => false

/-- The queue in which a step looks for the first live waiter.  Whoever lines up for a lock
retry sweeps it first, and the place of somebody who leaves is dead. -/
def found (p : Pool) (e : Event) : List Waiter :=
  if e.sweeps then p.entry.waiters.filter (·.live)
  else Waiter.leave (p.leaver e) p.entry.waiters

/-- The waiter that a step wakes. -/
def woken (p : Pool) : Event → Option Waiter
  | .releasePrimary => p.releasePrimary.2
  | .abandon ticket => (p.abandon ticket).2
  | .release conn deadline => (p.release conn deadline).2
  | .park id autocommit => (p.retry? id).bind fun r => (p.pauseParked r autocommit).2.2
  | .endRetries id => (p.endRetries id).2
  | _ => none

/-- Who lines up behind the others. -/
def joiners (p : Pool) : Event → List Waiter
  | .acquire => if p.entry.inUse < p.entry.limit then [] else [⟨p.fresh, .acquisition, true⟩]
  | .park _ _ => [⟨p.fresh, .retry, true⟩]
  | _ => []

/-! ## Operations that wake, with the waiter they wake -/

theorem settle_entry (p : Pool) (result : Entry × Option Waiter) :
    (p.settle result).1.entry = result.1 := by
  obtain ⟨entry, woken⟩ := result
  cases woken with
  | none => rfl
  | some w =>
      obtain ⟨ticket, kind, live⟩ := w
      cases kind <;> rfl

theorem settle_woken (p : Pool) (result : Entry × Option Waiter) :
    (p.settle result).2 = result.2 := by
  obtain ⟨entry, woken⟩ := result
  cases woken with
  | none => rfl
  | some w =>
      obtain ⟨ticket, kind, live⟩ := w
      cases kind <;> rfl

/-- A wake serves the queue of the pool. -/
theorem wake_served (p : Pool) : Waiter.Served p.entry.limit p.entry.waiters p.entry.inUse
    (p.wake.1.entry.waiters, p.wake.1.entry.inUse, p.wake.2) := by
  have served := Waiter.serve_served p.entry.limit p.entry.waiters p.entry.inUse
  have entry : p.wake.1.entry = p.entry.service.1 := p.settle_entry p.entry.service
  have woken : p.wake.2 = p.entry.service.2 := p.settle_woken p.entry.service
  rw [entry, woken]
  exact served

theorem release_wake (p : Pool) (conn : Nat) (deadline : Option Nat) :
    p.release conn deadline = (p.giveBack conn deadline).wake := by
  cases deadline with
  | none =>
      show ({ p with leases := p.leases.erase conn } : Pool).settle (p.entry.release none) = _
      rw [Entry.release, Option.toList_none, List.append_nil]
      rfl
  | some deadline => rfl

theorem abandon_wake {ticket : Nat} {stage : Acquisition.Stage}
    (there : p.stage? ticket = some stage) (slot : stage ≠ .queued) :
    p.abandon ticket = (p.dropAcquisition ticket).freeSlot.wake := by
  rw [abandon, there]
  cases stage with
  | queued => exact absurd rfl slot
  | granted => rfl
  | opening => rfl
  | preparing _ => rfl
  | closing _ => rfl

theorem endRetries_wake {id : Nat} {r : RetryState} (there : p.retry? id = some r) :
    p.endRetries id =
      if r.owesWake then (p.forgetRetry r).wake else (p.forgetRetry r, none) := by
  obtain ⟨-, rfl⟩ := mem_of_findRetry there
  rw [endRetries, there]
  cases owes : r.owesWake with
  | true => simp only [owes]; rfl
  | false => simp only [owes]; rfl

theorem pauseParked_woken (p : Pool) (r : RetryState) (autocommit : Bool) :
    (p.pauseParked r autocommit).2.2 =
      if p.passesOn autocommit r.owesWake then p.sweep.wake.2 else none := by
  let attended := if p.passesOn autocommit r.owesWake then p.sweep.entry.service
    else (p.sweep.entry, none)
  have woken : (p.pauseParked r autocommit).2.2 = attended.2 := settle_woken _ (_, attended.2)
  rw [woken]
  simp only [attended]
  split
  · exact (p.sweep.settle_woken p.sweep.entry.service).symm
  · rfl

/-! ## One step -/

/-- What a step does to the queue, given the queue it finds. -/
def Lined (p : Pool) (e : Event) (found : List Waiter) : Prop :=
  ∃ rest, Waiter.Attended p.entry.limit found (p.woken e) rest ∧
    (p.after e).entry.waiters = rest ++ p.joiners e

namespace Lined

theorem still {found : List Waiter} (nobody : p.woken e = none) (none_joins : p.joiners e = [])
    (same : (p.after e).entry.waiters = found) : Lined p e found :=
  ⟨found, nobody ▸ .passed, by rw [same, none_joins, List.append_nil]⟩

/-- The queue is served when it is ready. -/
theorem wake {m : Pool} (limits : m.entry.limit = p.entry.limit) (woken : p.woken e = m.wake.2)
    (queue : (p.after e).entry.waiters = m.wake.1.entry.waiters ++ p.joiners e) :
    Lined p e m.entry.waiters :=
  ⟨_, by rw [woken, ← limits]; exact .served m.wake_served, queue⟩

/-- The place of an operation that ends its pause is dead. -/
theorem endPause_waiters (p : Pool) (r : RetryState) (owesWake : Bool) :
    (p.endPause r owesWake).entry.waiters = Waiter.leave r.ticket? p.entry.waiters := by
  rw [endPause]
  cases r.ticket? <;> rfl

theorem abandon (p : Pool) (ticket : Nat) :
    Lined p (.abandon ticket) (p.found (.abandon ticket)) := by
  show Lined p _ (Waiter.leave (p.leaver (.abandon ticket)) p.entry.waiters)
  rw [leaver]
  cases there : p.stage? ticket with
  | none =>
      exact still (by rw [woken, Pool.abandon, there]) rfl (by rw [after, abandon_none there]; rfl)
  | some stage =>
      by_cases waits : stage = .queued
      · subst waits
        exact still (by rw [woken, Pool.abandon, there]) rfl
          (by rw [after, abandon_queued there]; rfl)
      · rw [if_neg fun is => waits (Option.some.inj is)]
        refine wake (m := (p.dropAcquisition ticket).freeSlot) rfl ?_ ?_
        · rw [woken, abandon_wake there waits]
        · rw [after, abandon_slot there waits]
          exact (List.append_nil _).symm

theorem endRetries (p : Pool) (id : Nat) :
    Lined p (.endRetries id) (p.found (.endRetries id)) := by
  show Lined p _ (Waiter.leave (p.leaver (.endRetries id)) p.entry.waiters)
  rw [leaver]
  cases there : p.retry? id with
  | none =>
      exact still (by rw [woken, Pool.endRetries, there]) rfl
        (by rw [after, endRetries_none there]; rfl)
  | some r =>
      have ready : (p.forgetRetry r).entry.waiters =
          Waiter.leave r.ticket? p.entry.waiters := by
        rw [forgetRetry, cancelPause_eq]
        exact endPause_waiters p r r.owesWake
      have limits : (p.forgetRetry r).entry.limit = p.entry.limit := by
        rw [forgetRetry, cancelPause_eq, Pool.endPause]
        cases r.ticket? <;> rfl
      rw [Option.bind_some, ← ready]
      cases owes : r.owesWake with
      | true =>
          refine wake limits ?_ ?_
          · rw [woken, endRetries_wake there, if_pos owes]
          · rw [after, endRetries_wake there, if_pos owes]
            exact (List.append_nil _).symm
      | false =>
          have not_owed : ¬r.owesWake = true := by simp [owes]
          refine still ?_ rfl ?_
          · rw [woken, endRetries_wake there, if_neg not_owed]
          · rw [after, endRetries_wake there, if_neg not_owed]

theorem park {id : Nat} {r : RetryState} (there : p.retry? id = some r) (autocommit : Bool) :
    Lined p (.park id autocommit) (p.found (.park id autocommit)) := by
  have woken : p.woken (.park id autocommit) =
      if p.passesOn autocommit r.owesWake then p.sweep.wake.2 else none := by
    rw [Pool.woken, there, Option.bind_some, pauseParked_woken]
  have queue : (p.after (.park id autocommit)).entry.waiters =
      (if p.passesOn autocommit r.owesWake then p.sweep.wake.1 else p.sweep).entry.waiters ++
        [⟨p.fresh, .retry, true⟩] := by
    rw [after, withRetry_eq there, pauseParked_eq]
    split
    · show p.sweep.wake.1.entry.waiters ++ [⟨p.sweep.wake.1.fresh, .retry, true⟩] = _
      rw [p.sweep.wake_woke.fresh]
      rfl
    · rfl
  by_cases passes : p.passesOn autocommit r.owesWake
  · rw [if_pos passes] at woken queue
    exact wake (m := p.sweep) rfl woken queue
  · rw [if_neg passes] at woken queue
    exact ⟨_, woken ▸ .passed, queue⟩

/-- A pause may end without the operation. -/
theorem ofPause {id : Nat} {r : RetryState} {owesWake : Bool} (there : p.retry? id = some r)
    (ends : p.after e = p.endPause r owesWake) (nobody : p.woken e = none)
    (none_joins : p.joiners e = [])
    (finds : p.found e = Waiter.leave ((p.retry? id).bind RetryState.ticket?) p.entry.waiters) :
    Lined p e (p.found e) :=
  still nobody none_joins (by rw [ends, finds, there, Option.bind_some, endPause_waiters])

end Lined

/-- Every step does this to the queue, and nothing else. -/
theorem line_after (p : Pool) {e : Event} (permitted : p.permits e) : Lined p e (p.found e) := by
  cases e with
  | beginOpen | closePrimary | leasePrimary | opened | lease | initializerFailed | drainIdle
  | beginShutdown | endShutdown | beginRetries => exact .still rfl rfl rfl
  | endOpen opened => cases opened <;> exact .still rfl rfl rfl
  | releasePrimary => exact .wake rfl rfl (List.append_nil _).symm
  | acquire =>
      refine ⟨_, .passed, ?_⟩
      by_cases free : p.entry.inUse < p.entry.limit
      · rw [after, acquire_granted free, joiners, if_pos free, List.append_nil]
        rfl
      · rw [after, acquire_queued free, joiners, if_neg free]
        rfl
  | claim ticket isOpen =>
      refine .still rfl rfl ?_
      rw [after]
      rcases p.claim_cases ticket isOpen with ⟨_, _, _, _, eq⟩ | ⟨_, eq⟩ <;> rw [eq] <;> rfl
  | abandon ticket => exact .abandon p ticket
  | release conn deadline =>
      have ready : (p.giveBack conn deadline).entry.waiters = p.found (.release conn deadline) := by
        cases deadline <;> rfl
      have limits : (p.giveBack conn deadline).entry.limit = p.entry.limit := by
        cases deadline <;> rfl
      rw [← ready]
      refine .wake limits ?_ ?_
      · rw [woken, release_wake]
      · rw [after, release_wake]
        exact (List.append_nil _).symm
  | fire timer =>
      refine .still rfl rfl ?_
      rw [after]
      rcases p.fire_cases timer with eq | ⟨_, _, _, eq⟩ <;> rw [eq] <;> rfl
  | park id autocommit =>
      obtain ⟨r, there, _⟩ := retry_of_hasRetry permitted
      exact .park there autocommit
  | delay id =>
      obtain ⟨r, there, _⟩ := retry_of_hasRetry permitted
      exact .still rfl rfl (by rw [after, withRetry_eq there]; rfl)
  | resume id =>
      obtain ⟨r, there, _⟩ := retry_of_hasRetry permitted
      exact .ofPause there (by rw [after, withRetry_eq there, resume_eq]) rfl rfl rfl
  | cancelPause id =>
      obtain ⟨r, there, _⟩ := retry_of_hasRetry permitted
      exact .ofPause there (by rw [after, withRetry_eq there, cancelPause_eq]) rfl rfl rfl
  | endRetries id => exact .endRetries p id

/-! ## Places -/

/-- A place in the queue has the ticket. -/
def queued (p : Pool) (ticket : Nat) : Bool := p.entry.waiters.any (·.ticket == ticket)

theorem queued_iff : p.queued t ↔ t ∈ p.entry.waiters.map Waiter.ticket := by
  simp [queued]

/-- The tickets that a step finds in the queue were there before. -/
theorem found_tickets (p : Pool) (e : Event) :
    List.Sublist ((p.found e).map Waiter.ticket) (p.entry.waiters.map Waiter.ticket) := by
  rw [found]
  split
  · exact List.filter_sublist.map _
  · rw [Waiter.map_ticket_leave]

/-- A dead place that a step finds was dead before, or is that of somebody who leaves. -/
theorem dead_found (mem : w ∈ p.found e) (dead : w.live = false) :
    (w ∈ p.entry.waiters ∧ w.live = false) ∨ p.leaver e = some w.ticket := by
  rw [found] at mem
  split at mem
  · exact .inl ⟨List.mem_of_mem_filter mem, dead⟩
  · exact Waiter.dead_leave mem dead

/-- Whoever lines up has the next ticket. -/
theorem joiners_fresh (mem : w ∈ p.joiners e) : w.ticket = p.fresh ∧ w.live := by
  cases e with
  | acquire =>
      rw [joiners] at mem
      split at mem
      · cases mem
      · rw [List.mem_singleton.mp mem]
        exact ⟨rfl, rfl⟩
  | park id autocommit =>
      rw [List.mem_singleton.mp mem]
      exact ⟨rfl, rfl⟩
  | _ => cases mem

/-- A ticket that has left the queue does not come back. -/
theorem queued_after (permitted : p.permits e) (there : (p.after e).queued t) :
    p.queued t ∨ t = p.fresh := by
  obtain ⟨rest, attended, queue⟩ := p.line_after permitted
  rw [queued_iff, queue, List.map_append, List.mem_append] at there
  rcases there with there | there
  · have old := (attended.sublist.map _).subset there
    exact .inl (queued_iff.mpr ((p.found_tickets e).subset old))
  · obtain ⟨w, mem, rfl⟩ := List.mem_map.mp there
    exact .inr (joiners_fresh mem).1

/-- Whoever is woken had a place in the queue, and has it no longer. -/
theorem not_queued_of_woken (slots : Slots limit p) (permitted : p.permits e)
    (wakes : p.woken e = some w) : p.queued w.ticket ∧ (p.after e).queued w.ticket = false := by
  obtain ⟨rest, attended, queue⟩ := p.line_after permitted
  rw [wakes] at attended
  have keyed : Keyed Waiter.ticket (p.found e) :=
    List.Nodup.sublist (p.found_tickets e) slots.waiters
  obtain ⟨mem, gone⟩ := attended.not_mem keyed
  have there := (p.found_tickets e).subset (List.mem_map_of_mem mem)
  refine ⟨queued_iff.mpr there, ?_⟩
  rw [← Bool.not_eq_true, queued_iff, queue, List.map_append, List.mem_append]
  rintro (again | again)
  · obtain ⟨v, mem, same⟩ := List.mem_map.mp again
    exact gone v mem same
  · obtain ⟨v, mem, same⟩ := List.mem_map.mp again
    obtain ⟨u, hu, is⟩ := List.mem_map.mp there
    have lt := slots.waiter_lt u hu
    have new := (joiners_fresh mem).1
    omega

/-- The place in the queue that a step gives up. -/
def givesUp (p : Pool) (e : Event) : Option Nat := (p.leaver e).filter p.queued

/-- A dead place was dead before, or is given up with the step. -/
theorem dead_after (permitted : p.permits e) (mem : w ∈ (p.after e).entry.waiters)
    (dead : w.live = false) :
    (w ∈ p.entry.waiters ∧ w.live = false) ∨ p.givesUp e = some w.ticket := by
  obtain ⟨rest, attended, queue⟩ := p.line_after permitted
  rw [queue, List.mem_append] at mem
  rcases mem with stays | joins
  · have there := attended.sublist.subset stays
    refine (dead_found there dead).imp_right fun leaves => ?_
    have place := queued_iff.mpr ((p.found_tickets e).subset (List.mem_map_of_mem there))
    rw [givesUp, leaves, Option.filter_some, if_pos place]
  · rw [(joiners_fresh joins).2] at dead
    cases dead

end Pool

end ConnectionPool
