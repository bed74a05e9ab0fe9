import ConnectionPool.Proofs.Keyed
import ConnectionPool.Proofs.Pool.Run

/-!
# Waking the first live waiter

Every operation that wakes somebody changes the books and then wakes the first live
waiter.  `Waiter.Served` lists what `Waiter.serve` can do and `Pool.Woke` what it means
for a pool, one case each for nobody, a lock retry, an acquisition that gets a slot and
an acquisition that does not.  What a wake preserves is proved from these cases, and
the rest of an operation from its equation here: the change it makes, then the wake.
-/

namespace ConnectionPool

/-! ## Waiters -/

/-- How the first live waiter is served. -/
inductive Waiter.Served (limit : Nat) :
    List Waiter → Nat → List Waiter × Nat × Option Waiter → Prop where
  /-- Nobody waits. -/
  | nobody {ws : List Waiter} {n : Nat} :
      (∀ w ∈ ws, w.live = false) → Served limit ws n ([], n, none)
  /-- A lock retry is woken. -/
  | retry {dead rest : List Waiter} {w : Waiter} {n : Nat} :
      (∀ d ∈ dead, d.live = false) → w.live = true → w.kind = .retry →
      Served limit (dead ++ w :: rest) n (rest, n, some w)
  /-- An acquisition is granted a slot. -/
  | granted {dead rest : List Waiter} {w : Waiter} {n : Nat} :
      (∀ d ∈ dead, d.live = false) → w.live = true → w.kind = .acquisition → n < limit →
      Served limit (dead ++ w :: rest) n (rest, n + 1, some w)
  /-- There is no slot for the acquisition. -/
  | kept {dead rest : List Waiter} {w : Waiter} {n : Nat} :
      (∀ d ∈ dead, d.live = false) → w.live = true → w.kind = .acquisition → ¬ n < limit →
      Served limit (dead ++ w :: rest) n (w :: rest, n, none)

/-- A dead waiter more at the front changes nothing. -/
theorem Waiter.Served.cons {limit : Nat} {ws : List Waiter} {n : Nat}
    {result : List Waiter × Nat × Option Waiter} {d : Waiter} (dead : d.live = false)
    (h : Served limit ws n result) : Served limit (d :: ws) n result := by
  have all : ∀ {ds : List Waiter}, (∀ x ∈ ds, x.live = false) → ∀ x ∈ d :: ds, x.live = false :=
    fun hd => List.forall_mem_cons.mpr ⟨dead, hd⟩
  cases h with
  | nobody hd => exact .nobody (all hd)
  | retry hd live kind => exact @Served.retry limit (d :: _) _ _ _ (all hd) live kind
  | granted hd live kind free => exact @Served.granted limit (d :: _) _ _ _ (all hd) live kind free
  | kept hd live kind full => exact @Served.kept limit (d :: _) _ _ _ (all hd) live kind full

theorem Waiter.serve_served (limit : Nat) (ws : List Waiter) (n : Nat) :
    Served limit ws n (serve limit ws n) := by
  induction ws with
  | nil => exact .nobody (by simp)
  | cons w rest ih =>
      have none_dead : ∀ d ∈ ([] : List Waiter), d.live = false := by simp
      cases live : w.live with
      | false =>
          rw [serve, live]
          exact ih.cons live
      | true =>
          cases kind : w.kind with
          | retry =>
              simp only [serve, live, kind, if_true]
              exact .retry none_dead live kind
          | acquisition =>
              simp only [serve, live, kind, if_true]
              split
              · exact .granted none_dead live kind ‹_›
              · exact .kept none_dead live kind ‹_›

/-! ## Idle connections -/

/-- An idle connection is found, or none is left. -/
theorem Entry.takeIdle_cases (e : Entry) (isOpen : Nat → Bool) :
    (∃ i idle, idle.length < e.idle.length ∧
      (e.takeIdle isOpen).1 = { e with idle } ∧ (e.takeIdle isOpen).2.1 = some i) ∨
    ((e.takeIdle isOpen).1 = { e with idle := [] } ∧ (e.takeIdle isOpen).2.1 = none) := by
  rw [Entry.takeIdle]
  cases eq : e.idle.reverse.dropWhile (fun i => !isOpen i.conn) with
  | nil => exact .inr ⟨rfl, rfl⟩
  | cons i rest =>
      refine .inl ⟨i, rest.reverse, ?_, rfl, rfl⟩
      have le := (List.dropWhile_sublist (fun i : Idle => !isOpen i.conn)
        (l := e.idle.reverse)).length_le
      rw [eq, List.length_cons, List.length_reverse] at le
      rw [List.length_reverse]
      exact le

/-! ## Pools -/

namespace Pool

/-- The waiters and slots of a pool are changed. -/
def withWaiters (p : Pool) (waiters : List Waiter) (inUse : Nat) : Pool :=
  { p with entry := { p.entry with waiters, inUse } }

/-- A wake is sent to a receiver. -/
def sendWake (p : Pool) (ticket : Nat) : Pool :=
  { p with
    receivers :=
      replaceKey Receiver.ticket ticket (fun r => { r with woken := true }) p.receivers }

/-- What a wake makes of a pool. -/
inductive Woke (p : Pool) : Pool → Prop where
  /-- Nobody waits. -/
  | nobody : (∀ w ∈ p.entry.waiters, w.live = false) → Woke p (p.withWaiters [] p.entry.inUse)
  /-- A lock retry is woken. -/
  | retry {dead rest : List Waiter} {w : Waiter} : p.entry.waiters = dead ++ w :: rest →
      (∀ d ∈ dead, d.live = false) → w.live = true → w.kind = .retry →
      Woke p ((p.withWaiters rest p.entry.inUse).sendWake w.ticket)
  /-- An acquisition is granted a slot. -/
  | granted {dead rest : List Waiter} {w : Waiter} : p.entry.waiters = dead ++ w :: rest →
      (∀ d ∈ dead, d.live = false) → w.live = true → w.kind = .acquisition →
      p.entry.inUse < p.entry.limit →
      Woke p ((p.withWaiters rest (p.entry.inUse + 1)).setStage w.ticket .granted)
  /-- There is no slot for the acquisition. -/
  | kept {dead rest : List Waiter} {w : Waiter} : p.entry.waiters = dead ++ w :: rest →
      (∀ d ∈ dead, d.live = false) → w.live = true → w.kind = .acquisition →
      ¬ p.entry.inUse < p.entry.limit →
      Woke p (p.withWaiters (w :: rest) p.entry.inUse)

theorem wake_woke (p : Pool) : Woke p p.wake.1 := by
  have served := Waiter.serve_served p.entry.limit p.entry.waiters p.entry.inUse
  have wake_eq : p.wake = p.settle
      ({ p.entry with
          waiters := (Waiter.serve p.entry.limit p.entry.waiters p.entry.inUse).1
          inUse := (Waiter.serve p.entry.limit p.entry.waiters p.entry.inUse).2.1 },
        (Waiter.serve p.entry.limit p.entry.waiters p.entry.inUse).2.2) := rfl
  rw [wake_eq]
  generalize Waiter.serve p.entry.limit p.entry.waiters p.entry.inUse = result at served ⊢
  generalize waiters_eq : p.entry.waiters = ws at served
  generalize inUse_eq : p.entry.inUse = n at served
  cases served with
  | nobody dead => exact inUse_eq ▸ .nobody (waiters_eq ▸ dead)
  | retry dead live kind =>
      simp only [settle, kind]
      exact inUse_eq ▸ .retry waiters_eq dead live kind
  | granted dead live kind free =>
      simp only [settle, kind]
      exact inUse_eq ▸ .granted waiters_eq dead live kind (inUse_eq ▸ free)
  | kept dead live kind full => exact inUse_eq ▸ .kept waiters_eq dead live kind (inUse_eq ▸ full)

/-- Waiters leave when somebody is woken, and none joins. -/
theorem Woke.waiters {p q : Pool} (woke : Woke p q) :
    List.Sublist q.entry.waiters p.entry.waiters := by
  have behind : ∀ {dead rest : List Waiter} {w : Waiter},
      p.entry.waiters = dead ++ w :: rest → List.Sublist rest p.entry.waiters := by
    intro dead rest w eq
    rw [eq]
    exact (List.sublist_cons_self w rest).trans (List.sublist_append_right dead (w :: rest))
  cases woke with
  | nobody _ => exact List.nil_sublist p.entry.waiters
  | retry eq _ _ _ => exact behind eq
  | granted eq _ _ _ _ => exact behind eq
  | kept eq _ _ _ _ => exact eq ▸ List.sublist_append_right _ _

theorem Woke.retries {p q : Pool} (woke : Woke p q) : q.retries = p.retries := by
  cases woke <;> rfl

theorem Woke.fresh {p q : Pool} (woke : Woke p q) : q.fresh = p.fresh := by
  cases woke <;> rfl

/-! ## Acquisitions that wait -/

theorem acquire_granted {p : Pool} (free : p.entry.inUse < p.entry.limit) :
    p.acquire.1 = { p with
      entry := { p.entry with inUse := p.entry.inUse + 1 }
      acquisitions := p.acquisitions ++ [⟨p.fresh, .granted⟩]
      fresh := p.fresh + 1 } := by
  rw [acquire, Entry.reserve, if_pos free]
  rfl

theorem acquire_queued {p : Pool} (full : ¬ p.entry.inUse < p.entry.limit) :
    p.acquire.1 = { p.withWaiters (p.entry.waiters ++ [⟨p.fresh, .acquisition, true⟩])
        p.entry.inUse with
      acquisitions := p.acquisitions ++ [⟨p.fresh, .queued⟩]
      fresh := p.fresh + 1 } := by
  rw [acquire, Entry.reserve, if_neg full]
  rfl

/-! ## Acquisitions that go on -/

/-- An acquisition takes an idle connection, or has to open one because none is left. -/
theorem claim_cases (p : Pool) (ticket : Nat) (isOpen : Nat → Bool) :
    (∃ (i : Idle) (idle : List Idle) (timers : List GraceTimer),
      idle.length < p.entry.idle.length ∧ (p.claim ticket isOpen).1 =
      { p.dropAcquisition ticket with
        entry := { p.entry with idle }, leases := p.leases ++ [i.conn], timers }) ∨
    (∃ timers, (p.claim ticket isOpen).1 =
      ({ p with entry := { p.entry with idle := [] }, timers }).setStage ticket .opening) := by
  let timers := (p.stopTimers (p.entry.takeIdle isOpen).2.2).timers
  rcases p.entry.takeIdle_cases isOpen with ⟨i, idle, fewer, entry, found⟩ | ⟨entry, found⟩
  · refine .inl ⟨i, idle, timers, fewer, ?_⟩
    simp only [claim, entry, found]
    rfl
  · refine .inr ⟨timers, ?_⟩
    simp only [claim, entry, found]
    rfl

/-! ## Timers -/

/-- A timer takes its connection from the idle ones, if it is there. -/
theorem fire_cases (p : Pool) (timer : Nat) : (p.fire timer).1 = p ∨
    ∃ (idle : List Idle) (timers : List GraceTimer), idle.length ≤ p.entry.idle.length ∧
      (p.fire timer).1 = { p with entry := { p.entry with idle }, timers } := by
  rw [fire]
  cases p.timers.find? (·.id == timer) with
  | none => exact .inl rfl
  | some t =>
      refine .inr ?_
      simp only [Entry.expire]
      cases p.entry.idle.findIdx? (·.conn == t.conn) with
      | none => exact ⟨_, _, Nat.le_refl _, rfl⟩
      | some i =>
          refine ⟨swapRemove p.entry.idle i, _, ?_, rfl⟩
          rw [swapRemove]
          cases p.entry.idle.getLast? with
          | none => exact Nat.zero_le _
          | some last =>
              rw [List.length_dropLast, List.length_set]
              exact Nat.sub_le _ _

/-! ## Operations that wake -/

/-- A slot is given back. -/
def freeSlot (p : Pool) : Pool :=
  { p with entry := { p.entry with inUse := p.entry.inUse - 1 } }

/-- A pooled connection is given back, and nobody was woken yet. -/
def giveBack (p : Pool) (conn : Nat) (deadline : Option Nat) : Pool :=
  let p := { p with leases := p.leases.erase conn }
  match deadline with
  | none => p.freeSlot
  | some deadline =>
    let timer : GraceTimer := ⟨p.fresh, conn, deadline⟩
    let entry := { p.entry with idle := p.entry.idle ++ [⟨conn, timer.id⟩] }
    ({ p with timers := p.timers ++ [timer], fresh := p.fresh + 1, entry }).freeSlot

/-- Dead waiters leave. -/
def sweep (p : Pool) : Pool :=
  p.withWaiters (p.entry.waiters.filter (·.live)) p.entry.inUse

/-- A lock retry joins the queue with a fresh ticket. -/
def joinQueue (p : Pool) : Pool :=
  { p.withWaiters (p.entry.waiters ++ [⟨p.fresh, .retry, true⟩]) p.entry.inUse with
    receivers := p.receivers ++ [⟨p.fresh, false⟩]
    fresh := p.fresh + 1 }

/-- A lock retry that joins the queue wakes the first waiter. -/
def passesOn (p : Pool) (autocommit owesWake : Bool) : Bool :=
  autocommit || (owesWake && p.sweep.entry.acquisitionReady)

theorem release_eq (p : Pool) (conn : Nat) (deadline : Option Nat) :
    (p.release conn deadline).1 = (p.giveBack conn deadline).wake.1 := by
  cases deadline with
  | none =>
      show (({ p with leases := p.leases.erase conn } : Pool).settle
        (p.entry.release none)).1 = _
      rw [Entry.release, Option.toList_none, List.append_nil]
      rfl
  | some deadline => rfl

theorem abandon_queued {p : Pool} {ticket : Nat} (stage : p.stage? ticket = some .queued) :
    (p.abandon ticket).1 =
      { p.dropAcquisition ticket with entry := p.entry.abandon ticket } := by
  rw [abandon, stage]

theorem abandon_slot {p : Pool} {ticket : Nat} {stage : Acquisition.Stage}
    (found : p.stage? ticket = some stage) (slot : stage ≠ .queued) :
    (p.abandon ticket).1 = (p.dropAcquisition ticket).freeSlot.wake.1 := by
  rw [abandon, found]
  cases stage with
  | queued => exact absurd rfl slot
  | granted => rfl
  | opening => rfl
  | preparing _ => rfl
  | closing _ => rfl

theorem abandon_none {p : Pool} {ticket : Nat} (found : p.stage? ticket = none) :
    (p.abandon ticket).1 = p := by
  rw [abandon, found]

/-! ## Operations that may retry -/

/-- An operation that may retry is forgotten, and its pause given up. -/
def forgetRetry (p : Pool) (r : RetryState) : Pool :=
  let p := p.cancelPause r
  { p with retries := removeKey RetryState.id r.id p.retries }

theorem endRetries_some {p : Pool} {id : Nat} {r : RetryState} (found : p.retry? id = some r) :
    (p.endRetries id).1 = if r.owesWake then (p.forgetRetry r).wake.1 else p.forgetRetry r := by
  obtain ⟨-, rfl⟩ := mem_of_find?_key found
  rw [endRetries, found]
  cases owes : r.owesWake with
  | true => simp only [owes]; rfl
  | false => simp only [owes]; rfl

theorem endRetries_none {p : Pool} {id : Nat} (found : p.retry? id = none) :
    (p.endRetries id).1 = p := by
  rw [endRetries, found]

/-- Telling a waiter and joining the queue do not get in each other's way. -/
theorem settle_joinQueue (p : Pool) (e : Entry) (woken : Option Waiter) :
    let joined := { e with waiters := e.waiters ++ [⟨p.fresh, .retry, true⟩] }
    let told := (settle { p with fresh := p.fresh + 1 } (joined, woken)).1
    { told with receivers := told.receivers ++ [⟨p.fresh, false⟩] } =
      (p.settle (e, woken)).1.joinQueue := by
  cases woken with
  | none => rfl
  | some w =>
      cases kind : w.kind with
      | acquisition => simp only [settle, kind]; rfl
      | retry => simp only [settle, kind]; rfl

/-- Parking wakes the first waiter or does not, and then joins the queue. -/
theorem park_eq (p : Pool) (autocommit owesWake : Bool) :
    (p.park autocommit owesWake).1 =
      (if p.passesOn autocommit owesWake then p.sweep.wake.1 else p.sweep).joinQueue := by
  have joined := p.settle_joinQueue
    (if p.passesOn autocommit owesWake then p.sweep.entry.service else (p.sweep.entry, none)).1
    (if p.passesOn autocommit owesWake then p.sweep.entry.service else (p.sweep.entry, none)).2
  refine Eq.trans joined ?_
  cases p.passesOn autocommit owesWake with
  | true => rfl
  | false => rfl

theorem park_owed (p : Pool) (autocommit owesWake : Bool) :
    (p.park autocommit owesWake).2.2.1 = (owesWake && !p.passesOn autocommit owesWake) := by
  rfl

end Pool

end ConnectionPool
