import ConnectionPool.Proofs.Pool.Load
import ConnectionPool.Proofs.Pool.Stages
import Mathlib.Data.List.Perm.Subperm

/-!
# What piles up in the queue

Somebody who waits no longer leaves a dead place behind.  Two kinds of places die, and they
are swept out by different steps.

A lock retry sweeps the queue when it lines up.  So however often lock retries time out or are
cancelled, the places they leave are those of the retries that stood in the queue when the
last one lined up.  Each of these had an operation in flight, and a connection has one at a
time.  So there are no more of them than connections that were open then.

An acquisition that is given up leaves a place too, but whoever asks for a pooled connection
sweeps nothing.  While every slot is taken and no lock retry lines up, each acquisition that
is given up leaves one place more.

A `Census` keeps beside a pool the connections that are open for its path, the most that were
open at one time, and the acquisitions that were given up in the queue since a lock retry
last lined up.  `Run.leftovers` bounds the dead places by the last two together, and says that
the second is needed: it alone makes the queue of a full pool as long as one likes.
-/

namespace ConnectionPool

/-- The place of an acquisition that was given up. -/
def Waiter.isGivenUp (w : Waiter) : Bool := !w.live && w.kind == .acquisition

/-- The place of a lock retry, dead or not. -/
def Waiter.isRetry (w : Waiter) : Bool := w.kind == .retry

namespace Pool

variable {limit : Nat} {p : Pool} {e : Event}

/-! ## Dead places -/

/-- The dead places in the queue. -/
def deadPlaces (p : Pool) : Nat := p.entry.waiters.countP (!·.live)

/-- The places of acquisitions that were given up. -/
def givenUpPlaces (p : Pool) : Nat := p.entry.waiters.countP Waiter.isGivenUp

/-- The places of lock retries, dead or not. -/
def retryPlaces (p : Pool) : Nat := p.entry.waiters.countP Waiter.isRetry

/-- A dead place is that of a lock retry or of an acquisition. -/
theorem deadPlaces_le (p : Pool) : p.deadPlaces ≤ p.retryPlaces + p.givenUpPlaces := by
  rw [deadPlaces, retryPlaces, givenUpPlaces]
  induction p.entry.waiters with
  | nil => simp
  | cons w ws ih =>
      obtain ⟨ticket, kind, live⟩ := w
      cases kind <;> cases live <;> simp [Waiter.isRetry, Waiter.isGivenUp] at ih ⊢ <;> omega

/-- An acquisition is given up in the queue. -/
def givesUpAcquisition (p : Pool) : Event → Bool
  | .abandon ticket => p.stage? ticket == some .queued
  | _ => false

/-- Those who stay, and whoever lines up, are counted in the queue that a step finds. -/
theorem countP_after_le (permitted : p.permits e) (counts : Waiter → Bool) :
    (p.after e).entry.waiters.countP counts ≤
      (p.found e).countP counts + (p.joiners e).countP counts := by
  obtain ⟨rest, attended, queue⟩ := p.line_after permitted
  have fewer := attended.sublist.countP_le (p := counts)
  rw [queue, List.countP_append]
  omega

/-! ## The places of lock retries -/

/-- Only a lock retry adds a place of one. -/
theorem retryPlaces_after_le (permitted : p.permits e) (still : e.sweeps = false) :
    (p.after e).retryPlaces ≤ p.retryPlaces := by
  have counted := countP_after_le permitted Waiter.isRetry
  have found : (p.found e).countP Waiter.isRetry ≤ p.retryPlaces := by
    rw [Pool.found, still, if_neg Bool.false_ne_true, retryPlaces]
    cases p.leaver e with
    | none => exact Nat.le_refl _
    | some ticket => exact countP_replaceKey_le fun _ counts => counts
  have joiners : (p.joiners e).countP Waiter.isRetry = 0 := by
    rw [List.countP_eq_zero]
    intro w mem
    cases e with
    | acquire =>
        rw [Pool.joiners] at mem
        split at mem
        · cases mem
        · rw [List.mem_singleton.mp mem]
          exact Bool.false_ne_true
    | park => cases still
    | _ => cases mem
  rw [joiners, Nat.add_zero] at counted
  exact Nat.le_trans counted found

/-- A live place of a lock retry belongs to an operation that pauses there. -/
theorem live_retryPlaces_le (slots : Slots limit p) (pauses : Pauses p) :
    (p.entry.waiters.filter (·.live)).countP Waiter.isRetry ≤
      p.retries.countP (·.ticket?.isSome) := by
  let places := (p.entry.waiters.filter (·.live)).filter Waiter.isRetry
  have keyed : (places.map Waiter.ticket).Nodup :=
    List.Nodup.sublist ((List.filter_sublist.trans List.filter_sublist).map _) slots.waiters
  have parked : places.map Waiter.ticket ⊆ p.retries.filterMap RetryState.ticket? := by
    intro ticket mem
    obtain ⟨w, place, rfl⟩ := List.mem_map.mp mem
    obtain ⟨there, retry⟩ := List.mem_filter.mp place
    obtain ⟨old, live⟩ := List.mem_filter.mp there
    obtain ⟨⟨r, hr, waits⟩, -⟩ := pauses.awaited w old live (beq_iff_eq.mp retry)
    exact List.mem_filterMap.mpr ⟨r, hr, waits⟩
  have fewer := (keyed.subperm parked).length_le
  rw [List.length_map, List.length_filterMap_eq_countP] at fewer
  rwa [List.countP_eq_length_filter]

/-- Whoever lines up for a lock retry was not parked, so the live places and the new one belong
to different operations. -/
theorem retryPlaces_park_le (slots : Slots limit p) (pauses : Pauses p) {id : Nat}
    {autocommit : Bool} (permitted : p.permits (.park id autocommit)) :
    (p.after (.park id autocommit)).retryPlaces ≤ p.retries.length := by
  obtain ⟨r, there, awake⟩ := retry_of_hasRetry permitted
  have counted := countP_after_le permitted Waiter.isRetry
  have joins : (p.joiners (.park id autocommit)).countP Waiter.isRetry = 1 := rfl
  have found : (p.found (.park id autocommit)).countP Waiter.isRetry ≤
      p.retries.countP (·.ticket?.isSome) := live_retryPlaces_le slots pauses
  have waits_not : r.ticket? = none := by
    rw [RetryState.ticket?, Option.isNone_iff_eq_none.mp awake]
  have other : p.retries.countP (·.ticket?.isSome) < p.retries.length := by
    refine Nat.lt_of_le_of_ne List.countP_le_length fun all => ?_
    have parked := List.countP_eq_length.mp all r (mem_of_findRetry there).1
    rw [waits_not] at parked
    cases parked
  rw [retryPlaces]
  omega

/-! ## The places of acquisitions -/

/-- Whoever lines up has not given up. -/
theorem countP_joiners_isGivenUp (p : Pool) (e : Event) :
    (p.joiners e).countP Waiter.isGivenUp = 0 := by
  rw [List.countP_eq_zero]
  intro w mem
  simp [Waiter.isGivenUp, (joiners_fresh mem).2]

/-- A step that sweeps leaves no place of an acquisition that was given up. -/
theorem givenUpPlaces_of_sweeps (permitted : p.permits e) (sweeps : e.sweeps) :
    (p.after e).givenUpPlaces = 0 := by
  have counted := countP_after_le permitted Waiter.isGivenUp
  have found : (p.found e).countP Waiter.isGivenUp = 0 := by
    rw [Pool.found, if_pos sweeps, List.countP_eq_zero]
    intro w mem
    have live := (List.mem_filter.mp mem).2
    simp [Waiter.isGivenUp, live]
  rw [p.countP_joiners_isGivenUp e, found] at counted
  exact Nat.le_zero.mp counted

/-- One place dies at most. -/
theorem countP_kill_le {ws : List Waiter} (keyed : Keyed Waiter.ticket ws) (ticket : Nat) :
    (Waiter.kill ticket ws).countP Waiter.isGivenUp ≤ ws.countP Waiter.isGivenUp + 1 := by
  by_cases there : ∃ w ∈ ws, w.ticket = ticket
  · obtain ⟨w, mem, is⟩ := there
    have counted := countP_replaceKey (f := fun w => { w with live := false }) keyed mem is
      Waiter.isGivenUp
    have one : (if Waiter.isGivenUp { w with live := false } then 1 else 0) ≤ 1 := by
      split <;> omega
    rw [Waiter.kill]
    omega
  · have same : Waiter.kill ticket ws = ws :=
      replaceKey_of_ne fun w mem is => there ⟨w, mem, is⟩
    rw [same]
    exact Nat.le_succ _

/-- The place of a lock retry is no place of an acquisition. -/
theorem countP_kill_retry {ws : List Waiter} {ticket : Nat}
    (retry : ∀ w ∈ ws, w.kind = .acquisition → w.ticket ≠ ticket) :
    (Waiter.kill ticket ws).countP Waiter.isGivenUp ≤ ws.countP Waiter.isGivenUp := by
  rw [Waiter.kill, replaceKey, List.countP_map]
  refine List.countP_mono_left fun w mem counts => ?_
  rw [Function.comp_apply] at counts
  split at counts
  · next is =>
      have kind : w.kind = .acquisition := by simpa [Waiter.isGivenUp] using counts
      exact absurd is (retry w mem kind)
  · exact counts

/-- Whoever lined up last gives his place up. -/
theorem kill_last {ws : List Waiter} {ticket : Nat} {kind : Waiter.Kind}
    (others : ∀ w ∈ ws, w.ticket ≠ ticket) :
    Waiter.kill ticket (ws ++ [⟨ticket, kind, true⟩]) = ws ++ [⟨ticket, kind, false⟩] := by
  have same : Waiter.kill ticket ws = ws := replaceKey_of_ne others
  rw [Waiter.kill, replaceKey] at same ⊢
  rw [List.map_append, same, List.map_singleton, if_pos rfl]

/-- A place of an acquisition dies only when an acquisition is given up in the queue. -/
theorem givenUpPlaces_after_le (slots : Slots limit p) (pauses : Pauses p)
    (permitted : p.permits e) :
    (p.after e).givenUpPlaces ≤ p.givenUpPlaces + (p.givesUpAcquisition e).toNat := by
  cases sweeps : e.sweeps with
  | true =>
      rw [givenUpPlaces_of_sweeps permitted sweeps]
      exact Nat.zero_le _
  | false =>
      have counted := countP_after_le permitted Waiter.isGivenUp
      have ofRetry : ∀ {id : Nat}, p.leaver e = (p.retry? id).bind RetryState.ticket? →
          (p.found e).countP Waiter.isGivenUp ≤ p.givenUpPlaces := by
        intro id leaver
        rw [Pool.found, sweeps, if_neg Bool.false_ne_true, leaver]
        cases waits : (p.retry? id).bind RetryState.ticket? with
        | none => exact Nat.le_refl _
        | some ticket =>
            obtain ⟨r, there, parked⟩ := Option.bind_eq_some_iff.mp waits
            refine countP_kill_retry fun w mem kind is => ?_
            exact pauses.separate w mem kind r (mem_of_findRetry there).1 (is ▸ parked)
      have found : (p.found e).countP Waiter.isGivenUp ≤
          p.givenUpPlaces + (p.givesUpAcquisition e).toNat := by
        cases e with
        | abandon ticket =>
            rw [Pool.found, sweeps, if_neg Bool.false_ne_true, leaver, givesUpAcquisition]
            by_cases waits : p.stage? ticket = some .queued
            · rw [if_pos waits, waits]
              exact countP_kill_le slots.waiters ticket
            · rw [if_neg waits]
              exact Nat.le_add_right _ _
        | resume id => exact Nat.le_trans (ofRetry rfl) (Nat.le_add_right _ _)
        | cancelPause id => exact Nat.le_trans (ofRetry rfl) (Nat.le_add_right _ _)
        | endRetries id => exact Nat.le_trans (ofRetry rfl) (Nat.le_add_right _ _)
        | park => cases sweeps
        | _ => exact Nat.le_add_right _ _
      rw [p.countP_joiners_isGivenUp e, Nat.add_zero] at counted
      exact Nat.le_trans counted found

/-! ## Operations in flight -/

/-- Operations that may retry come one at a time. -/
theorem length_retries_after_le (permitted : p.permits e) :
    (p.after e).retries.length ≤ p.retries.length + (e matches .beginRetries).toNat := by
  have same : ∀ {q : Pool}, q.retries = p.retries → q.retries.length ≤ p.retries.length := by
    intro q eq
    rw [eq]
  have replaced : ∀ {q : Pool} {id : Nat} {f : RetryState → RetryState},
      q.retries = replaceKey RetryState.id id f p.retries → q.retries.length ≤ p.retries.length := by
    intro q id f eq
    rw [eq, replaceKey, List.length_map]
  cases e with
  | beginRetries => exact Nat.le_of_eq List.length_append
  | releasePrimary => exact same p.wake_woke.retries
  | release conn deadline =>
      rw [after, release_eq]
      refine same ((p.giveBack conn deadline).wake_woke.retries.trans ?_)
      cases deadline <;> rfl
  | abandon ticket =>
      cases there : p.stage? ticket with
      | none =>
          rw [after, abandon_none there]
          exact Nat.le_refl _
      | some stage =>
          by_cases waits : stage = .queued
          · rw [after, abandon_queued (waits ▸ there)]
            exact Nat.le_refl _
          · rw [after, abandon_slot there waits]
            exact same (p.dropAcquisition ticket).freeSlot.wake_woke.retries
  | park id autocommit =>
      obtain ⟨r, there, -⟩ := retry_of_hasRetry permitted
      rw [after, withRetry_eq there]
      exact replaced (p.pauseParked_retries r autocommit)
  | delay id =>
      obtain ⟨r, there, -⟩ := retry_of_hasRetry permitted
      rw [after, withRetry_eq there]
      exact replaced (f := fun _ => _) rfl
  | resume id =>
      obtain ⟨r, there, -⟩ := retry_of_hasRetry permitted
      rw [after, withRetry_eq there]
      exact replaced (p.resume_retries r)
  | cancelPause id =>
      obtain ⟨r, there, -⟩ := retry_of_hasRetry permitted
      rw [after, withRetry_eq there, cancelPause_eq]
      exact replaced (p.endPause_retries r r.owesWake)
  | endRetries id =>
      rw [after, endRetries_retries]
      exact List.filter_sublist.length_le
  | _ => exact Nat.le_of_eq (congrArg List.length (after_retries rfl).1)

/-! ## Connections -/

/-- The connections that a step opens for the path. -/
def Event.opens : Event → Nat
  | .endOpen true | .opened _ _ => 1
  | _ => 0

/-- A pool, and the connections that are open for its path. -/
structure Census where
  /-- The pool. -/
  pool : Pool
  /-- The connections that are open. -/
  opened : Nat := 0
  /-- The most that were open at one time. -/
  peak : Nat := 0
  /-- The acquisitions given up in the queue since a lock retry last lined up. -/
  givenUp : Nat := 0
  deriving DecidableEq, Repr

namespace Census

variable {s : Census} {k : Nat}

/-- What changes a census. -/
inductive Change where
  /-- A step with the pool. -/
  | step (e : Event)
  /-- A connection is closed for good. -/
  | close

/-- The change is possible.  A connection has one operation in flight at most, which may be one
that retries, and is not closed for good before that has ended. -/
def permits (s : Census) : Change → Bool
  | .step .beginRetries => s.pool.retries.length < s.opened
  | .step e => s.pool.permits e
  | .close => s.pool.retries.length < s.opened

/-- The census after a change. -/
def after (s : Census) : Change → Census
  | .step e =>
    { pool := s.pool.after e
      opened := s.opened + e.opens
      peak := max s.peak (s.opened + e.opens)
      givenUp := if e.sweeps then 0 else s.givenUp + (s.pool.givesUpAcquisition e).toNat }
  | .close => { s with opened := s.opened - 1 }

/-- A census comes about by changes. -/
inductive Run (limit : Nat) : Census → Prop where
  /-- Nobody has used the pool. -/
  | new : Run limit { pool := Pool.new limit }
  /-- One more change. -/
  | step {s : Census} (c : Change) : Run limit s → s.permits c → Run limit (s.after c)

theorem permits_step (permitted : s.permits (.step e)) : s.pool.permits e := by
  cases e with
  | beginRetries => rfl
  | _ => exact permitted

/-- What every change keeps. -/
structure Kept (limit : Nat) (s : Census) : Prop where
  slots : Slots limit s.pool
  pauses : Pauses s.pool
  /-- Every operation that may retry has a connection of its own. -/
  busy : s.pool.retries.length ≤ s.opened
  opened_le : s.opened ≤ s.peak
  /-- The places of lock retries are no more than connections were open at one time. -/
  retryPlaces_le : s.pool.retryPlaces ≤ s.peak
  /-- The places of acquisitions were given up since the last sweep. -/
  givenUpPlaces_le : s.pool.givenUpPlaces ≤ s.givenUp

namespace Kept

theorem new (limit : Nat) : Kept limit { pool := Pool.new limit } where
  slots := .new limit
  pauses := .new limit
  busy := Nat.le_refl _
  opened_le := Nat.le_refl _
  retryPlaces_le := Nat.le_refl _
  givenUpPlaces_le := Nat.le_refl _

theorem step (h : Kept limit s) (permitted : s.permits (.step e)) :
    Kept limit (s.after (.step e)) := by
  have turn := permits_step permitted
  have peaks : s.peak ≤ max s.peak (s.opened + e.opens) := Nat.le_max_left _ _
  refine ⟨h.slots.after e turn, h.pauses.after h.slots e turn, ?_, Nat.le_max_right _ _, ?_, ?_⟩
  · -- a connection that is free is there for an operation that comes
    have length := length_retries_after_le turn
    have busy := h.busy
    show (s.pool.after e).retries.length ≤ s.opened + e.opens
    cases e with
    | beginRetries =>
        have free : s.pool.retries.length < s.opened := of_decide_eq_true permitted
        exact Nat.le_trans length free
    | _ => exact Nat.le_trans length (Nat.le_trans busy (Nat.le_add_right _ _))
  · show (s.pool.after e).retryPlaces ≤ max s.peak (s.opened + e.opens)
    cases sweeps : e.sweeps with
    | false =>
        exact Nat.le_trans (retryPlaces_after_le turn sweeps) (Nat.le_trans h.retryPlaces_le peaks)
    | true =>
        cases e with
        | park id autocommit =>
            have counted := retryPlaces_park_le h.slots h.pauses turn
            have busy := h.busy
            have opened := h.opened_le
            omega
        | _ => cases sweeps
  · show (s.pool.after e).givenUpPlaces ≤
      if e.sweeps then 0 else s.givenUp + (s.pool.givesUpAcquisition e).toNat
    split
    · next sweeps => exact Nat.le_of_eq (givenUpPlaces_of_sweeps turn sweeps)
    · have counted := givenUpPlaces_after_le h.slots h.pauses turn
      have since := h.givenUpPlaces_le
      omega

theorem close (h : Kept limit s) (permitted : s.permits .close) : Kept limit (s.after .close) where
  slots := h.slots
  pauses := h.pauses
  busy := Nat.le_sub_one_of_lt (of_decide_eq_true permitted)
  opened_le := Nat.le_trans (Nat.sub_le _ _) h.opened_le
  retryPlaces_le := h.retryPlaces_le
  givenUpPlaces_le := h.givenUpPlaces_le

end Kept

theorem Run.kept (run : Run limit s) : Kept limit s := by
  induction run with
  | new => exact .new limit
  | step c _ permitted ih =>
      cases c with
      | step e => exact ih.step permitted
      | close => exact ih.close permitted

/-! ## Acquisitions that are given up at a full pool -/

/-- Somebody asks for a connection and gives up. -/
def round (s : Census) : Census :=
  (s.after (.step .acquire)).after (.step (.abandon s.pool.fresh))

/-- This happens so many times. -/
def rounds (s : Census) : Nat → Census
  | 0 => s
  | k + 1 => (s.rounds k).round

/-- At a full pool a round adds a dead place. -/
structure Adds (limit : Nat) (s : Census) (k : Nat) (s' : Census) : Prop where
  run : Run limit s'
  full : s'.pool.entry.limit ≤ s'.pool.entry.inUse
  opened : s'.opened = s.opened
  peak : s'.peak = s.peak
  givenUp : s'.givenUp = s.givenUp + k
  deadPlaces : s'.pool.deadPlaces = s.pool.deadPlaces + k

theorem Run.adds_round (run : Run limit s) (full : s.pool.entry.limit ≤ s.pool.entry.inUse) :
    Adds limit s 1 s.round := by
  have kept := run.kept
  have busy : ¬ s.pool.entry.inUse < s.pool.entry.limit := Nat.not_lt.mpr full
  have waits : s.pool.acquire.1.stage? s.pool.fresh = some .queued := by
    rw [stage?_acquire kept.slots, if_neg busy]
  have others : ∀ w ∈ s.pool.entry.waiters, w.ticket ≠ s.pool.fresh :=
    fun w mem => Nat.ne_of_lt (kept.slots.waiter_lt w mem)
  -- the acquisition lines up behind all others, and its place stays there
  have entry : s.round.pool.entry = { s.pool.entry with
      waiters := s.pool.entry.waiters ++ [⟨s.pool.fresh, .acquisition, false⟩] } := by
    show (s.pool.acquire.1.abandon s.pool.fresh).1.entry = _
    rw [abandon_queued waits, acquire_queued busy, ← kill_last others]
    rfl
  have peak : max s.peak s.opened = s.peak := Nat.max_eq_left kept.opened_le
  refine ⟨(run.step (.step .acquire) rfl).step (.step (.abandon s.pool.fresh)) rfl, ?_, rfl, ?_,
    ?_, ?_⟩
  · rw [entry]
    exact full
  · show max (max s.peak s.opened) s.opened = s.peak
    rw [peak, peak]
  · show s.givenUp + 0 + (s.pool.acquire.1.stage? s.pool.fresh == some .queued).toNat = s.givenUp + 1
    rw [waits]
    rfl
  · rw [deadPlaces, entry, List.countP_append]
    rfl

theorem Run.adds_rounds (run : Run limit s) (full : s.pool.entry.limit ≤ s.pool.entry.inUse)
    (k : Nat) : Adds limit s k (s.rounds k) := by
  induction k with
  | zero => exact ⟨run, full, rfl, rfl, rfl, rfl⟩
  | succ k ih =>
      have next := ih.run.adds_round ih.full
      exact ⟨next.run, next.full, next.opened.trans ih.opened, next.peak.trans ih.peak,
        by rw [rounds, next.givenUp, ih.givenUp, Nat.add_assoc],
        by rw [rounds, next.deadPlaces, ih.deadPlaces, Nat.add_assoc]⟩

/-- However often lock retries time out, the places they leave are no more than connections were
open at one time.  Of the places that acquisitions leave there are no more than were given up
since a lock retry last lined up.  At a full pool nothing else bounds them: one round after
another can follow, and each leaves a place more. -/
theorem Run.leftovers (run : Run limit s) :
    s.pool.retryPlaces ≤ s.peak ∧ s.pool.givenUpPlaces ≤ s.givenUp ∧
      s.pool.deadPlaces ≤ s.peak + s.givenUp ∧
      (s.pool.entry.limit ≤ s.pool.entry.inUse → ∀ k, Adds limit s k (s.rounds k)) := by
  have kept := run.kept
  have dead := s.pool.deadPlaces_le
  have retries := kept.retryPlaces_le
  have acquisitions := kept.givenUpPlaces_le
  exact ⟨retries, acquisitions, by omega, run.adds_rounds⟩

/-- A database is opened, and somebody has leased the only pooled connection. -/
def taken : Census :=
  [Event.beginOpen, .endOpen true, .acquire, .claim 0 fun _ => true, .opened 0 0, .lease 0 0].foldl
    (fun s e => s.after (.step e)) { pool := Pool.new 1 }

theorem run_taken : Run 1 taken :=
  .step (.step (.lease 0 0)) (.step (.step (.opened 0 0)) (.step (.step (.claim 0 fun _ => true))
    (.step (.step .acquire) (.step (.step (.endOpen true)) (.step (.step .beginOpen) .new rfl)
      rfl) rfl) rfl) rfl) rfl

theorem full_taken : taken.pool.entry.limit ≤ taken.pool.entry.inUse := by decide

/-- Two connections are open, and one acquisition after another is given up. -/
theorem leftovers_taken : taken.peak = 2 ∧ taken.pool.deadPlaces ≤ 2 + 0 ∧
    ∀ k, Adds 1 taken k (taken.rounds k) := by
  obtain ⟨-, -, bounded, rounds⟩ := run_taken.leftovers
  exact ⟨rfl, bounded, rounds full_taken⟩

/-- The connections that were open at one time do not bound the dead places: three acquisitions
that were given up leave more of them. -/
theorem dead_outnumber_opened : ¬ ∀ s, Run 1 s → s.pool.deadPlaces ≤ s.peak := by
  intro bounded
  have three := run_taken.adds_rounds full_taken 3
  have dead := bounded _ three.run
  rw [three.deadPlaces, three.peak] at dead
  exact absurd dead (by decide)

end Census

end Pool

end ConnectionPool
