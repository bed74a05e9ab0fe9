import Mathlib.Data.List.Perm.Basic
import Mathlib.Data.List.TakeWhile
import ConnectionPool.Proofs.Pool.Pauses

/-!
# Custody of pooled connections

A pooled connection that a pool knows is leased, is being prepared by the acquisition
that opened it, or is idle.  `Pool.places` counts these places.  A step takes a
connection from one place to another or to none, and only an acquisition that opened a
connection brings one in (`places_after`).  So a connection that was opened under a
number of its own is never in two places.

The idle connections come and go by stays.  A stay is an item of the idle list: the
connection, with the timer that was started for it.  `begun` and `ended` tell the stays
that a step begins and ends, and how it ends them; `stays_after` says that nothing else
happens to the list.  `Pool.Timed` is the invariant of the timers: as long as a stay
lasts its timer runs, and no other timer does.  Then a timer that fires ends the stay it
was started for, although it looks for the connection only (`ended_fire`).
-/

namespace ConnectionPool

/-! ## Idle connections -/

section Swap

variable {α : Type} {l : List α} {i : Nat}

/-- What is removed by a swap is the item at the place, and nothing else. -/
theorem swapRemove_perm (lt : i < l.length) : l.Perm (l[i] :: swapRemove l i) := by
  obtain ⟨front, last, rfl⟩ := List.eq_nil_or_concat' l |>.resolve_left (by
    rintro rfl
    exact Nat.not_lt_zero i lt)
  have removed : swapRemove (front ++ [last]) i = ((front ++ [last]).set i last).dropLast := by
    rw [swapRemove, List.getLast?_append_cons]
    rfl
  rw [removed]
  by_cases before : i < front.length
  · rw [List.set_append_left i last before, List.dropLast_concat, List.getElem_append_left before]
    have moved := List.set_perm_cons_eraseIdx before last
    have split := List.getElem_cons_eraseIdx_perm before
    exact List.perm_append_comm.trans <| (split.symm.cons last).trans <|
      (List.Perm.swap ..).trans (moved.symm.cons _)
  · have is : i = front.length := by
      rw [List.length_append, List.length_singleton] at lt
      omega
    subst is
    simp

end Swap

namespace Entry

variable {e : Entry} {isOpen : Nat → Bool}

/-- The newest idle connections leave, and what they were before is still behind them. -/
theorem takeIdle_idle (e : Entry) (isOpen : Nat → Bool) :
    e.idle = (e.takeIdle isOpen).1.idle ++ (e.takeIdle isOpen).2.2.reverse := by
  have parts := List.takeWhile_append_dropWhile (p := fun i : Idle => !isOpen i.conn)
    (l := e.idle.reverse)
  rw [takeIdle]
  cases rest : e.idle.reverse.dropWhile (fun i => !isOpen i.conn) with
  | nil =>
      rw [rest, List.append_nil] at parts
      simp [parts]
  | cons i older =>
      rw [rest] at parts
      have whole := congrArg List.reverse parts
      simpa using whole.symm

/-- All that leave are closed, except for the one that is taken. -/
theorem takeIdle_left (e : Entry) (isOpen : Nat → Bool) :
    ∃ closed, (e.takeIdle isOpen).2.2 = closed ++ (e.takeIdle isOpen).2.1.toList ∧
      (∀ i ∈ closed, isOpen i.conn = false) ∧ ∀ i ∈ (e.takeIdle isOpen).2.1, isOpen i.conn := by
  have closed : ∀ i ∈ e.idle.reverse.takeWhile (fun i => !isOpen i.conn),
      isOpen i.conn = false := by
    intro i mem
    simpa using List.mem_takeWhile_imp mem
  rw [takeIdle]
  cases rest : e.idle.reverse.dropWhile (fun i => !isOpen i.conn) with
  | nil => exact ⟨_, (List.append_nil _).symm, closed, by intro i taken; cases taken⟩
  | cons i older =>
      refine ⟨_, rfl, closed, ?_⟩
      intro j taken
      cases taken
      have first := List.head?_dropWhile_not (fun i : Idle => !isOpen i.conn) e.idle.reverse
      rw [rest] at first
      simpa using first

/-- What is taken was idle. -/
theorem mem_of_takeIdle {i : Idle} (taken : (e.takeIdle isOpen).2.1 = some i) : i ∈ e.idle := by
  obtain ⟨closed, left, -⟩ := e.takeIdle_left isOpen
  rw [e.takeIdle_idle isOpen, left, taken]
  simp

/-- A timer finds an idle connection of its number and takes it out, or finds none. -/
theorem expire_cases (e : Entry) (conn : Nat) :
    (e.idle.find? (·.conn == conn) = none ∧ e.expire conn = (e, false)) ∨
    ∃ i idle, e.idle.find? (·.conn == conn) = some i ∧ e.idle.Perm (i :: idle) ∧
      e.expire conn = ({ e with idle }, true) := by
  rw [expire]
  cases found : e.idle.findIdx? (·.conn == conn) with
  | none =>
      refine .inl ⟨?_, rfl⟩
      rw [List.findIdx?_eq_none_iff] at found
      exact List.find?_eq_none.mpr fun i mem => by simp [found i mem]
  | some k =>
      obtain ⟨lt, is, before⟩ := List.findIdx?_eq_some_iff_getElem.mp found
      refine .inr ⟨e.idle[k], _, ?_, swapRemove_perm lt, rfl⟩
      refine List.find?_eq_some_iff_getElem.mpr ⟨is, k, lt, rfl, ?_⟩
      intro j lt
      simpa using before j lt

end Entry

/-! ## Places -/

/-- The acquisition opened the connection and still has it. -/
def Acquisition.has (conn : Nat) (a : Acquisition) : Bool :=
  match a.stage with
  | .preparing c | .closing c => c == conn
  | .queued | .granted | .opening => false

namespace Pool

/-- The places where a pool has a pooled connection: it is leased, an acquisition has it,
or it is idle. -/
def places (p : Pool) (conn : Nat) : Nat :=
  p.leases.count conn + p.acquisitions.countP (·.has conn) + p.entry.idle.countP (·.conn == conn)

/-- The step brings the connection in. -/
def Event.brings (conn : Nat) : Event → Bool
  | .opened _ c => c == conn
  | _ => false

/-- The step may take a connection from one place to another, or to none. -/
def Event.moves : Event → Bool
  | .claim _ _ | .opened _ _ | .lease _ _ | .initializerFailed _ _ | .release _ _ | .fire _
  | .drainIdle => true
  | _ => false

variable {p q : Pool} {e : Event} {conn : Nat}

/-- No connection came to another place, though acquisitions may have left. -/
structure Quiet (p q : Pool) : Prop where
  /-- The leases are the same. -/
  leases : q.leases = p.leases
  /-- Acquisitions have no connection they did not have. -/
  acquisitions : ∀ conn, q.acquisitions.countP (·.has conn) ≤ p.acquisitions.countP (·.has conn)
  /-- The idle connections are the same. -/
  idle : q.entry.idle = p.entry.idle
  /-- Their timers are the same. -/
  timers : q.timers = p.timers
  /-- Numbers that were given out stay so. -/
  fresh : p.fresh ≤ q.fresh

namespace Quiet

theorem rfl : Quiet p p := ⟨.refl _, fun _ => Nat.le_refl _, .refl _, .refl _, Nat.le_refl _⟩

theorem trans {r : Pool} (h : Quiet p q) (h' : Quiet q r) : Quiet p r where
  leases := h'.leases.trans h.leases
  acquisitions := fun conn => Nat.le_trans (h'.acquisitions conn) (h.acquisitions conn)
  idle := h'.idle.trans h.idle
  timers := h'.timers.trans h.timers
  fresh := Nat.le_trans h.fresh h'.fresh

/-- Everything but the waiters and the operations that retry is the same. -/
theorem of_eq (leases : q.leases = p.leases) (acquisitions : q.acquisitions = p.acquisitions)
    (idle : q.entry.idle = p.entry.idle) (timers : q.timers = p.timers)
    (fresh : p.fresh ≤ q.fresh) : Quiet p q :=
  ⟨leases, fun _ => Nat.le_of_eq (by rw [acquisitions]), idle, timers, fresh⟩

theorem wake (p : Pool) : Quiet p p.wake.1 := by
  have woke := p.wake_woke
  generalize p.wake.1 = q at woke ⊢
  cases woke with
  | nobody _ => exact { Quiet.rfl with }
  | retry _ _ _ _ => exact { Quiet.rfl with }
  | granted _ _ _ _ _ =>
      exact { Quiet.rfl with
        acquisitions := fun conn => countP_replaceKey_le fun a has => by cases has }
  | kept _ _ _ _ _ => exact { Quiet.rfl with }

theorem dropAcquisition (p : Pool) (ticket : Nat) : Quiet p (p.dropAcquisition ticket) :=
  { Quiet.rfl with acquisitions := fun _ => countP_removeKey_le _ }

theorem acquire (p : Pool) : Quiet p p.acquire.1 := by
  have more : ∀ a : Acquisition, (∀ conn, a.has conn = false) →
      ∀ conn, (p.acquisitions ++ [a]).countP (·.has conn) ≤ p.acquisitions.countP (·.has conn) := by
    intro a none conn
    rw [List.countP_append, List.countP_singleton, none conn]
    exact Nat.le_refl _
  by_cases free : p.entry.inUse < p.entry.limit
  · rw [acquire_granted free]
    exact ⟨.refl _, more _ fun _ => .refl _, .refl _, .refl _, Nat.le_succ _⟩
  · rw [acquire_queued free]
    exact ⟨.refl _, more _ fun _ => .refl _, .refl _, .refl _, Nat.le_succ _⟩

theorem abandon (p : Pool) (ticket : Nat) : Quiet p (p.abandon ticket).1 := by
  cases found : p.stage? ticket with
  | none => rw [abandon_none found]; exact .rfl
  | some stage =>
      by_cases waits : stage = .queued
      · rw [abandon_queued (waits ▸ found)]
        exact { dropAcquisition p ticket with }
      · rw [abandon_slot found waits]
        have freed : Quiet p (p.dropAcquisition ticket).freeSlot := { dropAcquisition p ticket with }
        exact freed.trans (wake _)

theorem park (p : Pool) (autocommit owesWake : Bool) : Quiet p (p.park autocommit owesWake).1 := by
  have joined : ∀ q : Pool, Quiet q q.joinQueue := fun q =>
    .of_eq (.refl _) (.refl _) (.refl _) (.refl _) (Nat.le_succ _)
  have swept : Quiet p p.sweep := { Quiet.rfl with }
  rw [park_eq]
  split
  · exact (swept.trans (wake p.sweep)).trans (joined _)
  · exact swept.trans (joined p.sweep)

theorem endPause (p : Pool) (r : RetryState) (owesWake : Bool) :
    Quiet p (p.endPause r owesWake) := by
  rw [Pool.endPause]
  cases r.ticket? with
  | none => exact { Quiet.rfl with }
  | some _ => exact { Quiet.rfl with }

theorem endRetries (p : Pool) (id : Nat) : Quiet p (p.endRetries id).1 := by
  cases found : p.retry? id with
  | none => rw [endRetries_none found]; exact .rfl
  | some r =>
      have forgotten : Quiet p (p.forgetRetry r) := by
        rw [forgetRetry, cancelPause_eq]
        exact { endPause p r r.owesWake with }
      rw [endRetries_some found]
      split
      · exact forgotten.trans (wake _)
      · exact forgotten

theorem withRetry {id : Nat} {f : RetryState → Pool} (quiet : ∀ r, Quiet p (f r)) :
    Quiet p (p.withRetry id f) := by
  rw [Pool.withRetry]
  split
  · exact quiet _
  · exact .rfl

end Quiet

/-- A step that moves no connection leaves all of them where they are. -/
theorem quiet_after (p : Pool) (still : e.moves = false) : Quiet p (p.after e) := by
  cases e with
  | beginOpen => exact { Quiet.rfl with }
  | endOpen opened => cases opened <;> exact { Quiet.rfl with }
  | closePrimary => exact { Quiet.rfl with }
  | leasePrimary => exact { Quiet.rfl with }
  | releasePrimary => exact { Quiet.wake p with }
  | acquire => exact .acquire p
  | claim => cases still
  | opened => cases still
  | lease => cases still
  | initializerFailed => cases still
  | abandon ticket => exact .abandon p ticket
  | release => cases still
  | fire => cases still
  | drainIdle => cases still
  | beginShutdown => exact { Quiet.rfl with }
  | endShutdown => exact { Quiet.rfl with }
  | beginRetries => exact .of_eq rfl rfl rfl rfl (Nat.le_succ _)
  | park id autocommit => exact .withRetry fun r => { Quiet.park p autocommit r.owesWake with }
  | delay id => exact .withRetry fun r => { Quiet.rfl with }
  | resume id => exact .withRetry fun r => by rw [resume_eq]; exact .endPause p r _
  | cancelPause id => exact .withRetry fun r => by rw [cancelPause_eq]; exact .endPause p r _
  | endRetries id => exact .endRetries p id

theorem claim_some {ticket : Nat} {isOpen : Nat → Bool} {i : Idle}
    (taken : (p.entry.takeIdle isOpen).2.1 = some i) : (p.claim ticket isOpen).1 =
      { (p.dropAcquisition ticket).stopTimers (p.entry.takeIdle isOpen).2.2 with
        entry := (p.entry.takeIdle isOpen).1, leases := p.leases ++ [i.conn] } := by
  simp only [claim, taken]
  rfl

theorem claim_none {ticket : Nat} {isOpen : Nat → Bool}
    (none : (p.entry.takeIdle isOpen).2.1 = none) : (p.claim ticket isOpen).1 =
      (({ p with entry := (p.entry.takeIdle isOpen).1 }).stopTimers
        (p.entry.takeIdle isOpen).2.2).setStage ticket .opening := by
  simp only [claim, none]

/-- A claim hands out what it took from the idle connections. -/
theorem claim_result {ticket : Nat} {isOpen : Nat → Bool}
    (result : (p.claim ticket isOpen).2 = some conn) :
    ∃ i, (p.entry.takeIdle isOpen).2.1 = some i ∧ i.conn = conn := by
  cases taken : (p.entry.takeIdle isOpen).2.1 with
  | none => simp [claim, taken] at result
  | some i =>
      simp only [claim, taken] at result
      exact ⟨i, rfl, Option.some.inj result⟩

theorem fire_some {timer : Nat} {t : GraceTimer}
    (found : p.timers.find? (·.id == timer) = some t) : p.fire timer =
      ({ p with
          entry := (p.entry.expire t.conn).1
          timers := removeKey GraceTimer.id timer p.timers },
        if (p.entry.expire t.conn).2 then some t.conn else none) := by
  rw [fire, found]
  rfl

theorem fire_none {timer : Nat} (found : p.timers.find? (·.id == timer) = none) :
    p.fire timer = (p, none) := by
  rw [fire, found]

section Places

variable {limit : Nat}

/-- An acquisition takes what is idle or nothing, and so a place for a place. -/
theorem places_claim (p : Pool) (ticket : Nat) (isOpen : Nat → Bool) (conn : Nat) :
    (p.claim ticket isOpen).1.places conn ≤ p.places conn := by
  have idle := congrArg (List.countP (·.conn == conn)) (p.entry.takeIdle_idle isOpen)
  obtain ⟨closed, left, -⟩ := p.entry.takeIdle_left isOpen
  rw [left, List.countP_append, List.countP_reverse, List.countP_append] at idle
  cases taken : (p.entry.takeIdle isOpen).2.1 with
  | none =>
      let opening (a : Acquisition) : Acquisition := { a with stage := .opening }
      have fewer : (replaceKey Acquisition.ticket ticket opening p.acquisitions).countP (·.has conn) ≤
          p.acquisitions.countP (·.has conn) := countP_replaceKey_le fun a has => by cases has
      rw [claim_none taken]
      show p.leases.count conn + List.countP _ (replaceKey _ ticket opening p.acquisitions) +
        List.countP _ (p.entry.takeIdle isOpen).1.idle ≤ p.places conn
      unfold places
      omega
  | some i =>
      have fewer : (removeKey Acquisition.ticket ticket p.acquisitions).countP (·.has conn) ≤
          p.acquisitions.countP (·.has conn) := countP_removeKey_le _
      rw [taken, Option.toList_some, List.countP_singleton] at idle
      rw [claim_some taken]
      show (p.leases ++ [i.conn]).count conn + (removeKey _ ticket p.acquisitions).countP _ +
        List.countP _ (p.entry.takeIdle isOpen).1.idle ≤ p.places conn
      rw [List.count_append, List.count_singleton]
      unfold places
      omega

/-- The stage of one acquisition changes, and with it whether it has the connection. -/
theorem places_setStage (slots : Slots limit p) {ticket : Nat} {old : Acquisition.Stage}
    (found : p.stage? ticket = some old) (stage : Acquisition.Stage) (conn : Nat) :
    (p.setStage ticket stage).places conn + (if (Acquisition.mk ticket old).has conn then 1 else 0) =
      p.places conn + if (Acquisition.mk ticket stage).has conn then 1 else 0 := by
  have changed : (p.setStage ticket stage).acquisitions.countP (·.has conn) +
      (if (Acquisition.mk ticket old).has conn then 1 else 0) =
      p.acquisitions.countP (·.has conn) +
        if (Acquisition.mk ticket stage).has conn then 1 else 0 :=
    countP_replaceKey slots.acquisitions (mem_of_stage? found) rfl (·.has conn)
  show p.leases.count conn + (p.setStage ticket stage).acquisitions.countP (·.has conn) +
    p.entry.idle.countP (·.conn == conn) + _ = _
  unfold places
  omega

theorem places_lease (slots : Slots limit p) {ticket c : Nat}
    (found : p.stage? ticket = some (.preparing c)) (conn : Nat) :
    (p.lease ticket c).places conn = p.places conn := by
  have removed : (p.dropAcquisition ticket).acquisitions.countP (·.has conn) +
      (if c == conn then 1 else 0) = p.acquisitions.countP (·.has conn) :=
    countP_removeKey slots.acquisitions (mem_of_stage? found) rfl (·.has conn)
  show (p.leases ++ [c]).count conn + (p.dropAcquisition ticket).acquisitions.countP (·.has conn) +
    p.entry.idle.countP (·.conn == conn) = _
  rw [List.count_append, List.count_singleton]
  unfold places
  omega

/-- A lease that is given back becomes idle or nothing. -/
theorem places_release (p : Pool) {c : Nat} (leased : c ∈ p.leases) (deadline : Option Nat)
    (conn : Nat) : (p.release c deadline).1.places conn ≤ p.places conn := by
  have erased : (p.leases.erase c).count conn = p.leases.count conn - if c == conn then 1 else 0 :=
    List.count_erase
  have leased : (if c == conn then 1 else 0) ≤ p.leases.count conn := by
    split
    · next is => exact List.count_pos_iff.mpr (beq_iff_eq.mp is ▸ leased)
    · exact Nat.zero_le _
  have woken := Quiet.wake (p.giveBack c deadline)
  have fewer := woken.acquisitions conn
  rw [release_eq]
  unfold places
  rw [woken.leases, woken.idle]
  cases deadline with
  | none =>
      have same : (p.giveBack c none).acquisitions = p.acquisitions := rfl
      rw [same] at fewer
      show (p.leases.erase c).count conn + _ + p.entry.idle.countP (·.conn == conn) ≤ _
      omega
  | some deadline =>
      have same : (p.giveBack c (some deadline)).acquisitions = p.acquisitions := rfl
      rw [same] at fewer
      show (p.leases.erase c).count conn + _ +
        (p.entry.idle ++ [(⟨c, p.fresh⟩ : Idle)]).countP (·.conn == conn) ≤ _
      rw [List.countP_append, List.countP_singleton]
      show _ + _ + (_ + if c == conn then 1 else 0) ≤ _
      omega

theorem places_fire (p : Pool) (timer conn : Nat) : (p.fire timer).1.places conn ≤ p.places conn := by
  cases found : p.timers.find? (·.id == timer) with
  | none => rw [fire_none found]
  | some t =>
      rw [fire_some found]
      rcases p.entry.expire_cases t.conn with ⟨-, eq⟩ | ⟨i, idle, -, perm, eq⟩
      · rw [eq]
        exact Nat.le_refl _
      · rw [eq]
        have left := perm.countP_eq (·.conn == conn)
        rw [List.countP_cons] at left
        show p.leases.count conn + p.acquisitions.countP (·.has conn) + idle.countP _ ≤ _
        unfold places
        omega

/-- A step takes a connection from place to place, and only an acquisition that opened it
brings it in. -/
theorem places_after (slots : Slots limit p) (permitted : p.permits e) (conn : Nat) :
    (p.after e).places conn ≤ p.places conn + if e.brings conn then 1 else 0 := by
  cases still : e.moves with
  | false =>
      have quiet := p.quiet_after still
      have fewer := quiet.acquisitions conn
      unfold places
      rw [quiet.leases, quiet.idle]
      omega
  | true =>
      cases e with
      | claim ticket isOpen => exact p.places_claim ticket isOpen conn
      | opened ticket c =>
          have changed := places_setStage slots (beq_iff_eq.mp permitted) (.preparing c) conn
          exact Nat.le_trans (Nat.le_add_right _ _) (Nat.le_of_eq changed)
      | lease ticket c => exact Nat.le_of_eq (places_lease slots (beq_iff_eq.mp permitted) conn)
      | initializerFailed ticket c =>
          have changed := places_setStage slots (beq_iff_eq.mp permitted) (.closing c) conn
          exact Nat.le_of_eq (Nat.add_right_cancel changed)
      | release c deadline =>
          exact p.places_release (List.contains_iff_mem.mp permitted) deadline conn
      | fire timer => exact p.places_fire timer conn
      | drainIdle =>
          show p.leases.count conn + p.acquisitions.countP (·.has conn) + 0 ≤ _
          unfold places
          omega
      | _ => cases still

/-- A connection that is in one place at most is idle once at most. -/
theorem idle_distinct (once : ∀ conn, p.places conn ≤ 1) :
    (p.entry.idle.map Idle.conn).Nodup := by
  rw [List.nodup_iff_count_le_one]
  intro conn
  have le := once conn
  unfold places at le
  rw [List.count, List.countP_map]
  exact Nat.le_trans (Nat.le_add_left _ _) le

theorem places_pos_of_idle {i : Idle} (mem : i ∈ p.entry.idle) : 0 < p.places i.conn := by
  have pos : 0 < p.entry.idle.countP (·.conn == i.conn) :=
    List.countP_pos_iff.mpr ⟨i, mem, beq_self_eq_true _⟩
  unfold places
  omega

theorem places_pos_of_leased (leased : conn ∈ p.leases) : 0 < p.places conn := by
  have pos := List.count_pos_iff.mpr leased
  unfold places
  omega

/-- An idle connection that is in one place is not leased. -/
theorem not_leased {i : Idle} (once : p.places i.conn ≤ 1) (mem : i ∈ p.entry.idle) :
    i.conn ∉ p.leases := by
  intro leased
  have idle : 0 < p.entry.idle.countP (·.conn == i.conn) :=
    List.countP_pos_iff.mpr ⟨i, mem, beq_self_eq_true _⟩
  have leases := List.count_pos_iff.mpr leased
  unfold places at once
  omega

end Places

end Pool

/-! ## Stays -/

/-- How a stay among the idle connections ended. -/
inductive Idle.Ending where
  /-- An acquisition took the connection. -/
  | reclaimed
  /-- An acquisition found it closed. -/
  | discarded
  /-- A timer fired, and its task closes the connection. -/
  | expired (timer : Nat)
  /-- A shutdown closes the connection. -/
  | shutdown
  deriving DecidableEq, Repr

/-- The stay that a timer was started for. -/
def GraceTimer.stay (t : GraceTimer) : Idle := ⟨t.conn, t.id⟩

namespace Pool

variable {p : Pool} {e : Event}

/-- The stay that a step begins. -/
def begun (p : Pool) : Event → Option Idle
  | .release conn (some _) => some ⟨conn, p.fresh⟩
  | _ => none

/-- The stays that a step ends, and how. -/
def ended (p : Pool) : Event → List (Idle × Idle.Ending)
  | .claim _ isOpen => (p.entry.takeIdle isOpen).2.2.map fun i =>
      (i, if isOpen i.conn then .reclaimed else .discarded)
  | .fire timer =>
      ((p.timers.find? (·.id == timer)).bind fun t =>
        p.entry.idle.find? (·.conn == t.conn)).toList.map fun i => (i, .expired timer)
  | .drainIdle => p.entry.idle.map fun i => (i, .shutdown)
  | _ => []

/-- The idle list changes by the stays that begin and end, and in no other way. -/
theorem stays_after (p : Pool) (e : Event) : (p.entry.idle ++ (p.begun e).toList).Perm
    ((p.after e).entry.idle ++ (p.ended e).map Prod.fst) := by
  cases still : e.moves with
  | false =>
      have quiet := p.quiet_after still
      have none : p.begun e = none ∧ p.ended e = [] := by
        cases e <;> first | exact ⟨rfl, rfl⟩ | cases still
      rw [quiet.idle, none.1, none.2]
      exact .refl _
  | true =>
      cases e with
      | claim ticket isOpen =>
          have firsts : (p.ended (.claim ticket isOpen)).map Prod.fst =
              (p.entry.takeIdle isOpen).2.2 := by
            simp [ended, Function.comp_def]
          have idle : (p.claim ticket isOpen).1.entry.idle = (p.entry.takeIdle isOpen).1.idle := by
            cases taken : (p.entry.takeIdle isOpen).2.1 with
            | none => rw [claim_none taken]; rfl
            | some i => rw [claim_some taken]
          show (p.entry.idle ++ []).Perm ((p.claim ticket isOpen).1.entry.idle ++ _)
          rw [firsts, idle, List.append_nil]
          conv => lhs; rw [p.entry.takeIdle_idle isOpen]
          exact (List.reverse_perm _).append_left _
      | opened ticket c => exact .refl _
      | lease ticket c => exact .refl _
      | initializerFailed ticket c => exact .refl _
      | release c deadline =>
          show List.Perm _ ((p.release c deadline).1.entry.idle ++ [])
          rw [release_eq, (Quiet.wake _).idle, List.append_nil]
          cases deadline with
          | none => exact .of_eq (List.append_nil _)
          | some deadline => exact .refl _
      | fire timer =>
          show (p.entry.idle ++ []).Perm ((p.fire timer).1.entry.idle ++ _)
          rw [List.append_nil]
          cases found : p.timers.find? (·.id == timer) with
          | none =>
              rw [fire_none found]
              simp [ended, found]
          | some t =>
              rw [fire_some found]
              rcases p.entry.expire_cases t.conn with ⟨none, eq⟩ | ⟨i, idle, first, perm, eq⟩
              · simp [ended, found, none, eq]
              · simp only [ended, found, eq, Option.bind_some, first]
                exact perm.trans (List.perm_append_singleton i idle).symm
      | drainIdle =>
          show (p.entry.idle ++ []).Perm ([] ++ (p.entry.idle.map _).map Prod.fst)
          simp [Function.comp_def]
      | _ => cases still

/-- A step ends stays that lasted. -/
theorem mem_of_ended {i : Idle} {how : Idle.Ending} (ends : (i, how) ∈ p.ended e) :
    i ∈ p.entry.idle := by
  have none : p.begun e = none := by
    cases e with
    | release => cases ends
    | _ => rfl
  have same := p.stays_after e
  rw [none, Option.toList_none, List.append_nil] at same
  exact same.symm.subset (List.mem_append_right _ (List.mem_map_of_mem ends))

/-- A timer that fires closes the connection of the stay it ends. -/
theorem fire_closes (p : Pool) (timer : Nat) :
    (p.fire timer).2.toList = (p.ended (.fire timer)).map (·.1.conn) := by
  cases found : p.timers.find? (·.id == timer) with
  | none =>
      rw [fire_none found]
      simp [ended, found]
  | some t =>
      rw [fire_some found]
      rcases p.entry.expire_cases t.conn with ⟨none, eq⟩ | ⟨i, idle, first, -, eq⟩
      · simp [ended, found, none, eq]
      · have is : i.conn = t.conn := by simpa using List.find?_some first
        simp [ended, found, first, eq, is]

/-! ## Timers -/

/-- While a stay lasts its timer runs, and no other timer runs. -/
structure Timed (p : Pool) : Prop where
  /-- Timers have different numbers. -/
  ids : Keyed GraceTimer.id p.timers
  /-- Their numbers were given out. -/
  id_lt : ∀ t ∈ p.timers, t.id < p.fresh
  /-- The timers are those of the stays. -/
  stays : (p.timers.map GraceTimer.stay).Perm p.entry.idle

theorem mem_stopTimers {stopped : List Idle} {t : GraceTimer} :
    t ∈ (p.stopTimers stopped).timers ↔ t ∈ p.timers ∧ ∀ i ∈ stopped, i.timer ≠ t.id := by
  simp [stopTimers]

namespace Timed

theorem new (limit : Nat) : Timed (Pool.new limit) where
  ids := List.nodup_nil
  id_lt := by intro t mem; cases mem
  stays := .refl _

theorem quiet (h : Timed p) {q : Pool} (quiet : Quiet p q) : Timed q where
  ids := quiet.timers ▸ h.ids
  id_lt := fun t mem => Nat.lt_of_lt_of_le (h.id_lt t (quiet.timers ▸ mem)) quiet.fresh
  stays := by rw [quiet.timers, quiet.idle]; exact h.stays

/-- Stays have different timers. -/
theorem idle (h : Timed p) : Keyed Idle.timer p.entry.idle := by
  have same := h.stays.map Idle.timer
  rw [List.map_map] at same
  exact same.nodup_iff.mp h.ids

theorem mem_idle (h : Timed p) {t : GraceTimer} (mem : t ∈ p.timers) : t.stay ∈ p.entry.idle :=
  h.stays.subset (List.mem_map_of_mem mem)

/-- The stays that end have their timers stopped. -/
theorem stop (h : Timed p) {stay gone : List Idle}
    (parts : p.entry.idle.Perm (stay ++ gone)) :
    Timed { p.stopTimers gone with entry := { p.entry with idle := stay } } where
  ids := h.ids.sublist List.filter_sublist
  id_lt := fun t mem => h.id_lt t (mem_stopTimers.mp mem).1
  stays := by
    let kept (i : Idle) : Bool := !gone.any (·.timer == i.timer)
    have timers : (p.stopTimers gone).timers.map GraceTimer.stay =
        (p.timers.map GraceTimer.stay).filter kept := by
      rw [List.filter_map]
      rfl
    have keyed : ((stay ++ gone).map Idle.timer).Nodup := (parts.map _).nodup_iff.mp h.idle
    rw [List.map_append, List.nodup_append] at keyed
    have stays : stay.filter kept = stay := by
      rw [List.filter_eq_self]
      intro i mem
      simp only [kept, Bool.not_eq_true', List.any_eq_false, beq_iff_eq]
      intro j hj
      exact (keyed.2.2 _ (List.mem_map_of_mem mem) _ (List.mem_map_of_mem hj)).symm
    have leaves : gone.filter kept = [] := by
      rw [List.filter_eq_nil_iff]
      intro i mem
      simp only [kept, Bool.not_eq_true', List.any_eq_false, not_forall]
      exact ⟨i, mem, by simp⟩
    have rest := (h.stays.trans parts).filter kept
    rw [List.filter_append, stays, leaves, List.append_nil] at rest
    exact timers ▸ rest

/-- A connection becomes idle, and its timer starts. -/
theorem start (h : Timed p) (conn deadline : Nat) : Timed (p.giveBack conn (some deadline)) where
  ids := Keyed.append_fresh (a := (⟨p.fresh, conn, deadline⟩ : GraceTimer)) h.ids h.id_lt
  id_lt := lt_succ_of_mem_append (a := (⟨p.fresh, conn, deadline⟩ : GraceTimer)) h.id_lt
  stays := by
    show ((p.timers ++ [_]).map GraceTimer.stay).Perm (p.entry.idle ++ [_])
    rw [List.map_append]
    exact h.stays.append_right _

/-- A running timer finds the stay it was started for, when its connection is idle once. -/
theorem find_stay (h : Timed p) (distinct : (p.entry.idle.map Idle.conn).Nodup) {t : GraceTimer}
    (mem : t ∈ p.timers) : p.entry.idle.find? (·.conn == t.conn) = some t.stay :=
  have keyed : Keyed Idle.conn p.entry.idle := distinct
  keyed.find?_eq (h.mem_idle mem)

theorem claim (h : Timed p) (ticket : Nat) (isOpen : Nat → Bool) :
    Timed (p.claim ticket isOpen).1 := by
  have parts := List.Perm.of_eq (p.entry.takeIdle_idle isOpen)
  have stopped := h.stop (parts.trans ((List.reverse_perm _).append_left _))
  cases taken : (p.entry.takeIdle isOpen).2.1 with
  | none => rw [claim_none taken]; exact { stopped with }
  | some i => rw [claim_some taken]; exact { stopped with }

theorem fire (h : Timed p) (distinct : (p.entry.idle.map Idle.conn).Nodup) (timer : Nat) :
    Timed (p.fire timer).1 := by
  cases found : p.timers.find? (·.id == timer) with
  | none => rwa [fire_none found]
  | some t =>
      obtain ⟨mem, rfl⟩ := mem_of_find?_key found
      have stay := h.find_stay distinct mem
      rw [fire_some found]
      rcases p.entry.expire_cases t.conn with ⟨none, -⟩ | ⟨i, idle, first, perm, eq⟩
      · rw [stay] at none
        cases none
      · obtain rfl := Option.some.inj (stay.symm.trans first)
        have stopped := h.stop (perm.trans (List.perm_append_singleton _ idle).symm)
        have same : (p.stopTimers [t.stay]).timers = removeKey GraceTimer.id t.id p.timers := by
          apply List.filter_congr
          intro u _
          simp [GraceTimer.stay, bne, Bool.beq_comm (a := u.id)]
        rw [eq, ← same]
        exact { stopped with }

/-- Every step keeps the invariant. -/
theorem after (h : Timed p) (distinct : (p.entry.idle.map Idle.conn).Nodup) (e : Event) :
    Timed (p.after e) := by
  cases still : e.moves with
  | false => exact h.quiet (p.quiet_after still)
  | true =>
      cases e with
      | claim ticket isOpen => exact h.claim ticket isOpen
      | opened ticket conn => exact { h with }
      | lease ticket conn => exact { h with }
      | initializerFailed ticket conn => exact { h with }
      | release conn deadline =>
          show Timed (p.release conn deadline).1
          rw [release_eq]
          cases deadline with
          | none =>
              have freed : Timed (p.giveBack conn none) := { h with }
              exact freed.quiet (.wake _)
          | some deadline => exact (h.start conn deadline).quiet (.wake _)
      | fire timer => exact h.fire distinct timer
      | drainIdle => exact h.stop (.refl _)
      | _ => cases still

/-- A timer that fires ends the stay it was started for. -/
theorem ended_fire (h : Timed p) (distinct : (p.entry.idle.map Idle.conn).Nodup) {timer : Nat}
    {i : Idle} {how : Idle.Ending} (ends : (i, how) ∈ p.ended (.fire timer)) :
    ∃ t ∈ p.timers, t.id = timer ∧ i = t.stay ∧ how = .expired timer := by
  cases found : p.timers.find? (·.id == timer) with
  | none => simp [ended, found] at ends
  | some t =>
      obtain ⟨mem, rfl⟩ := mem_of_find?_key found
      simp only [ended, found, Option.bind_some, h.find_stay distinct mem, Option.toList_some,
        List.map_cons, List.map_nil, List.mem_singleton, Prod.mk.injEq] at ends
      exact ⟨t, mem, rfl, ends⟩

end Timed

/-- A timer that runs ran before, or a lease was given back just now. -/
theorem timers_after {t : GraceTimer} (mem : t ∈ (p.after e).timers) :
    t ∈ p.timers ∨ ∃ deadline, e = .release t.conn (some deadline) ∧
      t = ⟨p.fresh, t.conn, deadline⟩ := by
  cases still : e.moves with
  | false => exact .inl ((p.quiet_after still).timers ▸ mem)
  | true =>
      cases e with
      | claim ticket isOpen =>
          refine .inl ?_
          have stopped : (p.claim ticket isOpen).1.timers =
              (p.stopTimers (p.entry.takeIdle isOpen).2.2).timers := by
            cases taken : (p.entry.takeIdle isOpen).2.1 with
            | none => rw [claim_none taken]; rfl
            | some i => rw [claim_some taken]; rfl
          exact (mem_stopTimers.mp (stopped ▸ mem)).1
      | opened => exact .inl mem
      | lease => exact .inl mem
      | initializerFailed => exact .inl mem
      | release conn deadline =>
          have woken := Quiet.wake (p.giveBack conn deadline)
          rw [after, release_eq, woken.timers] at mem
          cases deadline with
          | none => exact .inl mem
          | some deadline =>
              rcases List.mem_append.mp mem with mem | mem
              · exact .inl mem
              · rw [List.mem_singleton.mp mem]
                exact .inr ⟨deadline, rfl, rfl⟩
      | fire timer =>
          refine .inl ?_
          cases found : p.timers.find? (·.id == timer) with
          | none => rwa [after, fire_none found] at mem
          | some u =>
              rw [after, fire_some found] at mem
              exact (mem_removeKey.mp mem).1
      | drainIdle => exact .inl (mem_stopTimers.mp mem).1
      | _ => cases still

end Pool

end ConnectionPool
