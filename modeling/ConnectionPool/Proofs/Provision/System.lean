import Mathlib.Logic.Function.Basic
import ConnectionPool.Proofs.Pool.Stages

/-!
# Acquisitions and their connections

A `Provision` is a pool together with what its acquisitions do: which of them came with an
initializer, how far it is, what each did with which connection, and who has handles to the
connections they opened.

A connection is open while a handle leads to it and nobody closed it.  One handle is where
the pool has the connection: with the acquisition that opened it, with its lease, or among
the idle ones.  Whoever has a handle may make another one and keep it elsewhere.  An
acquisition that ends without a lease drops its handle before it gives its slot back.

Every event is a step of the pool, or something that happens to initializers and handles
only.  A handle is made from another one, so when none is left no new one comes.
-/

namespace ConnectionPool

namespace Provision

/-- How far the initializer of an acquisition is. -/
inductive Initializing where
  /-- It was not run. -/
  | pending
  /-- It runs. -/
  | running
  /-- It ended with success. -/
  | succeeded
  /-- It ended with an error. -/
  | failed
  deriving DecidableEq, Repr

/-- What is done with a connection. -/
inductive Act where
  /-- It was idle and is handed out again. -/
  | reclaims
  /-- It is opened. -/
  | opens
  /-- An initializer begins to work on it. -/
  | begins
  /-- The initializer succeeds. -/
  | succeeds
  /-- The initializer fails. -/
  | fails
  /-- It is handed out. -/
  | leases
  deriving DecidableEq, Repr

/-- What an acquisition does with a connection. -/
structure Deed where
  /-- The acquisition. -/
  ticket : Nat
  /-- The connection. -/
  conn : Nat
  /-- What is done. -/
  act : Act
  deriving DecidableEq, Repr

/-- How an acquisition ends without a lease. -/
inductive Exit where
  /-- The connection could not be opened. -/
  | refused
  /-- The initializer failed, and the connection was closed. -/
  | failed
  /-- The initializer panics. -/
  | panicked
  /-- Nobody waits for the acquisition any more. -/
  | dropped
  deriving DecidableEq, Repr

end Provision

/-- A pool and what its acquisitions do. -/
structure Provision where
  /-- The pool. -/
  pool : Pool
  /-- The acquisitions that came with an initializer. -/
  given : List Nat := []
  /-- How far the initializer of an acquisition is. -/
  initializing : Nat → Provision.Initializing := fun _ => .pending
  /-- What acquisitions did, in this order. -/
  log : List Provision.Deed := []
  /-- The acquisitions that gave a slot back, once for each time. -/
  returned : List Nat := []
  /-- The connections that somebody closed. -/
  closed : List Nat := []
  /-- The connections to which handles are kept outside the pool, once for each handle. -/
  kept : List Nat := []
  /-- The connections opened until now have smaller numbers. -/
  fresh : Nat := 0

namespace Provision

/-- A path that nobody has used. -/
def new (limit : Nat) : Provision := { pool := .new limit }

/-- The handles to a connection: where the pool has it, and elsewhere. -/
def handles (s : Provision) (c : Nat) : Nat := s.pool.places c + s.kept.count c

/-- A handle leads to the connection, and nobody closed it. -/
def isOpen (s : Provision) (c : Nat) : Bool := !s.closed.contains c && s.handles c != 0

/-- What an acquisition did. -/
def deeds (s : Provision) (t : Nat) : List Deed := s.log.filter (·.ticket == t)

/-- What acquisitions did with a connection. -/
def about (s : Provision) (c : Nat) : List Deed := s.log.filter (·.conn == c)

/-- Something that happens. -/
inductive Event where
  /-- A pooled connection is asked for, with an initializer or without one. -/
  | acquire (initializer : Bool)
  /-- An acquisition with a slot takes an idle connection that is open, or has to open one. -/
  | claim (ticket : Nat)
  /-- It opened one. -/
  | opened (ticket conn : Nat)
  /-- Its initializer begins. -/
  | begins (ticket conn : Nat)
  /-- Its initializer ends with success. -/
  | succeeds (ticket conn : Nat)
  /-- Its initializer ends with an error. -/
  | fails (ticket conn : Nat)
  /-- It hands out the connection that it opened. -/
  | lease (ticket conn : Nat)
  /-- It ends without a lease. -/
  | ends (ticket : Nat) (exit : Exit)
  /-- A pooled connection is given back, to be idle until a deadline if there is one. -/
  | release (conn : Nat) (deadline : Option Nat)
  /-- The timer of an idle connection fires.  Its task has the handle then. -/
  | fire (timer : Nat)
  /-- A shutdown takes all idle connections, and has their handles then. -/
  | drainIdle
  /-- Somebody takes a step that no pooled connection is in. -/
  | aside (e : Pool.Event)
  /-- Whoever has a handle makes another one. -/
  | keep (conn : Nat)
  /-- A handle that was kept is dropped. -/
  | letGo (conn : Nat)
  /-- Whoever has a handle closes the connection. -/
  | close (conn : Nat)

/-- No pooled connection is in the step, and no acquisition takes it. -/
def isAside : Pool.Event → Bool
  | .acquire | .abandon _ => false
  | e => !e.moves

/-- The step that the pool takes. -/
def booked (s : Provision) : Event → Option Pool.Event
  | .acquire _ => some .acquire
  | .claim t => some (.claim t s.isOpen)
  | .opened t c => some (.opened t c)
  | .fails t c => some (.initializerFailed t c)
  | .lease t c => some (.lease t c)
  | .ends t _ => some (.abandon t)
  | .release c deadline => some (.release c deadline)
  | .fire timer => some (.fire timer)
  | .drainIdle => some .drainIdle
  | .aside e => some e
  | _ => none

/-- What an acquisition does by it. -/
def recorded (s : Provision) : Event → List Deed
  | .claim t => (s.pool.claim t s.isOpen).2.toList.map fun c => ⟨t, c, .reclaims⟩
  | .opened t c => [⟨t, c, .opens⟩]
  | .begins t c => [⟨t, c, .begins⟩]
  | .succeeds t c => [⟨t, c, .succeeds⟩]
  | .fails t c => [⟨t, c, .fails⟩]
  | .lease t c => [⟨t, c, .leases⟩]
  | _ => []

/-- An acquisition in such a stage can end so. -/
def allows (s : Provision) (t : Nat) : Exit → Acquisition.Stage → Bool
  | .refused, .opening => true
  | .failed, .closing c => s.closed.contains c
  | .panicked, .preparing _ => s.initializing t == .running
  | .dropped, _ => true
  | _, _ => false

/-- It is somebody's turn, as far as the pool does not decide it. -/
def ready (s : Provision) : Event → Bool
  | .opened _ c => s.fresh ≤ c
  | .begins t c => s.pool.stage? t == some (.preparing c) && s.given.contains t
      && s.initializing t == .pending
  | .succeeds t c => s.pool.stage? t == some (.preparing c) && s.initializing t == .running
  | .fails t _ => s.initializing t == .running
  | .lease t _ => !s.given.contains t || s.initializing t == .succeeded
  | .ends t exit => (s.pool.stage? t).any (s.allows t exit)
  | .release c deadline => deadline.isNone || s.isOpen c
  | .aside e => isAside e
  | .keep c | .close c => s.handles c != 0
  | .letGo c => s.kept.contains c
  | _ => true

/-- The event may happen. -/
def permits (s : Provision) (e : Event) : Bool := (s.booked e).all s.pool.permits && s.ready e

/-- What there is after an event. -/
def after (s : Provision) (e : Event) : Provision where
  pool := (s.booked e).elim s.pool s.pool.after
  given := match e with
    | .acquire true => s.pool.fresh :: s.given
    | _ => s.given
  initializing := match e with
    | .begins t _ => Function.update s.initializing t .running
    | .succeeds t _ => Function.update s.initializing t .succeeded
    | .fails t _ => Function.update s.initializing t .failed
    | _ => s.initializing
  log := s.log ++ s.recorded e
  returned := match e with
    | .ends t _ => s.returned ++ List.replicate (s.pool.givesBack (.abandon t)) t
    | _ => s.returned
  closed := match e with
    | .close c => c :: s.closed
    | _ => s.closed
  kept := match e with
    | .fire timer => s.kept ++ (s.pool.fire timer).2.toList
    | .drainIdle => s.kept ++ s.pool.drainIdle.2
    | .keep c => c :: s.kept
    | .letGo c => s.kept.erase c
    | _ => s.kept
  fresh := match e with
    | .opened _ c => c + 1
    | _ => s.fresh

/-- Any number of events. -/
inductive Steps (s : Provision) : Provision → Prop where
  | refl : Steps s s
  | tail {s' : Provision} (e : Event) : Steps s s' → s'.permits e → Steps s (s'.after e)

/-- A provision comes about by events. -/
def Reachable (limit : Nat) (s : Provision) : Prop := Steps (new limit) s

variable {limit t c : Nat} {s s' s'' : Provision} {e : Event} {stage : Acquisition.Stage}

theorem Steps.trans (h : Steps s s') (h' : Steps s' s'') : Steps s s'' := by
  induction h' with
  | refl => exact h
  | tail e _ permitted ih => exact ih.tail e permitted

theorem pool_after (s : Provision) (e : Event) :
    (s.after e).pool = (s.booked e).elim s.pool s.pool.after := rfl

theorem deeds_after (s : Provision) (e : Event) (t : Nat) :
    (s.after e).deeds t = s.deeds t ++ (s.recorded e).filter (·.ticket == t) :=
  List.filter_append _ _

theorem about_after (s : Provision) (e : Event) (c : Nat) :
    (s.after e).about c = s.about c ++ (s.recorded e).filter (·.conn == c) :=
  List.filter_append _ _

/-! ## What an event does to the pool -/

namespace Event

/-- An acquisition takes the step. -/
def isOf (t : Nat) : Event → Bool
  | .claim u | .opened u _ | .begins u _ | .succeeds u _ | .fails u _ | .lease u _
  | .ends u _ => u == t
  | _ => false

/-- The event brings a connection in. -/
def brings (c : Nat) : Event → Bool
  | .opened _ conn => conn == c
  | _ => false

end Event

theorem permits_of_booked {b : Pool.Event} (permitted : s.permits e) (booked : s.booked e = some b) :
    s.pool.permits b := by
  rw [permits, booked, Option.all_some, Bool.and_eq_true] at permitted
  exact permitted.1

theorem ready_of_permits (permitted : s.permits e) : s.ready e := by
  rw [permits, Bool.and_eq_true] at permitted
  exact permitted.2

theorem begins_ready (permitted : s.permits (.begins t c)) :
    s.pool.stage? t = some (.preparing c) ∧ t ∈ s.given ∧ s.initializing t = .pending := by
  simpa [ready, and_assoc] using ready_of_permits permitted

theorem succeeds_ready (permitted : s.permits (.succeeds t c)) :
    s.pool.stage? t = some (.preparing c) ∧ s.initializing t = .running := by
  simpa [ready] using ready_of_permits permitted

/-- A pooled connection or an acquisition is in no step of those who are aside. -/
theorem brings_of_booked {b : Pool.Event} (permitted : s.permits e) (booked : s.booked e = some b)
    (c : Nat) : b.brings c = e.brings c := by
  have ready := ready_of_permits permitted
  cases e with
  | aside a =>
      cases booked
      cases b <;> first | rfl | cases ready
  | _ => cases booked <;> rfl

theorem isOf_of_booked {b : Pool.Event} (permitted : s.permits e) (booked : s.booked e = some b)
    (other : e.isOf t = false) : b.isOf t = false := by
  have ready := ready_of_permits permitted
  cases e with
  | aside a =>
      cases booked
      cases b <;> first | rfl | cases ready
  | _ => cases booked <;> exact other

theorem reachable_after (reachable : s.pool.Reachable limit) (permitted : s.permits e) :
    (s.after e).pool.Reachable limit := by
  rw [pool_after]
  cases booked : s.booked e with
  | none => exact reachable
  | some b => exact reachable.step b (permits_of_booked permitted booked)

theorem places_after (slots : Pool.Slots limit s.pool) (permitted : s.permits e) (c : Nat) :
    (s.after e).pool.places c ≤ s.pool.places c + if e.brings c then 1 else 0 := by
  rw [pool_after]
  cases booked : s.booked e with
  | none => exact Nat.le_add_right _ _
  | some b =>
      rw [← brings_of_booked permitted booked c]
      exact Pool.places_after slots (permits_of_booked permitted booked) c

theorem tickets_le_after (slots : Pool.Slots limit s.pool) (permitted : s.permits e) :
    s.pool.fresh ≤ (s.after e).pool.fresh := by
  rw [pool_after]
  cases booked : s.booked e with
  | none => exact Nat.le_refl _
  | some b => exact Pool.fresh_le_after slots (permits_of_booked permitted booked)

theorem stage?_none_after (slots : Pool.Slots limit s.pool) (permitted : s.permits e)
    (old : t < s.pool.fresh) (gone : s.pool.stage? t = none) :
    (s.after e).pool.stage? t = none := by
  rw [pool_after]
  cases booked : s.booked e with
  | none => exact gone
  | some b => exact Pool.stage?_none_after slots (permits_of_booked permitted booked) old gone

theorem leftAlone_after (slots : Pool.Slots limit s.pool) (permitted : s.permits e)
    (other : e.isOf t = false) (old : s.booked e = some .acquire → t ≠ s.pool.fresh) :
    Pool.LeftAlone t s.pool (s.after e).pool := by
  rw [pool_after]
  cases booked : s.booked e with
  | none => exact .of_eq rfl
  | some b =>
      exact Pool.leftAlone_after slots (permits_of_booked permitted booked)
        (isOf_of_booked permitted booked other) fun is => old (is ▸ booked)

/-- Only an acquisition that is there takes steps. -/
theorem pending_of_isOf (permitted : s.permits e) (own : e.isOf t) :
    ∃ stage, s.pool.stage? t = some stage := by
  cases e with
  | claim u | opened u c | fails u c | lease u c =>
      obtain rfl : u = t := beq_iff_eq.mp own
      exact ⟨_, beq_iff_eq.mp (permits_of_booked permitted rfl)⟩
  | begins u c =>
      obtain rfl : u = t := beq_iff_eq.mp own
      exact ⟨_, (begins_ready permitted).1⟩
  | succeeds u c =>
      obtain rfl : u = t := beq_iff_eq.mp own
      exact ⟨_, (succeeds_ready permitted).1⟩
  | ends u exit =>
      obtain rfl : u = t := beq_iff_eq.mp own
      have ready := ready_of_permits permitted
      obtain ⟨stage, there, -⟩ := (Option.any_eq_true _ _).mp ready
      exact ⟨stage, there⟩
  | _ => cases own

/-! ## What is done with which connection -/

theorem isOf_of_recorded {d : Deed} (mem : d ∈ s.recorded e) : e.isOf d.ticket := by
  cases e with
  | claim u =>
      obtain ⟨c, -, rfl⟩ := List.mem_map.mp mem
      exact beq_self_eq_true u
  | opened | begins | succeeds | fails | lease =>
      rw [List.mem_singleton.mp mem]
      exact beq_self_eq_true _
  | _ => cases mem

/-- An acquisition does something with an idle connection, with a new one or with its own. -/
theorem recorded_cases {d : Deed} (permitted : s.permits e) (mem : d ∈ s.recorded e) :
    (∃ i ∈ s.pool.entry.idle, i.conn = d.conn) ∨
    (e = .opened d.ticket d.conn ∧ s.fresh ≤ d.conn) ∨
    s.pool.stage? d.ticket = some (.preparing d.conn) := by
  cases e with
  | claim u =>
      obtain ⟨c, taken, rfl⟩ := List.mem_map.mp mem
      obtain ⟨i, took, rfl⟩ := Pool.claim_result (Option.mem_toList.mp taken)
      exact .inl ⟨i, Entry.mem_of_takeIdle took, rfl⟩
  | opened u c =>
      rw [List.mem_singleton.mp mem]
      exact .inr (.inl ⟨rfl, of_decide_eq_true (ready_of_permits permitted)⟩)
  | begins u c =>
      rw [List.mem_singleton.mp mem]
      exact .inr (.inr (begins_ready permitted).1)
  | succeeds u c =>
      rw [List.mem_singleton.mp mem]
      exact .inr (.inr (succeeds_ready permitted).1)
  | fails u c | lease u c =>
      rw [List.mem_singleton.mp mem]
      exact .inr (.inr (beq_iff_eq.mp (permits_of_booked permitted rfl)))
  | _ => cases mem

/-! ## Handles -/

theorem handles_pos_of_places (there : 0 < s.pool.places c) : 0 < s.handles c :=
  Nat.lt_of_lt_of_le there (Nat.le_add_right _ _)

theorem handles_pos_of_mem (mem : c ∈ s.kept) : 0 < s.handles c :=
  Nat.lt_of_lt_of_le (List.count_pos_iff.mpr mem) (Nat.le_add_left _ _)

/-- A handle is made from another one, or comes out of the pool. -/
theorem handles_pos_of_kept_after (permitted : s.permits e) (mem : c ∈ (s.after e).kept) :
    0 < s.handles c := by
  have ready := ready_of_permits permitted
  have idle {i : Idle} (idle : i ∈ s.pool.entry.idle) : 0 < s.handles i.conn :=
    handles_pos_of_places (Pool.places_pos_of_idle idle)
  cases e with
  | fire timer =>
      rcases List.mem_append.mp mem with mem | fired
      · exact handles_pos_of_mem mem
      · rw [s.pool.fire_closes] at fired
        obtain ⟨⟨i, how⟩, ends, rfl⟩ := List.mem_map.mp fired
        exact idle (Pool.mem_of_ended ends)
  | drainIdle =>
      rcases List.mem_append.mp mem with mem | drained
      · exact handles_pos_of_mem mem
      · obtain ⟨i, was, rfl⟩ := List.mem_map.mp drained
        exact idle was
  | keep conn =>
      rcases List.mem_cons.mp mem with rfl | mem
      · exact Nat.pos_of_ne_zero (bne_iff_ne.mp ready)
      · exact handles_pos_of_mem mem
  | letGo conn => exact handles_pos_of_mem (List.mem_of_mem_erase mem)
  | _ => exact handles_pos_of_mem mem

/-- When no handle is left no new one comes. -/
theorem handles_after (slots : Pool.Slots limit s.pool) (permitted : s.permits e)
    (old : e.brings c = false) (none : s.handles c = 0) : (s.after e).handles c = 0 := by
  have moved := places_after slots permitted c
  rw [old] at moved
  have places : s.pool.places c = 0 := (Nat.add_eq_zero_iff.mp none).1
  have kept : (s.after e).kept.count c = 0 := by
    refine List.count_eq_zero.mpr fun mem => ?_
    have some := handles_pos_of_kept_after permitted mem
    omega
  have within : (s.after e).pool.places c ≤ s.pool.places c := moved
  rw [handles, kept]
  omega

theorem fresh_le_after (permitted : s.permits e) : s.fresh ≤ (s.after e).fresh := by
  cases e with
  | opened u c => exact Nat.le_succ_of_le (of_decide_eq_true (ready_of_permits permitted))
  | _ => exact Nat.le_refl _

theorem brings_of_lt (permitted : s.permits e) (old : c < s.fresh) : e.brings c = false := by
  cases e with
  | opened u conn =>
      have new : s.fresh ≤ conn := of_decide_eq_true (ready_of_permits permitted)
      exact beq_false_of_ne (by omega)
  | _ => rfl

/-- A connection that is closed is closed for good. -/
theorem isOpen_after (slots : Pool.Slots limit s.pool) (permitted : s.permits e)
    (old : c < s.fresh) (shut : s.isOpen c = false) : (s.after e).isOpen c = false := by
  rw [isOpen, Bool.and_eq_false_iff, Bool.not_eq_false', List.contains_iff_mem, bne_eq_false_iff_eq]
    at shut ⊢
  refine shut.imp (fun closed => ?_) (handles_after slots permitted (brings_of_lt permitted old))
  cases e with
  | close conn => exact List.mem_cons_of_mem _ closed
  | _ => exact closed

end Provision

end ConnectionPool
