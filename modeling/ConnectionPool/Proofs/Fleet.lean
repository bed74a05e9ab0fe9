import ConnectionPool.Proofs.Pool.Custody
import ConnectionPool.Proofs.Shared.Settling

/-!
# Connections that are handed out again

A `Fleet` is the pool of a path together with its pooled connections, each with its queue
and with all who use it.  The pool hands connections out and takes them back, and in
between anything may happen on a connection, at any time and whether it is leased or not:
somebody may have kept it.  A transaction may also have the lease.  It is then a tenant of
the connection, and gives the lease back in the step with which it ends.

Of the connections the pool looks at one thing only: a connection that is closing is
neither kept nor handed out again.  Of the engine, `Shared.Works` says what is relied on.
An operation that breaks its connection is a step of its own.

`Fleet.Fit` is what a connection is good for that was just handed out, and
`Reachable.fit_of_handsOut` says that every one is fit, whatever happened to it before:
it counts as open if it was reclaimed, no transaction has it as a tenant, and once what was
queued before is served, a transaction that is open on it was opened later, or directly.

A connection counts as open until somebody closes it, and so the pool does not notice that
an operation broke it.  It keeps a broken connection and hands it out again, and its next
holder finds that it refuses all work.
-/

namespace ConnectionPool

namespace Shared

variable {α : Type} {s s' : Shared α}

/-- A step with an engine that works: no operation breaks the connection, and a rollback
that runs to its end leaves no transaction open. -/
structure Works (s s' : Shared α) : Prop where
  /-- It is a step. -/
  step : Step s s'
  /-- No operation breaks the connection. -/
  whole : ∀ i, s' ≠ s.crash i
  /-- What is rolled back is over. -/
  rollsBack : RollsBack s s'

/-- A step that leaves the queue going breaks nothing. -/
theorem Works.of_going (step : Step s s') (going : s'.queue.ended = false)
    (rollsBack : RollsBack s s') : Works s s' where
  step := step
  whole := by
    rintro i rfl
    cases going
  rollsBack := rollsBack

/-- A connection that comes about by steps with an engine that rolls back. -/
structure Sound (s : Shared α) : Prop where
  /-- It comes about by steps. -/
  reachable : Reachable s
  /-- No transaction leaves anything open. -/
  tidy : s.queue.refuses = false → ∀ t, Tidy s t

theorem Sound.new (mode : Nat → IsolationMode) : Sound (new mode : Shared α) :=
  ⟨⟨mode, .refl⟩, fun _ => .new mode⟩

theorem Sound.step (h : Sound s) (step : Step s s') (rollsBack : RollsBack s s') : Sound s' where
  reachable := h.reachable.steps (Steps.refl.tail step)
  tidy := by
    intro accepts t
    have before : s.queue.refuses = false := by
      rw [← Bool.not_eq_true] at accepts ⊢
      exact fun refuses => accepts (step.refuses refuses)
    exact (h.tidy before t).step h.reachable step rollsBack accepts

/-- A rollback that is in flight before and after a step is not over. -/
theorem RollsBack.of_current (same : s'.queue.current = s.queue.current) : RollsBack s s' := by
  intro i current _ _ _ none
  rw [same, Option.mem_def.mp current] at none
  cases none

end Shared

namespace Pool

variable {p : Pool} {conn : Nat}

theorem leases_release (p : Pool) (conn : Nat) (deadline : Option Nat) :
    (p.release conn deadline).1.leases = p.leases.erase conn := by
  rw [release_eq, (Quiet.wake _).leases]
  cases deadline with
  | none => rfl
  | some deadline => rfl

/-- A lease ends by being given back only. -/
theorem leases_after (p : Pool) {e : Event} (kept : ∀ conn deadline, e ≠ .release conn deadline) :
    p.leases ⊆ (p.after e).leases := by
  cases still : e.moves with
  | false => rw [(p.quiet_after still).leases]; exact List.Subset.refl _
  | true =>
      cases e with
      | claim ticket isOpen =>
          show p.leases ⊆ (p.claim ticket isOpen).1.leases
          cases taken : (p.entry.takeIdle isOpen).2.1 with
          | none => rw [claim_none taken]; exact List.Subset.refl _
          | some i => rw [claim_some taken]; exact List.subset_append_left _ _
      | opened ticket conn => exact List.Subset.refl _
      | lease ticket conn => exact List.subset_append_left _ _
      | initializerFailed ticket conn => exact List.Subset.refl _
      | release conn deadline => exact absurd rfl (kept conn deadline)
      | fire timer =>
          show p.leases ⊆ (p.fire timer).1.leases
          cases found : p.timers.find? (·.id == timer) with
          | none => rw [fire_none found]; exact List.Subset.refl _
          | some t => rw [fire_some found]; exact List.Subset.refl _
      | drainIdle => exact List.Subset.refl _
      | _ => cases still

end Pool

/-! ## Fleets -/

/-- A pool and its connections. -/
structure Fleet (α : Type) where
  /-- The pool. -/
  pool : Pool
  /-- The connections, by their numbers. -/
  conn : Nat → Shared α
  /-- The transactions that had the lease on a connection, newest first. -/
  tenants : Nat → List Nat := fun _ => []
  /-- The connections that an operation broke. -/
  broken : List Nat := []
  /-- The connections opened until now have smaller numbers. -/
  fresh : Nat := 0

/-- The step takes no notice of what a connection is like. -/
def Pool.Event.isBlind : Pool.Event → Bool
  | .claim _ _ | .opened _ _ | .release _ _ => false
  | _ => true

namespace Fleet

variable {α : Type}

/-- A path that nobody has used. -/
def new (limit : Nat) (mode : Nat → Nat → IsolationMode) : Fleet α :=
  { pool := .new limit, conn := fun c => .new (mode c) }

/-- The pool takes a step. -/
def book (f : Fleet α) (e : Pool.Event) : Fleet α := { f with pool := f.pool.after e }

/-- Something happens on a connection. -/
def put (f : Fleet α) (conn : Nat) (s : Shared α) : Fleet α :=
  { f with conn := fun c => if c = conn then s else f.conn c }

/-- A transaction takes the lease on a connection as its own. -/
def host (f : Fleet α) (conn t : Nat) : Fleet α :=
  { f with tenants := fun c => if c = conn then t :: f.tenants c else f.tenants c }

/-- The connection counts as open: nobody asked for it to be closed. -/
def isOpen (f : Fleet α) (conn : Nat) : Bool := !(f.conn conn).queue.closing

/-- No transaction has the lease on the connection. -/
def Vacant (f : Fleet α) (conn : Nat) : Prop :=
  ∀ t ∈ f.tenants conn, (f.conn conn).phase t = .finished

/-- One step of anybody. -/
inductive Step (f : Fleet α) : Fleet α → Prop where
  /-- The pool takes a step that leaves the connections out. -/
  | pool (e : Pool.Event) : e.isBlind → f.pool.permits e → Step f (f.book e)
  /-- An acquisition looks for an idle connection that is open. -/
  | claim (ticket : Nat) : f.pool.permits (.claim ticket f.isOpen) →
      Step f (f.book (.claim ticket f.isOpen))
  /-- An acquisition opened a connection. -/
  | opened (ticket conn : Nat) : f.pool.permits (.opened ticket conn) → f.fresh ≤ conn →
      Step f { f.book (.opened ticket conn) with fresh := conn + 1 }
  /-- Something happens on a connection, other than that a tenant ends. -/
  | use (conn : Nat) (s : Shared α) : conn < f.fresh → (f.conn conn).Works s →
      (∀ t ∈ f.tenants conn, s.phase t = .finished → (f.conn conn).phase t = .finished) →
      Step f (f.put conn s)
  /-- An operation breaks its connection. -/
  | breaks (conn : Nat) (i : WorkItem Request) : (f.conn conn).queue.current = some i →
      Step f { f.put conn ((f.conn conn).crash i) with broken := conn :: f.broken }
  /-- A transaction has the lease on a connection. -/
  | enter (conn t : Nat) : conn ∈ f.pool.leases → f.Vacant conn →
      (f.conn conn).phase t = .acquiring →
      Step f ((f.put conn (((f.conn conn).note t .leased).conduct t .leased)).host conn t)
  /-- It ends, and gives the lease back. -/
  | leave (conn t : Nat) (s : Shared α) (deadline : Option Nat) : t ∈ f.tenants conn →
      (f.conn conn).phase t ≠ .finished → (f.conn conn).Works s → s.phase t = .finished →
      (deadline.isSome → s.queue.closing = false) →
      Step f ((f.put conn s).book (.release conn deadline))
  /-- Somebody else gives a lease back. -/
  | giveBack (conn : Nat) (deadline : Option Nat) : conn ∈ f.pool.leases → f.Vacant conn →
      (deadline.isSome → (f.conn conn).queue.closing = false) →
      Step f (f.book (.release conn deadline))

/-- Any number of steps. -/
inductive Steps (f : Fleet α) : Fleet α → Prop where
  | refl : Steps f f
  | tail {f' f'' : Fleet α} : Steps f f' → Step f' f'' → Steps f f''

/-- A fleet comes about by steps. -/
def Reachable (limit : Nat) (f : Fleet α) : Prop := ∃ mode, Steps (new limit mode) f

/-- A step by which an acquisition hands a connection out, which it reclaimed or opened. -/
inductive HandsOut (f : Fleet α) (conn : Nat) : Bool → Fleet α → Prop where
  /-- It reclaims an idle one. -/
  | reclaimed (ticket : Nat) : f.pool.permits (.claim ticket f.isOpen) →
      (f.pool.claim ticket f.isOpen).2 = some conn →
      HandsOut f conn true (f.book (.claim ticket f.isOpen))
  /-- It has opened and prepared one. -/
  | opened (ticket : Nat) : f.pool.permits (.lease ticket conn) →
      HandsOut f conn false (f.book (.lease ticket conn))

/-- Who may have a transaction open on a connection that was handed out in some state: one
who opened it directly, or a transaction that was not over by then. -/
inductive MayOpen (handed now : Shared α) : Author → Prop where
  /-- A holder of the connection or a unit of work submitted an operation that opens one, or
  may do so. -/
  | direct {a : Author} (i : WorkItem Request) : i ∈ now.log → i.work.author = a →
      (∀ t, a ≠ .coordinator t) → (i.work.control = .opens ∨ i.work.control = .unknown) →
      MayOpen handed now a
  /-- A transaction went on after the connection was handed out. -/
  | later (t : Nat) : handed.phase t ≠ .finished → MayOpen handed now (.coordinator t)

/-- What a connection is good for that was handed out just now. -/
structure Fit (f : Fleet α) (conn : Nat) (reclaimed : Bool) : Prop where
  /-- If it was reclaimed it counts as open. -/
  isOpen : reclaimed → f.isOpen conn
  /-- It is reclaimed all the same when an operation broke it before.  Just then it refuses its
  next operation. -/
  refused : reclaimed → ((f.conn conn).queue.refuses ↔ conn ∈ f.broken)
  /-- From then on it refuses work just when it is closed or broken. -/
  refuses : ∀ f', Steps f f' →
    ((f'.conn conn).queue.refuses ↔ f'.isOpen conn = false ∨ conn ∈ f'.broken)
  /-- It is leased once, and the transactions that had the lease are over. -/
  vacant : f.pool.leases.count conn = 1 ∧ f.Vacant conn
  /-- When all is served that was queued before, no transaction is open on it but one that was
  opened directly or later. -/
  settled : ∀ f', Steps f f' → (f'.conn conn).queue.refuses = false →
    (∀ i ∈ (f'.conn conn).queued, (f.conn conn).fresh ≤ i.id) →
    ∀ a, (f'.conn conn).holder = some a → MayOpen (f.conn conn) (f'.conn conn) a

variable {f f' : Fleet α} {limit : Nat}

@[simp] theorem put_same (f : Fleet α) (conn : Nat) (s : Shared α) :
    (f.put conn s).conn conn = s := if_pos rfl

theorem put_ne (f : Fleet α) {conn c : Nat} (s : Shared α) (ne : c ≠ conn) :
    (f.put conn s).conn c = f.conn c := if_neg ne

theorem put_put (f : Fleet α) (conn : Nat) (s s' : Shared α) :
    (f.put conn s).put conn s' = f.put conn s' := by
  simp only [put, mk.injEq, and_true, true_and]
  funext c
  split <;> rfl

theorem put_host (f : Fleet α) (conn c t : Nat) (s : Shared α) :
    (f.host c t).put conn s = (f.put conn s).host c t := rfl

@[simp] theorem host_same (f : Fleet α) (conn t : Nat) :
    (f.host conn t).tenants conn = t :: f.tenants conn := if_pos rfl

theorem host_ne (f : Fleet α) {conn c : Nat} (t : Nat) (ne : c ≠ conn) :
    (f.host conn t).tenants c = f.tenants c := if_neg ne

/-! ## The connections -/

theorem Steps.trans {f'' : Fleet α} (h : Steps f f') (h' : Steps f' f'') : Steps f f'' := by
  induction h' with
  | refl => exact h
  | tail _ step ih => exact ih.tail step

/-- A step of the fleet is a step on a connection, or leaves it as it is. -/
theorem Step.conn (h : Step f f') (conn : Nat) : Shared.Steps (f.conn conn) (f'.conn conn) := by
  have put {c : Nat} {s : Shared α} (step : Shared.Step (f.conn c) s) :
      Shared.Steps (f.conn conn) ((f.put c s).conn conn) := by
    by_cases is : conn = c
    · subst is
      rw [put_same]
      exact .tail .refl step
    · rw [put_ne f s is]
      exact .refl
  cases h with
  | pool | claim | opened | giveBack => exact .refl
  | use c s _ works _ => exact put works.step
  | breaks c i current => exact put (.crash i current)
  | enter c t _ _ acquiring => exact put (.leased t acquiring)
  | leave c t s deadline _ _ works _ _ => exact put works.step

theorem Steps.conn (h : Steps f f') (conn : Nat) :
    Shared.Steps (f.conn conn) (f'.conn conn) := by
  induction h with
  | refl => exact .refl
  | tail _ step ih => exact ih.trans (step.conn conn)

/-! ## What every step keeps -/

/-- What the pool says of its connections, what they are like, and who has a lease agree. -/
structure Kept (limit : Nat) (f : Fleet α) : Prop where
  /-- The pool comes about by steps. -/
  pool : f.pool.Reachable limit
  /-- A connection is in one place at most. -/
  once : ∀ c, f.pool.places c ≤ 1
  /-- One that is not opened yet is in none. -/
  unopened : ∀ c, f.fresh ≤ c → f.pool.places c = 0
  /-- No transaction leaves anything open on a connection. -/
  sound : ∀ c, (f.conn c).Sound
  /-- A tenant that is not over has a connection that is leased. -/
  leased : ∀ c, ∀ t ∈ f.tenants c, (f.conn c).phase t ≠ .finished → c ∈ f.pool.leases
  /-- There is one such tenant at most. -/
  sole : ∀ c, ∀ t ∈ f.tenants c, ∀ u ∈ f.tenants c, (f.conn c).phase t ≠ .finished →
    (f.conn c).phase u ≠ .finished → t = u
  /-- A queue ends since it is closing or since an operation broke it. -/
  ended : ∀ c, (f.conn c).queue.ended → (f.conn c).queue.closing ∨ c ∈ f.broken
  /-- A broken connection has no queue any more. -/
  broken : ∀ c ∈ f.broken, (f.conn c).queue.ended

namespace Kept

theorem new (limit : Nat) (mode : Nat → Nat → IsolationMode) :
    Kept limit (new limit mode : Fleet α) where
  pool := .new limit
  once _ := Nat.zero_le _
  unopened _ _ := rfl
  sound c := .new (mode c)
  leased := by intro c t mem; cases mem
  sole := by intro c t mem; cases mem
  ended := by intro c ended; cases ended
  broken := by intro c mem; cases mem

/-- A connection refuses work just when it is closed or broken. -/
theorem refuses_iff (h : Kept limit f) (conn : Nat) :
    (f.conn conn).queue.refuses ↔ f.isOpen conn = false ∨ conn ∈ f.broken := by
  rw [WorkQueue.refuses, Bool.or_eq_true, isOpen, Bool.not_eq_false']
  exact ⟨fun refuses => refuses.elim .inl (h.ended conn),
    Or.imp id (h.broken conn)⟩

/-- The pool takes a step that brings no connection in and takes no tenant's lease. -/
theorem book (h : Kept limit f) {e : Pool.Event} (permitted : f.pool.permits e)
    (brings : ∀ c, e.brings c = false)
    (leased : ∀ c, ∀ t ∈ f.tenants c, (f.conn c).phase t ≠ .finished →
      c ∈ f.pool.leases → c ∈ (f.pool.after e).leases) : Kept limit (f.book e) :=
  have fewer (c : Nat) : (f.pool.after e).places c ≤ f.pool.places c := by
    have moved := Pool.places_after h.pool.slots permitted c
    rw [brings c] at moved
    exact moved
  { h with
    pool := h.pool.step e permitted
    once := fun c => (fewer c).trans (h.once c)
    unopened := fun c free => Nat.le_zero.mp (h.unopened c free ▸ fewer c)
    leased := fun c t mem going => leased c t mem going (h.leased c t mem going) }

/-- Something happens on a connection, which may break it. -/
theorem put (h : Kept limit f) {conn : Nat} {s : Shared α} (step : Shared.Step (f.conn conn) s)
    (rollsBack : Shared.RollsBack (f.conn conn) s) {broken : List Nat}
    (ended : s.queue.ended → s.queue.closing ∨ conn ∈ broken) (grows : f.broken ⊆ broken)
    (breaks : ∀ c ∈ broken, c ∈ f.broken ∨ c = conn ∧ s.queue.ended) :
    Kept limit { f.put conn s with broken } :=
  -- a transaction that is not over was not over before
  have going {c t : Nat} (after : ((f.put conn s).conn c).phase t ≠ .finished) :
      (f.conn c).phase t ≠ .finished := by
    by_cases is : c = conn
    · subst is
      rw [put_same] at after
      exact fun finished => after (step.finished finished)
    · rwa [put_ne f s is] at after
  { h with
    sound := by
      intro c
      by_cases is : c = conn
      · subst is
        rw [put_same]
        exact (h.sound c).step step rollsBack
      · rw [put_ne f s is]
        exact h.sound c
    leased := fun c t mem after => h.leased c t mem (going after)
    sole := fun c t mem u mem' after after' => h.sole c t mem u mem' (going after) (going after')
    ended := by
      intro c
      by_cases is : c = conn
      · subst is
        rw [put_same]
        exact ended
      · rw [put_ne f s is]
        exact fun ended => (h.ended c ended).imp_right (grows ·)
    broken := by
      intro c mem
      by_cases is : c = conn
      · subst is
        rw [put_same]
        exact (breaks c mem).elim (fun before => step.closes.ended (h.broken c before)) And.right
      · rw [put_ne f s is]
        exact h.broken c ((breaks c mem).resolve_right fun broke => is broke.1) }

theorem works (h : Kept limit f) {conn : Nat} {s : Shared α} (works : (f.conn conn).Works s) :
    Kept limit (f.put conn s) := by
  refine h.put works.step works.rollsBack (fun ended => ?_) (List.Subset.refl _) fun _ => .inl
  have closes := works.step.closes
  rcases closes.cause ended with before | closing | ⟨i, eq⟩
  · exact (h.ended conn before).imp_left closes.closing
  · exact .inl (closes.closing closing)
  · exact absurd eq (works.whole i)

theorem breaks (h : Kept limit f) {conn : Nat} {i : WorkItem Request}
    (current : (f.conn conn).queue.current = some i) :
    Kept limit { f.put conn ((f.conn conn).crash i) with broken := conn :: f.broken } := by
  refine h.put (.crash i current) (fun _ _ _ _ _ _ => rfl) (fun _ => .inr (.head _))
    (List.subset_cons_self _ _) fun c mem => ?_
  exact (List.mem_cons.mp mem).symm.imp_right fun is => ⟨is, rfl⟩

theorem enter (h : Kept limit f) {conn t : Nat} (lease : conn ∈ f.pool.leases)
    (vacant : f.Vacant conn) (acquiring : (f.conn conn).phase t = .acquiring) :
    Kept limit ((f.put conn (((f.conn conn).note t .leased).conduct t .leased)).host conn t) := by
  let s : Shared α := ((f.conn conn).note t .leased).conduct t .leased
  have step : Shared.Step (f.conn conn) s := .leased t acquiring
  have kept : Kept limit (f.put conn s) := by
    obtain ⟨more, adds, -⟩ := Shared.Adds.conduct ((f.conn conn).note t .leased) t .leased
    refine h.put step (.of_current (by rw [adds.queue]; rfl)) (fun ended => ?_)
      (List.Subset.refl _) fun _ => .inl
    rw [adds.queue] at ended ⊢
    exact h.ended conn ended
  -- the tenants before are over
  have ended {u : Nat} (mem : u ∈ f.tenants conn) :
      ((f.put conn s).conn conn).phase u = .finished := by
    rw [put_same]
    exact step.finished (vacant u mem)
  exact { kept with
    leased := by
      intro c u mem going
      by_cases is : c = conn
      · exact is ▸ lease
      · exact kept.leased c u (host_ne _ t is ▸ mem) going
    sole := by
      intro c u mem v mem' going going'
      by_cases is : c = conn
      · subst is
        rw [host_same] at mem mem'
        rcases List.mem_cons.mp mem with rfl | mem
        · rcases List.mem_cons.mp mem' with rfl | mem'
          · rfl
          · exact absurd (ended mem') going'
        · exact absurd (ended mem) going
      · rw [host_ne _ t is] at mem mem'
        exact kept.sole c u mem v mem' going going' }

theorem release (h : Kept limit f) {conn : Nat} (lease : conn ∈ f.pool.leases)
    (vacant : f.Vacant conn) (deadline : Option Nat) :
    Kept limit (f.book (.release conn deadline)) := by
  refine h.book (List.contains_iff_mem.mpr lease) (fun _ => rfl) fun c t mem going leased => ?_
  have others : c ≠ conn := by
    rintro rfl
    exact going (vacant t mem)
  show c ∈ (f.pool.release conn deadline).1.leases
  rw [Pool.leases_release]
  exact (List.mem_erase_of_ne others).mpr leased

/-- Every step keeps it. -/
theorem step (h : Kept limit f) (step : Step f f') : Kept limit f' := by
  have still {e : Pool.Event} (blind : e.isBlind) :
      (∀ c, e.brings c = false) ∧ f.pool.leases ⊆ (f.pool.after e).leases := by
    constructor
    · intro c
      cases e <;> first | rfl | cases blind
    · exact f.pool.leases_after fun c d is => by cases is; cases blind
  cases step with
  | pool e blind permitted =>
      exact h.book permitted (still blind).1 fun c t _ _ leased => (still blind).2 leased
  | claim ticket permitted =>
      exact h.book permitted (fun _ => rfl) fun c t _ _ leased =>
        f.pool.leases_after (e := .claim ticket f.isOpen) nofun leased
  | opened ticket conn permitted new =>
      have moved := Pool.places_after h.pool.slots permitted
      have places (c : Nat) (ne : c ≠ conn) :
          (f.pool.opened ticket conn).places c ≤ f.pool.places c := by
        have moved := moved c
        rwa [show (Pool.Event.opened ticket conn).brings c = false from
          beq_eq_false_iff_ne.mpr ne.symm] at moved
      exact { h with
        pool := h.pool.step _ permitted
        once := by
          intro c
          by_cases is : c = conn
          · have moved := moved c
            rw [h.unopened c (is ▸ new)] at moved
            exact moved.trans (by split <;> decide)
          · exact (places c is).trans (h.once c)
        unopened := by
          intro c free
          have later : conn < c := free
          have none := h.unopened c (by omega)
          exact Nat.le_zero.mp (none ▸ places c (by omega))
        leased := fun c t mem going =>
          f.pool.leases_after (e := .opened ticket conn) nofun (h.leased c t mem going) }
  | use conn s _ works _ => exact h.works works
  | breaks conn i current => exact h.breaks current
  | enter conn t lease vacant acquiring => exact h.enter lease vacant acquiring
  | leave conn t s deadline tenant going works finished _ =>
      refine (h.works works).release (h.leased conn t tenant going) ?_ deadline
      intro u mem
      rw [put_same]
      by_contra going'
      have before : (f.conn conn).phase u ≠ .finished := fun ended =>
        going' (works.step.finished ended)
      exact going' (h.sole conn t tenant u mem going before ▸ finished)
  | giveBack conn deadline lease vacant _ => exact h.release lease vacant deadline

end Kept

theorem Reachable.kept (h : Reachable limit f) : Kept limit f := by
  obtain ⟨mode, steps⟩ := h
  induction steps with
  | refl => exact .new limit mode
  | tail _ step ih => exact ih.step step

theorem Reachable.steps (h : Reachable limit f) (steps : Steps f f') : Reachable limit f' := by
  obtain ⟨mode, before⟩ := h
  exact ⟨mode, before.trans steps⟩

/-! ## Handing out -/

theorem HandsOut.step {conn : Nat} {reclaimed : Bool} (h : f.HandsOut conn reclaimed f') :
    Step f f' := by
  cases h with
  | reclaimed ticket permitted _ => exact .claim ticket permitted
  | opened ticket permitted => exact .pool _ rfl permitted

/-- What is handed out is leased once more. -/
theorem HandsOut.leases {conn : Nat} {reclaimed : Bool} (h : f.HandsOut conn reclaimed f') :
    f'.pool.leases = f.pool.leases ++ [conn] := by
  cases h with
  | reclaimed ticket _ result =>
      obtain ⟨i, taken, rfl⟩ := Pool.claim_result result
      exact congrArg Pool.leases (Pool.claim_some taken)
  | opened ticket _ => rfl

/-- Nothing happens on a connection by its being handed out. -/
theorem HandsOut.conn {conn : Nat} {reclaimed : Bool} (h : f.HandsOut conn reclaimed f') :
    f'.conn = f.conn ∧ f'.tenants = f.tenants := by
  cases h with
  | reclaimed _ _ _ => exact ⟨rfl, rfl⟩
  | opened _ _ => exact ⟨rfl, rfl⟩

/-- Whatever happened to a connection, it is fit when it is handed out. -/
theorem Reachable.fit_of_handsOut (h : Reachable limit f) {conn : Nat} {reclaimed : Bool}
    (out : f.HandsOut conn reclaimed f') : f'.Fit conn reclaimed := by
  have reachable := h.steps (.tail .refl out.step)
  have kept := reachable.kept
  have lease : f'.pool.leases.count conn = f.pool.leases.count conn + 1 := by
    rw [out.leases, List.count_append, List.count_singleton_self]
  have once : f'.pool.leases.count conn ≤ 1 := by
    have places := kept.once conn
    unfold Pool.places at places
    omega
  have counts : reclaimed → f'.isOpen conn := by
    intro reclaims
    cases out with
    | reclaimed ticket _ result =>
        obtain ⟨i, taken, rfl⟩ := Pool.claim_result result
        obtain ⟨-, -, -, isOpen⟩ := f.pool.entry.takeIdle_left f.isOpen
        exact isOpen i taken
    | opened _ _ => cases reclaims
  constructor
  · exact counts
  · intro reclaims
    rw [kept.refuses_iff conn, counts reclaims]
    exact or_iff_right Bool.noConfusion
  · exact fun f'' steps => (reachable.steps steps).kept.refuses_iff conn
  · refine ⟨by omega, fun t tenant => ?_⟩
    by_contra going
    rw [out.conn.1] at going
    have leased := h.kept.leased conn t (out.conn.2 ▸ tenant) going
    have pos := List.count_pos_iff.mpr leased
    omega
  · intro f'' steps accepts served a holder
    have sound := (reachable.steps steps).kept.sound conn
    have direct (others : ∀ t, a ≠ .coordinator t) :
        MayOpen (f'.conn conn) (f''.conn conn) a := by
      obtain ⟨i, in_log, own, opened⟩ := sound.reachable.opener holder
      exact .direct i in_log own others opened
    cases a with
    | other => exact direct nofun
    | work _ => exact direct nofun
    | coordinator t =>
        refine .later t fun finished => ?_
        exact (sound.tidy accepts t).settled (kept.sound conn).reachable (steps.conn conn)
          finished served holder

/-- The first connection of a path is leased. -/
def leased : Fleet Unit :=
  let asked := (new 1 fun _ _ => .deferred).book .acquire
  { (asked.book (.claim 0 asked.isOpen)).book (.opened 0 0) with fresh := 1 }.book (.lease 0 0)

theorem leased_reachable : Reachable 1 leased := by
  refine ⟨fun _ _ => .deferred, ?_⟩
  have asked := Steps.refl.tail
    (.pool (f := (new 1 fun _ _ => .deferred : Fleet Unit)) .acquire rfl rfl)
  have claimed := asked.tail (.claim 0 rfl)
  have opened := claimed.tail (.opened 0 0 rfl (Nat.le_refl 0))
  exact opened.tail (.pool (.lease 0 0) rfl rfl)

/-- It was given back, and another acquisition asks for one. -/
def again (f : Fleet Unit) : Fleet Unit := (f.book (.release 0 (some 3000))).book .acquire

/-- A transaction took it and has begun. -/
def taken : Fleet Unit := (leased.put 0 Shared.begun).host 0 0

theorem taken_reachable : Reachable 1 taken := by
  refine leased_reachable.steps ?_
  have started := Steps.refl.tail (.use (f := leased) 0 _ Nat.one_pos
    (.of_going (.start 0 rfl) rfl (by rintro _ ⟨⟩)) nofun)
  have asked := started.tail (.enter 0 0 (.head _) nofun rfl)
  have served := asked.tail (.use 0 _ Nat.one_pos
    (.of_going .turn rfl (by rintro _ ⟨⟩)) (by rintro _ (_ | ⟨_, ⟨⟩⟩) ⟨⟩))
  have opened := served.tail (.use 0 _ Nat.one_pos
    (.of_going (.complete ⟨0, ⟨.coordinator 0, .opens⟩, false, false⟩ true
      (some (.coordinator 0)) rfl rfl) rfl (by rintro _ ⟨⟩ _ ⟨⟩)) (by rintro _ (_ | ⟨_, ⟨⟩⟩) ⟨⟩))
  have begun := opened.tail (.use 0 _ Nat.one_pos
    (.of_going (.answer 0 0 .opens true .cancelled rfl (.head _)) rfl (by rintro _ ⟨⟩))
      (by rintro _ (_ | ⟨_, ⟨⟩⟩) ⟨⟩))
  simp only [put_host, put_put] at begun
  exact begun

/-- The transaction was dropped, and its rollback still waits. -/
def dropped : Fleet Unit := again (taken.put 0 (Shared.begun.drop 0))

theorem fit_of_handsOut_dropped : Reachable 1 dropped ∧
    dropped.HandsOut 0 true (dropped.book (.claim 2 dropped.isOpen)) ∧
    (dropped.conn 0).holder = some (.coordinator 0) ∧
    (dropped.book (.claim 2 dropped.isOpen)).Fit 0 true := by
  have reachable : Reachable 1 dropped := by
    refine taken_reachable.steps ?_
    have works : Shared.begun.Works (Shared.begun.drop 0) := by
      refine .of_going (.drop 0 rfl) rfl ?_
      rintro _ ⟨⟩
    have left := Steps.refl.tail
      (.leave (f := taken) 0 0 _ (some 3000) (.head _) nofun works rfl fun _ => rfl)
    exact left.tail (.pool .acquire rfl rfl)
  have out : dropped.HandsOut 0 true (dropped.book (.claim 2 dropped.isOpen)) :=
    .reclaimed 2 rfl rfl
  exact ⟨reachable, out, rfl, reachable.fit_of_handsOut out⟩

/-- A holder opened a transaction directly, and gave the connection back with it. -/
def leftOpen : Fleet Unit :=
  let begins := (leased.conn 0).enqueue ⟨.other, .opens⟩ false
  again (leased.put 0 (begins.turn.complete ⟨0, ⟨.other, .opens⟩, false, false⟩ true (some .other)))

theorem leftOpen_reachable : Reachable 1 leftOpen := by
  refine leased_reachable.steps ?_
  have asked := Steps.refl.tail (.use (f := leased) 0 _ Nat.one_pos
    (.of_going (.submit .opens false) rfl (by rintro _ ⟨⟩)) nofun)
  have served := asked.tail (.use 0 _ Nat.one_pos (.of_going .turn rfl (by rintro _ ⟨⟩)) nofun)
  have opened := served.tail (.use 0 _ Nat.one_pos
    (.of_going (.complete ⟨0, ⟨.other, .opens⟩, false, false⟩ true (some .other) rfl rfl) rfl
      (by rintro _ ⟨⟩ _ ⟨⟩)) nofun)
  simp only [put_put] at opened
  have back := opened.tail (.giveBack 0 (some 3000) (.head _) nofun fun _ => rfl)
  exact back.tail (.pool .acquire rfl rfl)

/-- An operation of a holder broke the connection, and he gave it back. -/
def brokenBack : Fleet Unit :=
  let asks := ((leased.conn 0).enqueue ⟨.other, .keeps⟩ false).turn
  again { leased.put 0 (asks.crash ⟨0, ⟨.other, .keeps⟩, false, false⟩) with broken := [0] }

theorem brokenBack_reachable : Reachable 1 brokenBack := by
  refine leased_reachable.steps ?_
  have asked := Steps.refl.tail (.use (f := leased) 0 _ Nat.one_pos
    (.of_going (.submit .keeps false) rfl (by rintro _ ⟨⟩)) nofun)
  have served := asked.tail (.use 0 _ Nat.one_pos (.of_going .turn rfl (by rintro _ ⟨⟩)) nofun)
  have broke := served.tail (.breaks 0 ⟨0, ⟨.other, .keeps⟩, false, false⟩ rfl)
  simp only [put_put] at broke
  have back := broke.tail (.giveBack 0 (some 3000) (.head _) nofun fun _ => rfl)
  exact back.tail (.pool .acquire rfl rfl)

/-- An initializer closed the connection that it was to prepare. -/
def closedEarly : Fleet Unit :=
  let asked := (new 1 fun _ _ => .deferred).book .acquire
  let fresh := { (asked.book (.claim 0 asked.isOpen)).book (.opened 0 0) with fresh := 1 }
  fresh.put 0 { fresh.conn 0 with queue := (fresh.conn 0).queue.requestClose }

theorem closedEarly_reachable : Reachable 1 closedEarly := by
  refine ⟨fun _ _ => .deferred, ?_⟩
  have asked := Steps.refl.tail
    (.pool (f := (new 1 fun _ _ => .deferred : Fleet Unit)) .acquire rfl rfl)
  have claimed := asked.tail (.claim 0 rfl)
  have opened := claimed.tail (.opened 0 0 rfl (Nat.le_refl 0))
  exact opened.tail (.use 0 _ Nat.one_pos (.of_going .requestClose rfl (by rintro _ ⟨⟩)) nofun)

/-- A connection that an operation broke counts as open and is handed out again, and it refuses all
work.  A fresh one that its initializer closed is handed out all the same.  And one on which a
transaction was left open is handed out again with nothing queued, the transaction is still open,
and no beginning succeeds on it. -/
theorem handsOut_unfit :
    (Reachable 1 brokenBack ∧ ∃ f, brokenBack.HandsOut 0 true f ∧ f.isOpen 0 = true ∧
      ∀ i, (f.conn 0).queue.submit i = none) ∧
    (Reachable 1 closedEarly ∧ ∃ f, closedEarly.HandsOut 0 false f ∧
      ∀ i, (f.conn 0).queue.submit i = none) ∧
    Reachable 1 leftOpen ∧
    ∃ f, leftOpen.HandsOut 0 true f ∧ (f.conn 0).queue.refuses = false ∧ (f.conn 0).queued = [] ∧
      (f.conn 0).holder = some .other ∧
      ∀ a after, Control.opens.allows a (f.conn 0).holder after true = false :=
  ⟨⟨brokenBack_reachable, _, .reclaimed 2 rfl rfl, rfl, fun _ => rfl⟩,
    ⟨closedEarly_reachable, _, .opened 0 rfl, fun _ => rfl⟩,
    leftOpen_reachable, _, .reclaimed 2 rfl rfl, rfl, rfl, rfl, fun _ _ => rfl⟩

end Fleet

end ConnectionPool
