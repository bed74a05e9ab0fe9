import ConnectionPool.Membership
import ConnectionPool.Proofs.Pool.Balance
import ConnectionPool.Proofs.Registry

/-!
# The accounts of a registry

The counts of a pool are right at all times.  The slots taken are those of acquisitions
and of leases.  The primary connections are those that were opened for the path and are
neither closed nor dropped: a connection that is closed tells its pool, a connection that
is dropped does too, and one that was closed before it is dropped does not tell it twice.

`Accounts` puts the connections beside the registry.  A connection knows its pool by
number, for the pool may be gone when the connection is closed.  A registry is dropped
with the pools that nobody holds, and nobody opens anything through it then.

A waiter whose owner leaves just when it is served counts as dead before, so a slot that
was taken for it and put back is no step of its own.
-/

namespace ConnectionPool

namespace Pool

/-- The step counts a primary connection, or counts it no longer. -/
def Event.countsPrimary : Event → Bool
  | .endOpen success => success
  | .closePrimary => true
  | _ => false

theorem Woke.primaries {p q : Pool} (woke : Woke p q) :
    q.entry.primaries = p.entry.primaries := by
  cases woke <;> rfl

theorem primaries_endPause (p : Pool) (r : RetryState) (owesWake : Bool) :
    (p.endPause r owesWake).entry.primaries = p.entry.primaries := by
  rw [endPause]
  cases r.ticket? <;> rfl

theorem primaries_withRetry {p : Pool} {id : Nat} {f : RetryState → Pool}
    (same : ∀ r, (f r).entry.primaries = p.entry.primaries) :
    (p.withRetry id f).entry.primaries = p.entry.primaries := by
  rw [withRetry]
  split
  · exact same _
  · rfl

/-- No other step does. -/
theorem primaries_after (p : Pool) {e : Event} (other : e.countsPrimary = false) :
    (p.after e).entry.primaries = p.entry.primaries := by
  cases e with
  | endOpen opened => cases opened with
    | true => cases other
    | false => rfl
  | closePrimary => cases other
  | releasePrimary => exact p.wake_woke.primaries
  | acquire =>
      by_cases free : p.entry.inUse < p.entry.limit
      · rw [after, acquire_granted free]
      · rw [after, acquire_queued free]; rfl
  | claim ticket isOpen =>
      rw [after]
      rcases p.claim_cases ticket isOpen with ⟨_, _, _, _, eq⟩ | ⟨_, eq⟩ <;> rw [eq]; rfl
  | abandon ticket =>
      rw [after]
      cases found : p.stage? ticket with
      | none => rw [abandon_none found]
      | some stage =>
          by_cases waits : stage = .queued
          · rw [abandon_queued (waits ▸ found)]; rfl
          · rw [abandon_slot found waits]
            exact (wake_woke _).primaries
  | release conn deadline =>
      rw [after, release_eq]
      refine (wake_woke _).primaries.trans ?_
      cases deadline <;> rfl
  | fire timer =>
      rw [after]
      rcases p.fire_cases timer with eq | ⟨_, _, _, eq⟩ <;> rw [eq]
  | park id autocommit =>
      refine primaries_withRetry fun r => ?_
      show (p.park autocommit r.owesWake).1.entry.primaries = _
      rw [park_eq]
      split
      · exact (wake_woke _).primaries
      · rfl
  | delay id => exact primaries_withRetry fun r => rfl
  | resume id => exact primaries_withRetry fun r => by rw [resume_eq, primaries_endPause]
  | cancelPause id => exact primaries_withRetry fun r => by rw [cancelPause_eq, primaries_endPause]
  | endRetries id =>
      rw [after]
      cases found : p.retry? id with
      | none => rw [endRetries_none found]
      | some r =>
          have forget : (p.forgetRetry r).entry.primaries = p.entry.primaries := by
            rw [forgetRetry, cancelPause_eq]
            exact primaries_endPause p r r.owesWake
          rw [endRetries_some found]
          split
          · exact (wake_woke _).primaries.trans forget
          · exact forget
  | _ => rfl

end Pool

namespace Registry

/-- A connection that was opened. -/
structure Opened where
  /-- The path it was opened with. -/
  path : DatabasePath
  /-- How it belongs to the pool of its path. -/
  membership : Membership Nat
  /-- The handles that lead to it. -/
  handles : Nat := 1
  /-- Somebody closed it. -/
  closeAsked : Bool := false
  deriving DecidableEq, Repr

namespace Opened

/-- It was neither closed nor dropped. -/
def isOpen (x : Opened) : Bool := x.handles != 0 && !x.closeAsked

/-- It is closed or dropped. -/
def shut (x : Opened) : Opened := { x with membership := x.membership.shut.1 }

/-- It is an open primary connection to the file of a path. -/
def isPrimaryOf (path : DatabasePath) (x : Opened) : Bool :=
  x.isOpen && x.membership.role == .primary && !x.path.isMemory && path.same x.path

/-- The pool of a number counts it. -/
def isCounted (id : Nat) (x : Opened) : Bool :=
  !x.membership.closed && x.membership.registered == some id

end Opened

/-- A registry, and the connections that were opened through it. -/
structure Accounts where
  /-- The registry. -/
  registry : Registry
  /-- The registry was not dropped. -/
  kept : Bool := true
  /-- The connections, also those that are closed or dropped. -/
  opened : List Opened := []
  deriving DecidableEq, Repr

namespace Accounts

/-- What happens to a registry and the connections opened through it. -/
inductive Event where
  /-- The pool of a path is used. -/
  | entry (path : DatabasePath)
  /-- Somebody takes a step with a pool. -/
  | within (id : Nat) (e : Pool.Event)
  /-- A primary connection to a file was opened, as its pool had been told. -/
  | openedFile (id : Nat) (path : DatabasePath)
  /-- A primary connection to a database in memory was opened. -/
  | openedMemory (path : DatabasePath)
  /-- A pooled connection was opened. -/
  | openedPooled (id : Nat) (path : DatabasePath)
  /-- One more handle leads to a connection. -/
  | clone (conn : Nat)
  /-- A connection is closed. -/
  | close (conn : Nat)
  /-- A handle is dropped, and with the last one the connection. -/
  | drop (conn : Nat)
  /-- The registry is pruned. -/
  | prune
  /-- The registry is dropped, or a pool that outlived it. -/
  | discard
  deriving Inhabited

/-- A handle leads to the connection. -/
def hasHandle (s : Accounts) (conn : Nat) : Bool := s.opened[conn]?.any (·.handles != 0)

/-- The event may happen. -/
def permits (s : Accounts) : Event → Bool
  | .entry path => s.kept && !path.isMemory
  | .within id e => s.registry.permits (.within id e) && !e.countsPrimary
  | .openedFile id path => !path.isMemory &&
      (s.registry.get? id).any fun q => q.path.same path && q.pool.permits (.endOpen true)
  | .openedMemory path => path.isMemory
  | .openedPooled _ _ => true
  | .clone conn => s.hasHandle conn
  | .close conn => s.hasHandle conn
  | .drop conn => s.hasHandle conn
  | .prune => s.kept
  | .discard => true

/-- One more connection. -/
def add (s : Accounts) (x : Opened) : Accounts := { s with opened := s.opened ++ [x] }

/-- Changes a connection. -/
def modify (s : Accounts) (conn : Nat) (f : Opened → Opened) : Accounts :=
  { s with opened := s.opened.modify conn f }

/-- Somebody takes a step with a pool, if it is still there. -/
def step (s : Accounts) (id : Nat) (e : Pool.Event) : Accounts :=
  { s with registry := s.registry.after (.within id e) }

/-- The pool that is told when a connection is closed or dropped. -/
def told (s : Accounts) (conn : Nat) : Option Nat := s.opened[conn]?.bind (·.membership.shut.2)

/-- A connection is closed or dropped. -/
def shut (s : Accounts) (conn : Nat) : Accounts :=
  let closed := s.modify conn Opened.shut
  match s.told conn with
  | some id => closed.step id .closePrimary
  | none => closed

/-- The registry and the connections after an event. -/
def after (s : Accounts) : Event → Accounts
  | .entry path => { s with registry := s.registry.after (.entry path) }
  | .within id e => s.step id e
  | .openedFile id path => (s.step id (.endOpen true)).add
      { path, membership := { role := .primary, pool := some id } }
  | .openedMemory path => s.add { path, membership := { role := .primary, pool := none } }
  | .openedPooled id path => s.add { path, membership := { role := .pooled, pool := some id } }
  | .clone conn => s.modify conn fun x => { x with handles := x.handles + 1 }
  | .close conn => (s.modify conn fun x => { x with closeAsked := true }).shut conn
  | .drop conn =>
    let dropped := s.modify conn fun x => { x with handles := x.handles - 1 }
    if dropped.hasHandle conn then dropped else dropped.shut conn
  | .prune => { s with registry := s.registry.after .prune }
  | .discard =>
    { s with
      kept := false
      registry := { s.registry with pools := s.registry.pools.filter (·.pool.isHeld) } }

/-- Closing or dropping the connection subtracts from a count that is zero. -/
def shutSaturates (s : Accounts) (conn : Nat) : Bool :=
  (s.told conn).any fun id => (s.registry.get? id).any (·.pool.saturates .closePrimary)

/-- The event subtracts from a count that is zero. -/
def saturates (s : Accounts) : Event → Bool
  | .within id e => (s.registry.get? id).any (·.pool.saturates e)
  | .close conn => s.shutSaturates conn
  | .drop conn => s.shutSaturates conn
  | _ => false

/-- Accounts come about by events. -/
inductive Run (config : Config) : Accounts → Prop where
  /-- Nobody has used the registry. -/
  | new : Run config { registry := { config } }
  /-- One more event. -/
  | step {s : Accounts} (e : Event) : Run config s → s.permits e → Run config (s.after e)

end Accounts

/-! ## Pools and their numbers -/

section Within

variable {config : Config} {r : Registry} {id : Nat} {e : Pool.Event}

/-- A step with a pool changes this pool and no other. -/
theorem Sound.mem_within (h : Sound config r) {q' : RegisteredPool}
    (mem : q' ∈ (r.after (.within id e)).pools) : ∃ q ∈ r.pools, q'.id = q.id ∧
      q'.path = q.path ∧ q'.pool = if q.id = id then q.pool.after e else q.pool := by
  rw [Registry.after] at mem
  cases found : r.get? id with
  | none =>
      rw [found] at mem
      have ne : q'.id ≠ id := by simpa using List.find?_eq_none.mp found q' mem
      exact ⟨q', mem, rfl, rfl, (if_neg ne).symm⟩
  | some p =>
      obtain ⟨hp, is⟩ := mem_of_find?_key found
      rw [found] at mem
      rcases mem_replaceKey.mp mem with ⟨hq, ne⟩ | ⟨q, hq, same, rfl⟩
      · exact ⟨q', hq, rfl, rfl, (if_neg ne).symm⟩
      · have eq : q = p := h.ids.eq_of_mem hq hp (same.trans is.symm)
        exact ⟨q, hq, rfl, rfl, by rw [if_pos same, eq]⟩

theorem mem_within_of_mem {q : RegisteredPool} (mem : q ∈ r.pools) :
    ∃ q' ∈ (r.after (.within id e)).pools, q'.id = q.id := by
  rw [after]
  cases r.get? id with
  | none => exact ⟨q, mem, rfl⟩
  | some p =>
      by_cases same : q.id = id
      · exact ⟨_, mem_replaceKey.mpr (.inr ⟨q, mem, same, rfl⟩), rfl⟩
      · exact ⟨q, mem_replaceKey.mpr (.inl ⟨mem, same⟩), rfl⟩

theorem fresh_within : (r.after (.within id e)).fresh = r.fresh := by
  rw [after]
  cases r.get? id <;> rfl

/-- A step may be taken with a pool that is there, or nothing happens. -/
theorem Sound.within? (h : Sound config r)
    (permitted : ∀ q ∈ r.pools, q.id = id → q.pool.permits e) :
    Sound config (r.after (.within id e)) := by
  cases found : r.get? id with
  | none =>
      rw [Registry.after, found]
      exact h
  | some q =>
      obtain ⟨mem, is⟩ := mem_of_find?_key found
      refine h.within id e ?_
      rw [permits, found]
      exact permitted q mem is

end Within

/-- The number leads to the pool of the path, unless the registry was dropped and the pool
with it. -/
structure Placed (r : Registry) (kept : Bool) (path : DatabasePath) (id : Nat) : Prop where
  /-- The number was given out. -/
  lt : id < r.fresh
  /-- The pool is there. -/
  there : kept → ∃ q ∈ r.pools, q.id = id
  /-- It is the only pool of the path. -/
  only : ∀ q ∈ r.pools, q.path.same path ↔ q.id = id

namespace Placed

variable {config : Config} {r : Registry} {kept : Bool} {path : DatabasePath} {id : Nat}

theorem entry (h : Placed r true path id) (other : DatabasePath) :
    Placed (r.entry other).1 true path id := by
  rw [Registry.entry]
  cases found : r.find? other with
  | some q => exact h
  | none =>
      obtain ⟨p, mem, is⟩ := h.there rfl
      exact {
        lt := Nat.lt_succ_of_lt h.lt
        there := fun _ => ⟨p, List.mem_append_left _ mem, is⟩
        only := by
          intro q hq
          rcases List.mem_append.mp hq with hq | hq
          · exact h.only q hq
          · rw [List.mem_singleton.mp hq]
            refine iff_of_false ?_ (Nat.ne_of_gt h.lt)
            have same : p.path.components = path.components := beq_iff_eq.mp ((h.only p mem).mpr is)
            have ne : p.path.components ≠ other.components := by
              simpa [DatabasePath.same] using List.find?_eq_none.mp found p mem
            intro eq
            exact ne (same.trans (beq_iff_eq.mp eq).symm) }

theorem within (sound : Sound config r) (h : Placed r kept path id) (n : Nat) (e : Pool.Event) :
    Placed (r.after (.within n e)) kept path id where
  lt := fresh_within.symm ▸ h.lt
  there := by
    intro there
    obtain ⟨q, mem, rfl⟩ := h.there there
    exact mem_within_of_mem mem
  only := by
    intro q' mem
    obtain ⟨q, hq, same_id, same_path, -⟩ := sound.mem_within mem
    rw [same_id, same_path]
    exact h.only q hq

/-- Other pools may leave. -/
theorem filter (h : Placed r kept path id) {stays : RegisteredPool → Bool} {kept' : Bool}
    (there : kept' → kept ∧ ∀ q ∈ r.pools, q.id = id → stays q) :
    Placed { r with pools := r.pools.filter stays } kept' path id where
  lt := h.lt
  there := by
    intro kept
    obtain ⟨q, mem, is⟩ := h.there (there kept).1
    exact ⟨q, List.mem_filter.mpr ⟨mem, (there kept).2 q mem is⟩, is⟩
  only := fun q mem => h.only q (List.mem_filter.mp mem).1

theorem of_mem (sound : Sound config r) {q : RegisteredPool} (mem : q ∈ r.pools)
    (same : q.path.same path) : Placed r kept path q.id where
  lt := sound.id_lt q mem
  there := fun _ => ⟨q, mem, rfl⟩
  only := by
    intro p hp
    constructor
    · intro is
      rw [sound.paths.eq_of_mem hp mem ((beq_iff_eq.mp is).trans (beq_iff_eq.mp same).symm)]
    · intro is
      rwa [sound.ids.eq_of_mem hp mem is]

end Placed

/-! ## Connections -/

section Modify

variable {α : Type} {l : List α} {i : Nat} {f : α → α} {a b : α}

theorem mem_modify (mem : b ∈ l.modify i f) : b ∈ l ∨ ∃ a, l[i]? = some a ∧ b = f a := by
  obtain ⟨j, found⟩ := List.mem_iff_getElem?.mp mem
  rw [List.getElem?_modify] at found
  obtain ⟨a, there, rfl⟩ := Option.map_eq_some_iff.mp found
  by_cases is : i = j
  · exact .inr ⟨a, is ▸ there, if_pos is⟩
  · rw [if_neg is]
    exact .inl (List.mem_of_getElem? there)

theorem countP_modify (found : l[i]? = some a) (p : α → Bool) :
    (l.modify i f).countP p + (if p a then 1 else 0) =
      l.countP p + if p (f a) then 1 else 0 := by
  obtain ⟨lt, is⟩ := List.getElem?_eq_some_iff.mp found
  obtain ⟨l₁, b, l₂, rfl, rfl, modified⟩ := List.exists_of_modify f lt
  rw [modified]
  simp only [List.getElem_append_right (Nat.le_refl _), Nat.sub_self, List.getElem_cons_zero] at is
  subst is
  simp only [List.countP_append, List.countP_cons]
  omega

end Modify

namespace Opened

variable {x : Opened} {id : Nat}

theorem isCounted_iff : x.isCounted id ↔
    x.membership.closed = false ∧ x.membership.role = .primary ∧ x.membership.pool = some id := by
  rw [isCounted, Membership.registered]
  cases x.membership.role <;> simp

/-- The pool that is told is the one that counts the connection. -/
theorem shut_told : x.membership.shut.2 = some id ↔ x.isCounted id := by
  rw [isCounted, Membership.shut]
  cases x.membership.closed <;> simp

theorem shut_membership : x.shut.membership = { x.membership with closed := true } := by
  rw [shut, Membership.shut]
  split
  · next closed => rw [← closed]
  · rfl

end Opened

/-! ## The invariant -/

namespace Accounts

/-- The accounts are in order, whether or not somebody still has a handle to a connection
that is closed. -/
structure Sound (config : Config) (s : Accounts) : Prop where
  /-- The pools are told apart and are reachable. -/
  registry : s.registry.Sound config
  /-- A primary connection has a pool unless its database is in memory. -/
  file : ∀ x ∈ s.opened, x.membership.role = .primary →
    (x.membership.pool = none ↔ x.path.isMemory)
  /-- A connection that is counted is counted by the pool of its path. -/
  placed : ∀ x ∈ s.opened, ∀ id, x.isCounted id → Placed s.registry s.kept x.path id
  /-- A pool counts its connections. -/
  counts : ∀ q ∈ s.registry.pools, q.pool.entry.primaries = s.opened.countP (·.isCounted q.id)

namespace Sound

variable {config : Config} {s : Accounts}

theorem new (config : Config) : Sound config { registry := { config } } where
  registry := Registry.Sound.new config
  file := by intro x mem; cases mem
  placed := by intro x mem; cases mem
  counts := by intro q mem; cases mem

theorem entry (h : Sound config s) (path : DatabasePath) (kept : s.kept) :
    Sound config { s with registry := s.registry.after (.entry path) } where
  registry := h.registry.entry path
  file := h.file
  placed := by
    intro x mem id counted
    have placed := h.placed x mem id counted
    rw [kept] at placed ⊢
    exact placed.entry path
  counts := by
    intro q mem
    rw [Registry.after, Registry.entry] at mem
    cases found : s.registry.find? path with
    | some _ =>
        rw [found] at mem
        exact h.counts q mem
    | none =>
        rw [found] at mem
        rcases List.mem_append.mp mem with mem | mem
        · exact h.counts q mem
        · rw [List.mem_singleton.mp mem]
          refine (List.countP_eq_zero.mpr ?_).symm
          intro x hx counted
          exact Nat.lt_irrefl _ (h.placed x hx _ counted).lt

theorem within (h : Sound config s) {id : Nat} {e : Pool.Event}
    (permitted : s.permits (.within id e)) : Sound config (s.step id e) := by
  rw [permits, Bool.and_eq_true, Bool.not_eq_true'] at permitted
  obtain ⟨permitted, other⟩ := permitted
  exact {
    registry := h.registry.within id e permitted
    file := h.file
    placed := fun x mem n counted => (h.placed x mem n counted).within h.registry id e
    counts := by
      intro q' mem
      obtain ⟨q, hq, is, -, pool⟩ := h.registry.mem_within mem
      have same : q'.pool.entry.primaries = q.pool.entry.primaries := by
        rw [pool]
        split
        · exact q.pool.primaries_after other
        · rfl
      rw [same, is]
      exact h.counts q hq }

theorem openedFile (h : Sound config s) {id : Nat} {path : DatabasePath}
    (permitted : s.permits (.openedFile id path)) :
    Sound config (s.after (.openedFile id path)) := by
  rw [permits, Bool.and_eq_true, Option.any_eq_true, Bool.not_eq_true'] at permitted
  obtain ⟨file, p, found, permitted⟩ := permitted
  obtain ⟨same, opens⟩ := Bool.and_eq_true_iff.mp permitted
  obtain ⟨mem, rfl⟩ := mem_of_find?_key found
  have registry : (s.step p.id (.endOpen true)).registry.Sound config := by
    refine h.registry.within p.id (.endOpen true) ?_
    rw [Registry.permits, found]
    exact opens
  exact {
    registry := registry
    file := by
      intro x hx role
      rcases List.mem_append.mp hx with hx | hx
      · exact h.file x hx role
      · rw [List.mem_singleton.mp hx]
        simp [file]
    placed := by
      intro x hx n counted
      rcases List.mem_append.mp hx with hx | hx
      · exact (h.placed x hx n counted).within h.registry _ _
      · rw [List.mem_singleton.mp hx] at counted ⊢
        obtain ⟨-, -, is⟩ := Opened.isCounted_iff.mp counted
        obtain rfl : p.id = n := Option.some.inj is
        exact (Placed.of_mem h.registry mem same).within h.registry _ _
    counts := by
      intro q' hq'
      obtain ⟨q, hq, is, -, pool⟩ := h.registry.mem_within hq'
      have one : Opened.isCounted q.id
          { path, membership := { role := .primary, pool := some p.id } } =
            decide (q.id = p.id) := by
        simp [Opened.isCounted, Membership.registered, eq_comm, Bool.beq_eq_decide_eq]
      have counts := h.counts q hq
      show q'.pool.entry.primaries = (s.opened ++ [_]).countP _
      rw [is, pool, List.countP_append, List.countP_singleton, one]
      by_cases it : q.id = p.id
      · simp only [it, if_true, decide_true]
        rw [← it, ← counts]
        rfl
      · simp only [it, if_false, decide_false, Bool.false_eq_true]
        exact counts }

/-- One more connection may come that no pool counts. -/
theorem add (h : Sound config s) {x : Opened} (none : x.membership.registered = none)
    (file : x.membership.role = .primary → (x.membership.pool = .none ↔ x.path.isMemory)) :
    Sound config (s.add x) := by
  have other : ∀ id, x.isCounted id = false := by
    intro id
    rw [Opened.isCounted, none]
    exact Bool.and_false _
  exact {
    registry := h.registry
    file := by
      intro y mem
      rcases List.mem_append.mp mem with mem | mem
      · exact h.file y mem
      · exact List.mem_singleton.mp mem ▸ file
    placed := by
      intro y mem id counted
      rcases List.mem_append.mp mem with mem | mem
      · exact h.placed y mem id counted
      · rw [List.mem_singleton.mp mem, other] at counted
        cases counted
    counts := by
      intro q mem
      show _ = (s.opened ++ [x]).countP _
      rw [List.countP_append, List.countP_singleton, other]
      exact h.counts q mem }

section Change

variable (conn : Nat) {f : Opened → Opened}

/-- A connection stays in its role and with its pool. -/
theorem file_modify (h : Sound config s) (path : ∀ x, (f x).path = x.path)
    (role : ∀ x, (f x).membership.role = x.membership.role)
    (pool : ∀ x, (f x).membership.pool = x.membership.pool) :
    ∀ y ∈ s.opened.modify conn f, y.membership.role = .primary →
      (y.membership.pool = none ↔ y.path.isMemory) := by
  intro y mem
  rcases mem_modify mem with mem | ⟨x, found, rfl⟩
  · exact h.file y mem
  · rw [path, role, pool]
    exact h.file x (List.mem_of_getElem? found)

/-- A connection is not counted that was not before. -/
theorem placed_modify (h : Sound config s) (path : ∀ x, (f x).path = x.path)
    (counted : ∀ x id, (f x).isCounted id → x.isCounted id) :
    ∀ y ∈ s.opened.modify conn f, ∀ id, y.isCounted id →
      Placed s.registry s.kept y.path id := by
  intro y mem id counts
  rcases mem_modify mem with mem | ⟨x, found, rfl⟩
  · exact h.placed y mem id counts
  · rw [path]
    exact h.placed x (List.mem_of_getElem? found) id (counted x id counts)

end Change

/-- What counts may stay while handles come and go. -/
theorem modify (h : Sound config s) {conn : Nat} {f : Opened → Opened}
    (path : ∀ x, (f x).path = x.path) (same : ∀ x, (f x).membership = x.membership) :
    Sound config (s.modify conn f) := by
  have counted : ∀ x id, (f x).isCounted id = x.isCounted id := by
    intro x id
    rw [Opened.isCounted, Opened.isCounted, same]
  exact {
    registry := h.registry
    file := h.file_modify conn path (fun x => by rw [same]) fun x => by rw [same]
    placed := h.placed_modify conn path fun x id => by rw [counted]; exact fun counts => counts
    counts := by
      intro q mem
      refine (h.counts q mem).trans ?_
      cases found : s.opened[conn]? with
      | none =>
          show _ = (s.opened.modify conn f).countP _
          rw [List.modify_eq_self (List.getElem?_eq_none_iff.mp found)]
      | some x =>
          have count := countP_modify (f := f) found (Opened.isCounted q.id)
          rw [counted x q.id] at count
          exact (Nat.add_right_cancel count).symm }

theorem told_iff {conn id : Nat} : s.told conn = some id ↔
    ∃ x, s.opened[conn]? = some x ∧ x.isCounted id := by
  simp only [told, Option.bind_eq_some_iff, Opened.shut_told]

/-- Whom the pool counts no longer, it counted. -/
theorem primaries_pos (h : Sound config s) {conn id : Nat} (told : s.told conn = some id)
    {q : RegisteredPool} (mem : q ∈ s.registry.pools) (is : q.id = id) :
    0 < q.pool.entry.primaries := by
  obtain ⟨x, found, counted⟩ := told_iff.mp told
  rw [h.counts q mem, is]
  exact List.countP_pos_iff.mpr ⟨x, List.mem_of_getElem? found, counted⟩

/-- A connection that is closed or dropped was counted by the pool that is told. -/
theorem countP_shut (s : Accounts) (conn id : Nat) :
    (s.opened.modify conn Opened.shut).countP (·.isCounted id) +
        (if s.told conn = some id then 1 else 0) = s.opened.countP (·.isCounted id) := by
  cases found : s.opened[conn]? with
  | none =>
      rw [List.modify_eq_self (List.getElem?_eq_none_iff.mp found), told, found]
      rfl
  | some x =>
      have count := countP_modify (f := Opened.shut) found (Opened.isCounted id)
      have closed : x.shut.isCounted id = false := by
        rw [Opened.isCounted, Opened.shut_membership]
        rfl
      have told : s.told conn = some id ↔ x.isCounted id := by
        simp only [told, found, Option.bind_some, Opened.shut_told]
      simp only [closed, Bool.false_eq_true, if_false, ← told] at count
      exact count

/-- A connection is counted no longer when it is closed or dropped. -/
theorem shut (h : Sound config s) (conn : Nat) : Sound config (s.shut conn) := by
  have file := h.file_modify conn (f := Opened.shut) (fun _ => rfl)
    (fun x => by rw [x.shut_membership]) fun x => by rw [x.shut_membership]
  have placed := h.placed_modify conn (f := Opened.shut) (fun _ => rfl) <| by
    intro x id counted
    rw [Opened.isCounted, x.shut_membership] at counted
    cases counted
  rw [Accounts.shut]
  cases told : s.told conn with
  | none =>
      exact {
        registry := h.registry
        file := file
        placed := placed
        counts := by
          intro q mem
          have count := countP_shut s conn q.id
          rw [told] at count
          exact (h.counts q mem).trans count.symm }
  | some id =>
      exact {
        registry := h.registry.within? fun _ _ _ => rfl
        file := file
        placed := fun y mem n counted => (placed y mem n counted).within h.registry _ _
        counts := by
          intro q' mem
          obtain ⟨q, hq, is, -, pool⟩ := h.registry.mem_within mem
          have count := countP_shut s conn q.id
          have before := h.counts q hq
          show _ = (s.opened.modify conn Opened.shut).countP _
          rw [is, pool]
          by_cases it : q.id = id
          · rw [if_pos (by rw [told, it])] at count
            rw [if_pos it]
            show q.pool.entry.primaries - 1 = _
            omega
          · rw [if_neg fun eq => it (Option.some.inj (told ▸ eq)).symm] at count
            rw [if_neg it]
            omega }

theorem prune (h : Sound config s) : Sound config (s.after .prune) where
  registry := h.registry.prune
  file := h.file
  placed := by
    intro x hx id counted
    refine (h.placed x hx id counted).filter fun kept => ⟨kept, fun q mem is => ?_⟩
    -- a pool that counts a connection is needed
    have pos : 0 < q.pool.entry.primaries := by
      rw [h.counts q mem, is]
      exact List.countP_pos_iff.mpr ⟨x, hx, counted⟩
    have used : q.pool.entry.isUnused = false := by
      simp [Entry.isUnused, Nat.ne_of_gt pos]
    rw [isNeeded, used]
    exact Bool.or_true _
  counts := fun q mem => h.counts q (List.mem_filter.mp mem).1

theorem discard (h : Sound config s) : Sound config (s.after .discard) where
  registry := {
    config_eq := h.registry.config_eq
    ids := h.registry.ids.sublist List.filter_sublist
    id_lt := fun q mem => h.registry.id_lt q (List.mem_filter.mp mem).1
    paths := h.registry.paths.sublist List.filter_sublist
    reachable := fun q mem => h.registry.reachable q (List.mem_filter.mp mem).1 }
  file := h.file
  placed := fun x hx id counted => (h.placed x hx id counted).filter (by nofun)
  counts := fun q mem => h.counts q (List.mem_filter.mp mem).1

theorem after (h : Sound config s) {e : Event} (permitted : s.permits e) :
    Sound config (s.after e) := by
  cases e with
  | entry path => exact h.entry path (Bool.and_eq_true_iff.mp permitted).1
  | within id e => exact h.within permitted
  | openedFile id path => exact h.openedFile permitted
  | openedMemory path => exact h.add rfl fun _ => iff_of_true rfl permitted
  | openedPooled id path => exact h.add rfl (by nofun)
  | clone conn => exact h.modify (fun _ => rfl) fun _ => rfl
  | close conn =>
      have asked : Sound config (s.modify conn fun x => { x with closeAsked := true }) :=
        h.modify (fun _ => rfl) fun _ => rfl
      exact asked.shut conn
  | drop conn =>
      have dropped : Sound config (s.modify conn fun x => { x with handles := x.handles - 1 }) :=
        h.modify (fun _ => rfl) fun _ => rfl
      rw [Accounts.after]
      split
      · exact dropped
      · exact dropped.shut conn
  | prune => exact h.prune
  | discard => exact h.discard

end Sound

theorem Run.sound {config : Config} {s : Accounts} (run : Run config s) : Sound config s := by
  induction run with
  | new => exact Sound.new config
  | step e _ permitted ih => exact ih.after permitted

/-! ## Handles -/

/-- A connection is closed when somebody closed it or no handle is left. -/
def Flagged (s : Accounts) : Prop := ∀ x ∈ s.opened, x.membership.closed = !x.isOpen

theorem opened_shut (s : Accounts) (conn : Nat) :
    (s.shut conn).opened = s.opened.modify conn Opened.shut := by
  rw [shut]
  cases s.told conn <;> rfl

theorem hasHandle_of_found {s : Accounts} {conn : Nat} {x : Opened} (held : s.hasHandle conn)
    (found : s.opened[conn]? = some x) : x.handles ≠ 0 := by
  rw [hasHandle, found] at held
  exact bne_iff_ne.mp held

namespace Flagged

variable {s : Accounts} {conn : Nat}

theorem add (h : Flagged s) {x : Opened} (flag : x.membership.closed = !x.isOpen) :
    Flagged (s.add x) := by
  intro y mem
  rcases List.mem_append.mp mem with mem | mem
  · exact h y mem
  · exact List.mem_singleton.mp mem ▸ flag

theorem modify (h : Flagged s) {f : Opened → Opened}
    (flag : ∀ x, s.opened[conn]? = some x → (f x).membership.closed = !(f x).isOpen) :
    Flagged (s.modify conn f) := by
  intro y mem
  rcases mem_modify mem with mem | ⟨x, found, rfl⟩
  · exact h y mem
  · exact flag x found

/-- A change that leaves nobody to use a connection closes it too. -/
theorem shut (h : Flagged s) {f : Opened → Opened}
    (gone : ∀ x, s.opened[conn]? = some x → (f x).isOpen = false) :
    Flagged ((s.modify conn f).shut conn) := by
  have closes : Flagged (s.modify conn (Opened.shut ∘ f)) := by
    refine h.modify fun x found => ?_
    show (f x).shut.membership.closed = !(f x).isOpen
    rw [Opened.shut_membership, gone x found]
    rfl
  intro y mem
  rw [opened_shut] at mem
  refine closes y ?_
  rwa [Accounts.modify, ← List.modify_modify_eq]

theorem drop (h : Flagged s) (permitted : s.hasHandle conn) : Flagged (s.after (.drop conn)) := by
  rw [Accounts.after]
  let fewer (x : Opened) : Opened := { x with handles := x.handles - 1 }
  have left : ∀ x, s.opened[conn]? = some x →
      (s.modify conn fewer).hasHandle conn = (x.handles - 1 != 0) := by
    intro x found
    rw [hasHandle, Accounts.modify, List.getElem?_modify, found]
    simp [fewer]
  split
  · next kept =>
      refine h.modify fun x found => ?_
      have some : x.handles ≠ 0 := hasHandle_of_found permitted found
      have still : (x.handles - 1 != 0) = true := (left x found).symm.trans kept
      have flag := h x (List.mem_of_getElem? found)
      rw [Opened.isOpen, bne_iff_ne.mpr some] at flag
      rw [Opened.isOpen, still]
      exact flag
  · next last =>
      refine h.shut fun x found => ?_
      have none : (x.handles - 1 != 0) = false := by
        rw [← left x found]
        exact Bool.eq_false_iff.mpr last
      rw [Opened.isOpen, none]
      rfl

theorem after (h : Flagged s) {e : Event} (permitted : s.permits e) : Flagged (s.after e) := by
  cases e with
  | entry path | within id e | prune | discard => exact h
  | openedFile id path =>
      have stepped : Flagged (s.step id (.endOpen true)) := h
      exact stepped.add rfl
  | openedMemory path => exact h.add rfl
  | openedPooled id path => exact h.add rfl
  | clone conn =>
      refine h.modify fun x found => ?_
      have flag := h x (List.mem_of_getElem? found)
      rw [Opened.isOpen, bne_iff_ne.mpr (hasHandle_of_found permitted found)] at flag
      rw [Opened.isOpen, bne_iff_ne.mpr (Nat.succ_ne_zero x.handles)]
      exact flag
  | close conn => exact h.shut fun x _ => Bool.and_false _
  | drop conn => exact h.drop permitted

end Flagged

theorem Run.flagged {config : Config} {s : Accounts} (run : Run config s) : Flagged s := by
  induction run with
  | new => intro x mem; cases mem
  | step e _ permitted ih => exact ih.after permitted

/-! ## The accounts -/

/-- The counts of a pool are what they count. -/
structure Exact (s : Accounts) (q : RegisteredPool) : Prop where
  /-- A slot that is taken belongs to an acquisition that was granted it, or to a lease. -/
  slots : q.pool.entry.inUse =
    q.pool.acquisitions.countP Acquisition.hasSlot + q.pool.leases.length
  /-- The primary connections are those to the file that are neither closed nor dropped. -/
  primaries : q.pool.entry.primaries = s.opened.countP (·.isPrimaryOf q.path)
  /-- Whatever happens, a slot that is handed out is given back once or is taken still. -/
  once : ∀ es, q.pool.PermitsAll es → (q.pool.afterAll es).entry.inUse + q.pool.givenBack es =
    q.pool.entry.inUse + q.pool.handedOut es
  /-- In the end nothing is counted. -/
  settled : q.pool.acquisitions = [] → q.pool.leases = [] →
    (∀ x ∈ s.opened, x.isPrimaryOf q.path = false) →
    q.pool.entry.inUse = 0 ∧ q.pool.entry.primaries = 0

theorem Sound.isPrimaryOf_iff {config : Config} {s : Accounts} (h : Sound config s)
    (flagged : Flagged s) {q : RegisteredPool} (mem : q ∈ s.registry.pools) {x : Opened}
    (hx : x ∈ s.opened) : x.isPrimaryOf q.path ↔ x.isCounted q.id := by
  have flag : x.membership.closed = false ↔ x.isOpen = true := by
    rw [flagged x hx, Bool.not_eq_false']
  have split : x.isPrimaryOf q.path ↔ x.isOpen = true ∧ x.membership.role = .primary ∧
      x.path.isMemory = false ∧ q.path.same x.path = true := by
    simp [Opened.isPrimaryOf, and_assoc]
  rw [split, Opened.isCounted_iff, flag]
  constructor
  · rintro ⟨isOpen, role, file, same⟩
    have pooled : x.membership.pool ≠ none := fun none => by
      rw [(h.file x hx role).mp none] at file
      cases file
    obtain ⟨id, pool⟩ := Option.ne_none_iff_exists'.mp pooled
    have placed := h.placed x hx id (Opened.isCounted_iff.mpr ⟨flag.mpr isOpen, role, pool⟩)
    exact ⟨isOpen, role, ((placed.only q mem).mp same) ▸ pool⟩
  · rintro ⟨isOpen, role, pool⟩
    have placed := h.placed x hx q.id (Opened.isCounted_iff.mpr ⟨flag.mpr isOpen, role, pool⟩)
    refine ⟨isOpen, role, ?_, (placed.only q mem).mpr rfl⟩
    cases memory : x.path.isMemory with
    | false => rfl
    | true =>
        rw [(h.file x hx role).mpr memory] at pool
        cases pool

theorem Run.exact {config : Config} {s : Accounts} (run : Run config s) {q : RegisteredPool}
    (mem : q ∈ s.registry.pools) : Exact s q := by
  have sound := run.sound
  have slots := (sound.registry.reachable q mem).slots
  have primaries : q.pool.entry.primaries = s.opened.countP (·.isPrimaryOf q.path) :=
    (sound.counts q mem).trans
      (List.countP_congr fun _ hx => (sound.isPrimaryOf_iff run.flagged mem hx).symm)
  exact {
    slots := slots.inUse_eq
    primaries := primaries
    once := fun es permitted => slots.inUse_afterAll permitted
    settled := by
      intro acquisitions leases none
      constructor
      · rw [slots.inUse_eq, acquisitions, leases]
        rfl
      · rw [primaries, List.countP_eq_zero]
        exact fun x hx => by simp [none x hx] }

theorem Sound.not_shutSaturates {config : Config} {s : Accounts} (h : Sound config s)
    (conn : Nat) : s.shutSaturates conn = false := by
  rw [shutSaturates, Option.any_eq_false]
  intro id told
  rw [Option.any_eq_false]
  intro q found
  obtain ⟨mem, is⟩ := mem_of_find?_key found
  have pos := h.primaries_pos told mem is
  simp [Pool.saturates, Nat.ne_of_gt pos]

theorem Run.not_saturates {config : Config} {s : Accounts} (run : Run config s) {e : Event}
    (permitted : s.permits e) : s.saturates e = false := by
  cases e with
  | within id e =>
      obtain ⟨permits, other⟩ := Bool.and_eq_true_iff.mp permitted
      rw [saturates, Option.any_eq_false]
      intro q found
      obtain ⟨mem, rfl⟩ := mem_of_find?_key found
      rw [Registry.permits, found] at permits
      have slots := (run.sound.registry.reachable q mem).slots
      have not := slots.not_saturates permits (by rintro rfl; cases other)
      simp [not]
  | close conn => exact run.sound.not_shutSaturates conn
  | drop conn => exact run.sound.not_shutSaturates conn
  | _ => rfl

/-- However a registry was used, the counts of its pools are exact, and no step subtracts
from a count that is zero. -/
theorem Run.keeps_accounts {config : Config} {s : Accounts} (run : Run config s) :
    (∀ q ∈ s.registry.pools, s.Exact q) ∧ ∀ e, s.permits e → s.saturates e = false :=
  ⟨fun _ mem => run.exact mem, fun _ permitted => run.not_saturates permitted⟩

theorem isMemory_file : (⟨"a.db"⟩ : DatabasePath).isMemory = false := by
  have whole : ("a.db".splitOn "mode=memory").length = 1 := by
    rw [String.splitOn, if_neg (by decide)]
    iterate 4 rw [String.splitOnAux, if_neg (by decide), if_neg (by decide)]
    rw [String.splitOnAux, if_pos (by decide)]
    rfl
  simp [DatabasePath.isMemory, whole]

/-- One of two primary connections is closed and then both of its handles are dropped.  A
pooled connection is leased while another is asked for. -/
theorem keeps_accounts_closed : ∃ s, Run { maxPooled := 1 } s ∧
    (s.registry.pools.map fun q => (q.pool.leases, q.pool.entry.inUse, q.pool.entry.primaries)) =
      [([7], 1, 1)] ∧
    (s.opened.map fun x => (x.handles, x.isOpen)) = [(0, false), (1, true)] ∧
    (∀ q ∈ s.registry.pools, s.Exact q) ∧ ∀ e, s.permits e → s.saturates e = false := by
  have file : (!(⟨"a.db"⟩ : DatabasePath).isMemory) = true := by rw [isMemory_file]; rfl
  have same : (⟨"a.db"⟩ : DatabasePath).same ⟨"a.db"⟩ = true := beq_self_eq_true _
  have used := (@Run.new { maxPooled := 1 }).step (.entry ⟨"a.db"⟩) (by
    rw [permits, file]; rfl)
  have opening := (used.step (.within 0 .beginOpen) rfl).step (.within 0 .beginOpen) rfl
  have first := opening.step (.openedFile 0 ⟨"a.db"⟩) (by
    rw [permits, file]
    exact Bool.and_eq_true_iff.mpr ⟨rfl, Bool.and_eq_true_iff.mpr ⟨same, rfl⟩⟩)
  have second := first.step (.openedFile 0 ⟨"a.db"⟩) (by
    rw [permits, file]
    exact Bool.and_eq_true_iff.mpr ⟨rfl, Bool.and_eq_true_iff.mpr ⟨same, rfl⟩⟩)
  have cloned := second.step (.clone 0) rfl
  have closed := ((cloned.step (.close 0) rfl).step (.drop 0) rfl).step (.drop 0) rfl
  have granted := (closed.step (.within 0 .acquire) rfl).step (.within 0 .acquire) rfl
  have opened := (granted.step (.within 0 (.claim 0 fun _ => true)) rfl).step
    (.within 0 (.opened 0 7)) rfl
  have leased := opened.step (.within 0 (.lease 0 7)) rfl
  exact ⟨_, leased, rfl, rfl, Run.keeps_accounts leased⟩

end Accounts

end Registry

end ConnectionPool
