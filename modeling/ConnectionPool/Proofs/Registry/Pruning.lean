import ConnectionPool.Proofs.Pool.Line
import ConnectionPool.Proofs.Registry.Accounts

/-!
# What pruning leaves behind

A registry removes the pools that nobody holds and whose books are empty.  The books are
not empty while a place is left in the queue, and a place whose owner is gone stays there
until a step comes past it.  In the summary of a pool such a place does not count.

A `Residue` keeps beside a registry the places that were given up: by acquisitions that
were abandoned, and by lock retries that timed out or were cancelled.  Whatever is dead in
a queue is one of them (`Marked`).  So `Run.prune_eq` says which pools are removed: those
that nobody holds, whose summary is zero and in whose queue nothing is left of what was
given up.
-/

namespace ConnectionPool

namespace Registry

/-- Nobody holds the pool, and its summary is zero. -/
def isIdle (q : RegisteredPool) : Bool :=
  !q.pool.isHeld && q.pool.entry.stats == ⟨0, 0, 0, 0⟩

/-- The places that an event gives up, with the number of the pool. -/
def givesUp (r : Registry) : Event → List (Nat × Nat)
  | .within id e => ((r.get? id).bind (·.pool.givesUp e)).toList.map (id, ·)
  | _ => []

/-- A registry, and the places in its queues that were given up. -/
structure Residue where
  /-- The registry. -/
  registry : Registry
  /-- The places: the number of the pool, and the ticket. -/
  givenUp : List (Nat × Nat) := []
  deriving DecidableEq, Repr

namespace Residue

/-- The residue after an event. -/
def after (s : Residue) (e : Event) : Residue :=
  ⟨s.registry.after e, s.givenUp ++ s.registry.givesUp e⟩

/-- A residue comes about by events. -/
inductive Run (config : Config) : Residue → Prop where
  /-- Nobody has used the registry. -/
  | new : Run config { registry := { config } }
  /-- One more event. -/
  | step {s : Residue} (e : Event) : Run config s → s.registry.permits e → Run config (s.after e)

/-- Nothing that was given up is left in the queue of the pool. -/
def isClear (s : Residue) (q : RegisteredPool) : Bool :=
  s.givenUp.all fun place => place.1 != q.id || !q.pool.queued place.2

/-! ## Dead places -/

variable {config : Config} {s : Residue} {q : RegisteredPool}

/-- Every dead place was given up. -/
structure Marked (config : Config) (s : Residue) : Prop where
  /-- The pools are told apart and are reachable. -/
  sound : Sound config s.registry
  /-- Whatever is dead in a queue was given up. -/
  dead : ∀ q ∈ s.registry.pools, ∀ w ∈ q.pool.entry.waiters, w.live = false →
    (q.id, w.ticket) ∈ s.givenUp

namespace Marked

theorem new (config : Config) : Marked config { registry := { config } } where
  sound := .new config
  dead := by intro q mem; cases mem

theorem entry (h : Marked config s) (path : DatabasePath) :
    Marked config (s.after (.entry path)) where
  sound := h.sound.entry path
  dead := by
    intro q mem w hw gone
    refine List.mem_append_left _ ?_
    have pools : (s.registry.after (.entry path)).pools =
        (s.registry.entry path).1.pools := rfl
    rw [after, pools, Registry.entry] at mem
    split at mem
    · exact h.dead q mem w hw gone
    · rcases List.mem_append.mp mem with mem | mem
      · exact h.dead q mem w hw gone
      · rw [List.mem_singleton.mp mem] at hw
        cases hw

theorem within (h : Marked config s) {id : Nat} {e : Pool.Event}
    (permitted : s.registry.permits (.within id e)) : Marked config (s.after (.within id e)) where
  sound := h.sound.within id e permitted
  dead := by
    intro q' mem w hw gone
    obtain ⟨q, hq, is, -, pool⟩ := h.sound.mem_within mem
    rw [pool] at hw
    rw [is]
    refine List.mem_append.mpr ?_
    split at hw
    · next same =>
        have found : s.registry.get? id = some q := same ▸ h.sound.ids.find?_eq hq
        rw [permits, found] at permitted
        refine (Pool.dead_after permitted hw gone).imp ?_ fun gives => ?_
        · exact fun old => h.dead q hq w old.1 old.2
        · rw [Registry.givesUp, found, Option.bind_some, gives, same]
          exact List.mem_singleton_self _
    · exact .inl (h.dead q hq w hw gone)

theorem prune (h : Marked config s) : Marked config (s.after .prune) where
  sound := h.sound.prune
  dead := fun q mem w hw gone =>
    List.mem_append_left _ (h.dead q (List.mem_filter.mp mem).1 w hw gone)

theorem after (h : Marked config s) {e : Event} (permitted : s.registry.permits e) :
    Marked config (s.after e) := by
  cases e with
  | entry path => exact h.entry path
  | within id e => exact h.within permitted
  | prune => exact h.prune

/-- The books of a pool are empty if its summary is zero and nothing is left in its queue. -/
theorem isUnused_eq (h : Marked config s) (mem : q ∈ s.registry.pools) :
    q.pool.entry.isUnused = (q.pool.entry.stats == ⟨0, 0, 0, 0⟩ && s.isClear q) := by
  rw [Bool.eq_iff_iff]
  have unused : q.pool.entry.isUnused ↔ q.pool.entry.primaries = 0 ∧ q.pool.entry.inUse = 0 ∧
      q.pool.entry.idle = [] ∧ q.pool.entry.waiters = [] := by
    simp [Entry.isUnused, and_assoc]
  have zero : q.pool.entry.stats == ⟨0, 0, 0, 0⟩ ↔ q.pool.entry.primaries = 0 ∧
      q.pool.entry.inUse = 0 ∧ q.pool.entry.idle = [] ∧
        ∀ w ∈ q.pool.entry.waiters, w.live = false := by
    simp [Entry.stats, List.countP_eq_zero]
  have clear : s.isClear q ↔ ∀ t, (q.id, t) ∈ s.givenUp → q.pool.queued t = false := by
    simp only [isClear, List.all_eq_true, Bool.or_eq_true, bne_iff_ne, Bool.not_eq_true']
    constructor
    · exact fun all t place => (all _ place).resolve_left fun ne => ne rfl
    · rintro all ⟨id, t⟩ place
      by_cases is : id = q.id
      · exact .inr (all t (is ▸ place))
      · exact .inl is
  rw [Bool.and_eq_true, unused, zero, clear]
  constructor
  · rintro ⟨primaries, inUse, idle, waiters⟩
    refine ⟨⟨primaries, inUse, idle, ?_⟩, ?_⟩
    · simp [waiters]
    · simp [Pool.queued, waiters]
  · rintro ⟨⟨primaries, inUse, idle, dead⟩, clear⟩
    refine ⟨primaries, inUse, idle, ?_⟩
    -- a place that is left is dead, so it was given up, and nothing of that is left
    refine List.eq_nil_iff_forall_not_mem.mpr fun w hw => ?_
    have gone := clear w.ticket (h.dead q mem w hw (dead w hw))
    rw [Pool.queued_iff.mpr (List.mem_map_of_mem hw)] at gone
    cases gone

theorem isNeeded_eq (h : Marked config s) (mem : q ∈ s.registry.pools) :
    isNeeded q = !(isIdle q && s.isClear q) := by
  simp only [isNeeded, isIdle, h.isUnused_eq mem, Bool.and_assoc, Bool.not_and, Bool.not_not]

end Marked

theorem Run.marked (run : Run config s) : Marked config s := by
  induction run with
  | new => exact .new config
  | step e _ permitted ih => exact ih.after permitted

/-! ## Pruning -/

/-- However a registry was used, pruning removes the pools that nobody holds, whose summary is
zero and in whose queue nothing is left of what was given up.  It counts them, and leaves
everything else as it is. -/
theorem Run.prune_eq (run : Run config s) : s.registry.prune =
    ({ s.registry with pools := s.registry.pools.filter fun q => !(isIdle q && s.isClear q) },
      s.registry.pools.countP fun q => isIdle q && s.isClear q) := by
  have kept : s.registry.pools.filter isNeeded =
      s.registry.pools.filter fun q => !(isIdle q && s.isClear q) :=
    List.filter_congr fun q mem => run.marked.isNeeded_eq mem
  have parts := List.length_eq_countP_add_countP (fun q => isIdle q && s.isClear q)
    (l := s.registry.pools)
  have left : s.registry.pools.countP (fun q => ¬(isIdle q && s.isClear q) = true) =
      (s.registry.pools.filter fun q => !(isIdle q && s.isClear q)).length := by
    rw [List.countP_eq_length_filter]
    simp
  rw [prune, kept]
  refine Prod.ext rfl ?_
  show s.registry.pools.length - _ = _
  omega

/-- An operation on one of two primary connections was parked, and nobody woke it before its
time was over. -/
def timedOut : Residue where
  registry := { config := {}, fresh := 1, pools := [⟨0, ⟨"a.db"⟩,
    { entry := { limit := 5, primaries := 2, waiters := [⟨1, .retry, false⟩] }, fresh := 2 }⟩] }
  givenUp := [(0, 1)]

theorem timedOut_run : Run {} timedOut := by
  have used := (@Run.new {}).step (.entry ⟨"a.db"⟩) rfl
  have first := (used.step (.within 0 .beginOpen) rfl).step (.within 0 (.endOpen true)) rfl
  have second := (first.step (.within 0 .beginOpen) rfl).step (.within 0 (.endOpen true)) rfl
  have parked := (second.step (.within 0 .beginRetries) rfl).step (.within 0 (.park 0 false)) rfl
  have resumed := parked.step (.within 0 (.resume 0)) rfl
  exact resumed.step (.within 0 (.endRetries 0)) rfl

/-- A lease is given back and comes past the place of the operation.  Then both connections
are closed, and the pool is removed. -/
theorem prune_eq_swept : ∃ s, Run {} s ∧ s.givenUp = [(0, 1)] ∧ s.registry.pools.length = 1 ∧
    s.registry.prune = ({ s.registry with pools := [] }, 1) := by
  have leased := timedOut_run.step (.within 0 .leasePrimary) rfl
  have swept := leased.step (.within 0 .releasePrimary) rfl
  have closed := (swept.step (.within 0 .closePrimary) rfl).step (.within 0 .closePrimary) rfl
  exact ⟨_, closed, rfl, rfl, closed.prune_eq⟩

/-- Both connections are closed while the place is left.  Nobody holds the pool, its summary
is zero, and pruning leaves it. -/
theorem abandoned_not_pruned : ¬∀ s, Run {} s → s.registry.prune =
    ({ s.registry with pools := s.registry.pools.filter (!isIdle ·) },
      s.registry.pools.countP isIdle) := by
  intro claim
  have closed := (timedOut_run.step (.within 0 .closePrimary) rfl).step
    (.within 0 .closePrimary) rfl
  have counted : (0 : Nat) = 1 := congrArg Prod.snd (claim _ closed)
  cases counted

end Residue

end Registry

end ConnectionPool
