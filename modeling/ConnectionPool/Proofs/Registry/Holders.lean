import ConnectionPool.Proofs.Pool.Parts
import ConnectionPool.Proofs.Registry.Accounts

/-!
# One pool for a path

A registry forgets a pool that is pruned, and makes another one when the path is used
again.  If somebody still had business with the first pool, the path would have two, each
with a limit and a summary of its own.

`Holdings` puts beside a registry everybody who has a part in a pool, with the path and
the number of the pool it was begun with, and the pools that were pruned.  A step is taken
with the pool of that number, wherever it is.  A connection refers to its pool weakly: a
lease on a primary connection finds the pool if the registry has it or somebody keeps it.
A database in memory has no pool, and nothing is said about it.

`Run.never_split` says that whoever has a part in a pool has it in the one that the
registry has for the path, and that this pool counts them all.  One kind of lease is
outside of that: a primary connection that was closed can be leased after its pool was
pruned, and such a lease belongs to no pool, whatever was made for the path since
(`leased_after_prune`).
-/

namespace ConnectionPool

namespace Registry

/-- Somebody who has a part in a pool. -/
structure Holder where
  /-- The path it was begun with. -/
  path : DatabasePath
  /-- The number of the pool. -/
  pool : Nat
  /-- The part. -/
  part : Part
  deriving DecidableEq, Repr

namespace Holder

/-- The holder has the part in the pool. -/
def has (id : Nat) (x : Part) (h : Holder) : Bool := h.pool == id && h.part == x

/-- The holder has a lease. -/
def isLease (h : Holder) : Bool :=
  match h.part with
  | .lease _ | .primaryLease => true
  | _ => false

/-- The connection that the holder has leased from the pool. -/
def leased? (id : Nat) (h : Holder) : Option Nat :=
  match h.part with
  | .lease conn => if h.pool = id then some conn else none
  | _ => none

end Holder

/-- A registry, and everybody who has business with its pools. -/
structure Holdings where
  /-- The registry. -/
  registry : Registry
  /-- Those who have a part in a pool. -/
  holders : List Holder := []
  /-- Primary connections that were closed, with the number of the pool they refer to. -/
  closed : List (DatabasePath × Nat) := []
  /-- Leases that belong to no pool, with the path of the connection. -/
  late : List DatabasePath := []
  /-- The pools that were pruned. -/
  pruned : List RegisteredPool := []
  deriving DecidableEq, Repr

namespace Holdings

/-! ## Runs -/

/-- What happens to a registry and those who have business with its pools. -/
inductive Event where
  /-- A primary connection to a file is being opened. -/
  | beginOpen (path : DatabasePath)
  /-- A pooled connection to a file is asked for. -/
  | acquire (path : DatabasePath)
  /-- Somebody who has a part goes on. -/
  | act (h : Holder) (e : Pool.Event)
  /-- A primary connection is leased, which may have been closed. -/
  | leasePrimary (path : DatabasePath) (pool : Nat)
  /-- A lease that belongs to no pool is given back. -/
  | releaseLate (path : DatabasePath)
  /-- A primary connection that was closed is dropped. -/
  | forget (path : DatabasePath) (pool : Nat)
  /-- A lock retry, a timer or a shutdown takes a step with a pool. -/
  | within (id : Nat) (e : Pool.Event)
  /-- The registry is pruned. -/
  | prune

/-- The pool of a number, in the registry or pruned. -/
def pool? (s : Holdings) (id : Nat) : Option Pool :=
  ((s.registry.get? id).or (s.pruned.find? (·.id == id))).map (·.pool)

/-- The number leads to a pool: the registry has it, or somebody keeps it. -/
def isAlive (s : Holdings) (id : Nat) : Bool :=
  (s.registry.get? id).isSome || s.pruned.any fun q => q.id == id && q.pool.isHeld

/-- The event may happen. -/
def permits (s : Holdings) : Event → Bool
  | .beginOpen path => !path.isMemory
  | .acquire path => !path.isMemory
  | .act h e =>
    s.holders.contains h && h.part.mayTake e && (s.pool? h.pool).any (·.permits e)
  | .leasePrimary path pool =>
    s.holders.contains ⟨path, pool, .primary⟩ || s.closed.contains (path, pool)
  | .releaseLate path => s.late.contains path
  | .forget path pool => s.closed.contains (path, pool)
  | .within id e => !e.isPart && s.isAlive id && (s.pool? id).any (·.permits e)
  | .prune => true

/-- A step is taken with the pool of a number, in the registry or pruned. -/
def step (s : Holdings) (id : Nat) (e : Pool.Event) : Holdings :=
  { s with
    registry := s.registry.after (.within id e)
    pruned := s.pruned.map fun q => if q.id = id then { q with pool := q.pool.after e } else q }

/-- A step is taken with a pool, and the parts that begin with it are somebody's, besides
those that others keep. -/
def take (s : Holdings) (path : DatabasePath) (id : Nat) (e : Pool.Event)
    (others : List Holder) : Holdings :=
  let begun := (s.pool? id).elim [] (·.joins e)
  { s.step id e with holders := others ++ begun.map (⟨path, id, ·⟩) }

/-- The pool of a path is used, and made if it is missing. -/
def enter (s : Holdings) (path : DatabasePath) (e : Pool.Event) : Holdings :=
  let (registry, q) := s.registry.entry path
  { s with registry }.take path q.id e s.holders

/-- Those who have a part after somebody went on. -/
def others (s : Holdings) (h : Holder) (e : Pool.Event) : List Holder :=
  if (s.pool? h.pool).all fun p => (p.leaves e).isEmpty then s.holders else s.holders.erase h

/-- The holdings after an event. -/
def after (s : Holdings) : Event → Holdings
  | .beginOpen path => s.enter path .beginOpen
  | .acquire path => s.enter path .acquire
  | .act h e =>
    { s.take h.path h.pool e (s.others h e) with
      closed := if h.part = .primary then s.closed ++ [(h.path, h.pool)] else s.closed }
  | .leasePrimary path pool =>
    if s.isAlive pool then s.take path pool .leasePrimary s.holders
    else { s with late := s.late ++ [path] }
  | .releaseLate path => { s with late := s.late.erase path }
  | .forget path pool => { s with closed := s.closed.erase (path, pool) }
  | .within id e => s.step id e
  | .prune =>
    { s with
      registry := s.registry.after .prune
      pruned := s.pruned ++ s.registry.removed .prune }

/-- Holdings come about by events. -/
inductive Run (config : Config) : Holdings → Prop where
  /-- Nobody has used the registry. -/
  | new : Run config { registry := { config } }
  /-- One more event. -/
  | step {s : Holdings} (e : Event) : Run config s → s.permits e → Run config (s.after e)

end Holdings

/-! ## Pools by number and by path -/

section Lookup

variable {config : Config} {r : Registry} {q : RegisteredPool} {path : DatabasePath} {id : Nat}

theorem Sound.get?_of_mem (h : Sound config r) (mem : q ∈ r.pools) : r.get? q.id = some q :=
  h.ids.find?_eq mem

theorem Placed.get? (sound : Sound config r) (h : Placed r true path id) :
    ∃ q ∈ r.pools, r.get? id = some q ∧ q.id = id := by
  obtain ⟨q, mem, rfl⟩ := h.there rfl
  exact ⟨q, mem, sound.get?_of_mem mem, rfl⟩

theorem mem_of_find? (found : r.find? path = some q) : q ∈ r.pools ∧ q.path.same path :=
  ⟨List.mem_of_find?_eq_some found,
    List.find?_some (p := fun p : RegisteredPool => p.path.same path) found⟩

theorem Placed.find? (h : Placed r true path id) : ∃ q, r.find? path = some q ∧ q.id = id := by
  obtain ⟨p, mem, is⟩ := h.there rfl
  cases found : r.find? path with
  | none => exact absurd ((h.only p mem).mpr is) (by simpa using List.find?_eq_none.mp found p mem)
  | some q =>
      obtain ⟨hq, same⟩ := mem_of_find? found
      exact ⟨q, rfl, (h.only q hq).mp same⟩

theorem entry_mem (r : Registry) (path : DatabasePath) :
    (r.entry path).2 ∈ (r.entry path).1.pools ∧ (r.entry path).2.path.same path := by
  rw [entry]
  cases found : r.find? path with
  | some q => exact mem_of_find? found
  | none => exact ⟨List.mem_append_right _ List.mem_cons_self, beq_self_eq_true path.components⟩

end Lookup

/-! ## The invariant -/

namespace Holdings

variable {config : Config} {s : Holdings} {q : RegisteredPool} {path : DatabasePath} {id : Nat}
  {e : Pool.Event}

/-- Whoever has a part has it in the pool of the path, and the pool counts it. -/
structure Kept (config : Config) (s : Holdings) : Prop where
  /-- The pools are told apart and are reachable. -/
  sound : Registry.Sound config s.registry
  /-- A holder's number leads to the pool of the path. -/
  placed : ∀ h ∈ s.holders, Placed s.registry true h.path h.pool
  /-- A pool counts its holders. -/
  counted : ∀ q ∈ s.registry.pools, ∀ x, q.pool.number x = s.holders.countP (Holder.has q.id x)
  /-- What a closed connection refers to was the pool of the path, and if it is still there
  it is. -/
  closed : ∀ c ∈ s.closed, c.2 < s.registry.fresh ∧
    ∀ q ∈ s.registry.pools, q.id = c.2 → q.path.same c.1
  /-- The numbers of pruned pools were given out. -/
  pruned_lt : ∀ q ∈ s.pruned, q.id < s.registry.fresh
  /-- They are no others' numbers. -/
  pruned_ne : ∀ q ∈ s.pruned, ∀ q' ∈ s.registry.pools, q'.id ≠ q.id
  /-- Nobody needed them. -/
  unneeded : ∀ q ∈ s.pruned, isNeeded q = false

theorem countP_new (path : DatabasePath) (id other : Nat) (x : Part) (parts : List Part) :
    (parts.map (⟨path, id, ·⟩)).countP (Holder.has other x) =
      if other = id then parts.count x else 0 := by
  rw [List.countP_map, List.count]
  split
  · next is =>
      subst is
      simp [Holder.has, Function.comp_def]
  · next ne => simp [Holder.has, Function.comp_def, Ne.symm ne]

namespace Kept

theorem new (config : Config) : Kept config { registry := { config } } where
  sound := .new config
  placed := by intro h mem; cases mem
  counted := by intro q mem; cases mem
  closed := by intro c mem; cases mem
  pruned_lt := by intro q mem; cases mem
  pruned_ne := by intro q mem; cases mem
  unneeded := by intro q mem; cases mem

theorem pool?_eq (found : s.registry.get? id = some q) : s.pool? id = some q.pool := by
  rw [pool?, found]
  rfl

/-- A number that leads to a pool leads to one of the registry's. -/
theorem get?_of_alive (h : Kept config s) (alive : s.isAlive id) :
    ∃ q, s.registry.get? id = some q := by
  rcases Bool.or_eq_true_iff.mp alive with there | kept
  · exact Option.isSome_iff_exists.mp there
  · obtain ⟨q, mem, is⟩ := List.any_eq_true.mp kept
    have unneeded := h.unneeded q mem
    rw [isNeeded, (Bool.and_eq_true_iff.mp is).2] at unneeded
    cases unneeded

/-- A step with a pool of the registry, after which the holders are those who had a part,
without the parts that end and with those that begin. -/
theorem step (h : Kept config s) (found : s.registry.get? id = some q)
    (permitted : q.pool.permits e) (there : ∀ x ∈ q.pool.leaves e, 0 < q.pool.number x)
    (holders : List Holder) (placed : ∀ g ∈ holders, Placed s.registry true g.path g.pool)
    (counts : ∀ other x, holders.countP (Holder.has other x) +
      (if other = id then (q.pool.leaves e).count x else 0) =
        s.holders.countP (Holder.has other x) +
          if other = id then (q.pool.joins e).count x else 0) :
    Kept config { s.step id e with holders } := by
  obtain ⟨mem, rfl⟩ := mem_of_find?_key found
  have sound := h.sound.within q.id e (by rw [Registry.permits, found]; exact permitted)
  have others : ∀ p ∈ s.pruned, p.id ≠ q.id := fun p hp is => h.pruned_ne p hp q mem is.symm
  have pruned : (s.step q.id e).pruned = s.pruned := replaceKey_of_ne others
  exact {
    sound
    placed := fun g hg => (placed g hg).within h.sound q.id e
    counted := by
      intro q' mem' x
      obtain ⟨p, hp, id, -, pool⟩ := h.sound.mem_within mem'
      have counts := counts q'.id x
      have before := h.counted p hp x
      rw [← id] at before pool
      rw [pool]
      by_cases is : q'.id = q.id
      · have same : p = q := h.sound.ids.eq_of_mem hp mem (id.symm.trans is)
        have after := Pool.number_after (h.sound.reachable q mem).slots permitted there x
        rw [if_pos is] at counts ⊢
        rw [if_pos is] at counts
        rw [same] at before ⊢
        show (q.pool.after e).number x = holders.countP _
        omega
      · rw [if_neg is] at counts ⊢
        rw [if_neg is] at counts
        show p.pool.number x = holders.countP _
        omega
    closed := by
      intro c hc
      obtain ⟨lt, same⟩ := h.closed c hc
      refine ⟨fresh_within.symm ▸ lt, ?_⟩
      intro q' mem' is
      obtain ⟨p, hp, id, path, -⟩ := h.sound.mem_within mem'
      exact path ▸ same p hp (id ▸ is)
    pruned_lt := by
      intro p hp
      rw [pruned] at hp
      show p.id < (s.registry.after (.within q.id e)).fresh
      rw [fresh_within]
      exact h.pruned_lt p hp
    pruned_ne := by
      intro p hp q' mem'
      rw [pruned] at hp
      obtain ⟨p', hp', id, -, -⟩ := h.sound.mem_within mem'
      exact id ▸ h.pruned_ne p hp p' hp'
    unneeded := fun p hp => h.unneeded p (pruned ▸ hp) }

theorem take (h : Kept config s) (placed : Placed s.registry true path id)
    (found : s.registry.get? id = some q) (permitted : q.pool.permits e)
    (there : ∀ x ∈ q.pool.leaves e, 0 < q.pool.number x) {others : List Holder}
    (sub : ∀ g ∈ others, g ∈ s.holders)
    (counts : ∀ other x, others.countP (Holder.has other x) +
      (if other = id then (q.pool.leaves e).count x else 0) =
        s.holders.countP (Holder.has other x)) : Kept config (s.take path id e others) := by
  rw [Holdings.take, pool?_eq found]
  refine h.step found permitted there _ ?_ ?_
  · intro g mem
    rcases List.mem_append.mp mem with mem | mem
    · exact h.placed g (sub g mem)
    · obtain ⟨x, -, rfl⟩ := List.mem_map.mp mem
      exact placed
  · intro other x
    have counts := counts other x
    rw [List.countP_append]
    show _ + ((q.pool.joins e).map (⟨path, id, ·⟩)).countP (Holder.has other x) + _ = _
    rw [countP_new]
    omega

/-! ### Events -/

theorem entry (h : Kept config s) (path : DatabasePath) :
    Kept config { s with registry := (s.registry.entry path).1 } := by
  have sound := h.sound.entry path
  have placed : ∀ g ∈ s.holders, Placed (s.registry.entry path).1 true g.path g.pool :=
    fun g mem => (h.placed g mem).entry path
  rw [Registry.entry] at sound placed ⊢
  cases found : s.registry.find? path with
  | some q => exact { h with }
  | none =>
      rw [found] at sound placed
      exact {
        sound
        placed
        counted := by
          intro q mem x
          rcases List.mem_append.mp mem with mem | mem
          · exact h.counted q mem x
          · -- Nobody has the number of a new pool.
            have nobody : s.holders.countP (Holder.has s.registry.fresh x) = 0 := by
              rw [List.countP_eq_zero]
              intro g mem has
              have is : g.pool = s.registry.fresh := beq_iff_eq.mp (Bool.and_eq_true_iff.mp has).1
              exact Nat.ne_of_lt (h.placed g mem).lt is
            rw [List.mem_singleton.mp mem]
            refine Eq.trans ?_ nobody.symm
            cases x <;> rfl
        closed := by
          intro c hc
          obtain ⟨lt, same⟩ := h.closed c hc
          refine ⟨Nat.lt_succ_of_lt lt, ?_⟩
          intro q mem is
          rcases List.mem_append.mp mem with mem | mem
          · exact same q mem is
          · rw [List.mem_singleton.mp mem] at is
            exact absurd lt (Nat.not_lt_of_ge (Nat.le_of_eq is))
        pruned_lt := fun q mem => Nat.lt_succ_of_lt (h.pruned_lt q mem)
        pruned_ne := by
          intro q mem q' mem'
          rcases List.mem_append.mp mem' with mem' | mem'
          · exact h.pruned_ne q mem q' mem'
          · rw [List.mem_singleton.mp mem']
            exact Nat.ne_of_gt (h.pruned_lt q mem)
        unneeded := h.unneeded }

/-- A path is used with a step that begins a part. -/
theorem enter (h : Kept config s) (path : DatabasePath) {e : Pool.Event}
    (permitted : ∀ p : Pool, p.permits e) (begins : ∀ p : Pool, p.leaves e = []) :
    Kept config (s.enter path e) := by
  have entered := h.entry path
  obtain ⟨mem, same⟩ := s.registry.entry_mem path
  refine entered.take (Placed.of_mem entered.sound mem same) (entered.sound.get?_of_mem mem)
    (permitted _) ?_ (fun g hg => hg) ?_
  · intro x ends
    rw [begins] at ends
    cases ends
  · intro other x
    rw [begins]
    split <;> rfl

theorem others_eq (found : s.registry.get? id = some q) {h : Holder} (is : h.pool = id) :
    s.others h e = if (q.pool.leaves e).isEmpty then s.holders else s.holders.erase h := by
  rw [others, is, pool?_eq found]
  rfl

theorem act (h : Kept config s) {g : Holder} (holds : g ∈ s.holders) (may : g.part.mayTake e)
    (found : s.registry.get? g.pool = some q) (permitted : q.pool.permits e) :
    Kept config (s.take g.path g.pool e (s.others g e)) := by
  obtain ⟨mem, is⟩ := mem_of_find?_key found
  have has : g.has q.id g.part := by simp [Holder.has, is]
  have counts : 0 < q.pool.number g.part := by
    rw [h.counted q mem]
    exact List.countP_pos_iff.mpr ⟨g, holds, has⟩
  refine h.take (h.placed g holds) found permitted ?_ ?_ ?_
  · intro x ends
    rcases Pool.leaves_of_mayTake (p := q.pool) may with none | one
    · rw [none] at ends
      cases ends
    · rw [one] at ends
      rwa [List.mem_singleton.mp ends]
  · intro k hk
    rw [others_eq found rfl] at hk
    split at hk
    · exact hk
    · exact List.mem_of_mem_erase hk
  · intro other x
    rw [others_eq found rfl]
    rcases Pool.leaves_of_mayTake (p := q.pool) may with none | one
    · rw [none]
      show s.holders.countP _ + (if other = g.pool then 0 else 0) = _
      split <;> rfl
    · have erased := (List.perm_cons_erase holds).countP_eq (Holder.has other x)
      rw [List.countP_cons] at erased
      have same : (if Holder.has other x g then 1 else 0) =
          if other = g.pool then [g.part].count x else 0 := by
        by_cases here : other = g.pool
        · simp [Holder.has, here, List.count_singleton]
        · simp [Holder.has, here, Ne.symm here]
      rw [one, erased, same]
      rfl

theorem leasePrimary (h : Kept config s) {pool : Nat} (placed : Placed s.registry true path pool)
    (found : s.registry.get? pool = some q) :
    Kept config (s.take path pool .leasePrimary s.holders) := by
  refine h.take placed found rfl ?_ (fun g hg => hg) ?_
  · intro x ends
    cases ends
  · intro other x
    show _ + (if other = pool then 0 else 0) = _
    split <;> rfl

theorem within (h : Kept config s) (other : e.isPart = false)
    (found : s.registry.get? id = some q) (permitted : q.pool.permits e) :
    Kept config (s.step id e) := by
  have none : q.pool.leaves e = [] ∧ q.pool.joins e = [] := by
    cases e <;> first | exact ⟨rfl, rfl⟩ | cases other
  refine h.step found permitted ?_ s.holders h.placed ?_
  · rw [none.1]
    intro x ends
    cases ends
  · intro other x
    rw [none.1, none.2]

/-- A primary connection is closed, and goes on to refer to its pool. -/
theorem refer (h : Kept config s) {g : Holder} (holds : g ∈ s.holders) :
    ∀ c ∈ (if g.part = .primary then s.closed ++ [(g.path, g.pool)] else s.closed),
      c.2 < s.registry.fresh ∧ ∀ q ∈ s.registry.pools, q.id = c.2 → q.path.same c.1 := by
  intro c hc
  split at hc
  · rcases List.mem_append.mp hc with hc | hc
    · exact h.closed c hc
    · rw [List.mem_singleton.mp hc]
      have placed := h.placed g holds
      exact ⟨placed.lt, fun q mem => (placed.only q mem).mpr⟩
  · exact h.closed c hc

/-- The pool of somebody who has a part stays. -/
theorem needed (h : Kept config s) {g : Holder} (holds : g ∈ s.holders)
    (mem : q ∈ s.registry.pools) (is : q.id = g.pool) : isNeeded q := by
  apply Pool.needed_of_number (x := g.part)
  rw [h.counted q mem]
  exact List.countP_pos_iff.mpr ⟨g, holds, by simp [Holder.has, is]⟩

theorem prune (h : Kept config s) : Kept config (s.after .prune) where
  sound := h.sound.prune
  placed := fun g holds =>
    (h.placed g holds).filter fun _ => ⟨rfl, fun _ mem is => h.needed holds mem is⟩
  counted := fun q mem => h.counted q (List.mem_filter.mp mem).1
  closed := by
    intro c hc
    obtain ⟨lt, same⟩ := h.closed c hc
    exact ⟨lt, fun q mem => same q (List.mem_filter.mp mem).1⟩
  pruned_lt := by
    intro q mem
    rcases List.mem_append.mp mem with mem | mem
    · exact h.pruned_lt q mem
    · exact h.sound.id_lt q (List.mem_filter.mp mem).1
  pruned_ne := by
    intro q mem q' mem'
    obtain ⟨mem', needed⟩ := List.mem_filter.mp mem'
    rcases List.mem_append.mp mem with mem | mem
    · exact h.pruned_ne q mem q' mem'
    · obtain ⟨mem, unneeded⟩ := List.mem_filter.mp mem
      intro same
      rw [h.sound.ids.eq_of_mem mem' mem same] at needed
      rw [needed] at unneeded
      cases unneeded
  unneeded := by
    intro q mem
    rcases List.mem_append.mp mem with mem | mem
    · exact h.unneeded q mem
    · simpa using (List.mem_filter.mp mem).2

theorem pool?_permits (found : s.registry.get? id = some q)
    (permitted : (s.pool? id).any (·.permits e)) : q.pool.permits e := by
  rw [pool?_eq found] at permitted
  exact permitted

/-- Every event keeps the invariant. -/
theorem after (h : Kept config s) (e : Event) (permitted : s.permits e) :
    Kept config (s.after e) := by
  cases e with
  | beginOpen path => exact h.enter path (fun _ => rfl) fun _ => rfl
  | acquire path => exact h.enter path (fun _ => rfl) fun _ => rfl
  | act g e =>
      obtain ⟨holds, permitted⟩ := Bool.and_eq_true_iff.mp permitted
      obtain ⟨holds, may⟩ := Bool.and_eq_true_iff.mp holds
      have holds := List.contains_iff_mem.mp holds
      obtain ⟨q, -, found, -⟩ := (h.placed g holds).get? h.sound
      have referred : Kept config { s with
          closed := if g.part = .primary then s.closed ++ [(g.path, g.pool)] else s.closed } :=
        { h with closed := h.refer holds }
      exact referred.act holds may found (pool?_permits found permitted)
  | leasePrimary path pool =>
      rw [Holdings.after]
      split
      · next alive =>
          obtain ⟨q, found⟩ := h.get?_of_alive alive
          rcases Bool.or_eq_true_iff.mp permitted with holds | closed
          · have placed := h.placed _ (List.contains_iff_mem.mp holds)
            exact h.leasePrimary placed found
          · obtain ⟨mem, is⟩ := mem_of_find?_key found
            have same := (h.closed _ (List.contains_iff_mem.mp closed)).2 q mem is
            exact h.leasePrimary (is ▸ Placed.of_mem h.sound mem same) found
      · exact { h with }
  | releaseLate path => exact { h with }
  | forget path pool => exact { h with closed := fun c hc => h.closed c (List.mem_of_mem_erase hc) }
  | within id e =>
      obtain ⟨other, permitted⟩ := Bool.and_eq_true_iff.mp permitted
      obtain ⟨other, alive⟩ := Bool.and_eq_true_iff.mp other
      obtain ⟨q, found⟩ := h.get?_of_alive alive
      exact h.within (by simpa using other) found (pool?_permits found permitted)
  | prune => exact h.prune

end Kept

theorem Run.kept (run : Run config s) : Kept config s := by
  induction run with
  | new => exact .new config
  | step e _ permitted ih => exact ih.after e permitted

/-! ## The pool of a path -/

/-- How many have such a part in the pool of a path. -/
def count (s : Holdings) (path : DatabasePath) (part : Part → Bool) : Nat :=
  s.holders.countP fun h => path.same h.path && part h.part

/-- The pools that the leases on connections to a path belong to, as far as they do. -/
def leasePools (s : Holdings) (path : DatabasePath) : List (Option Nat) :=
  (s.holders.filter fun h => path.same h.path && h.isLease).map (fun h => some h.pool) ++
    (s.late.filter path.same).map fun _ => none

/-- The part is a lease of a pooled connection. -/
def isPooled : Part → Bool
  | .lease _ => true
  | _ => false

/-- The acquisitions for a pool that have a slot. -/
def granted (q : RegisteredPool) : Nat := q.pool.acquisitions.countP Acquisition.hasSlot

/-- A path has one pool, and everybody's part is in it. -/
structure Whole (config : Config) (s : Holdings) : Prop where
  /-- Whoever has a part has it in the pool that the registry has for the path. -/
  current : ∀ h ∈ s.holders, ∃ q, s.registry.find? h.path = some q ∧ q.id = h.pool
  /-- So its number leads there, and a lease on an open primary connection does not come late. -/
  alive : ∀ h ∈ s.holders, s.isAlive h.pool
  /-- There is one pool for a path, with all idle connections and all waiters. -/
  single : ∀ q ∈ s.registry.pools, ∀ q' ∈ s.registry.pools, q.path.same q'.path → q = q'
  /-- Nobody keeps a pool that was pruned, nobody has a part in it, and its books are empty. -/
  pruned : ∀ q ∈ s.pruned, q.pool.isHeld = false ∧ q.pool.entry.isUnused ∧
    ∀ h ∈ s.holders, h.pool ≠ q.id
  /-- The pool of a path counts everybody. -/
  counted : ∀ path q, s.registry.find? path = some q →
    ∀ x, q.pool.number x = s.count path (· == x)
  /-- The limit is one for all leases and all acquisitions with a slot. -/
  limited : ∀ path q, s.registry.find? path = some q →
    s.count path isPooled + granted q ≤ max 1 config.maxPooled
  /-- So is the summary. -/
  summed : ∀ path q, s.registry.find? path = some q → s.registry.stats path =
    some ⟨s.count path (· == .primary), s.count path isPooled + granted q,
      q.pool.entry.idle.length, q.pool.entry.waiters.countP (·.live)⟩

namespace Kept

/-- A holder's number is that of the pool of a path if the path is the holder's. -/
theorem pool_eq_iff (h : Kept config s) (found : s.registry.find? path = some q) {g : Holder}
    (holds : g ∈ s.holders) : g.pool = q.id ↔ path.same g.path := by
  obtain ⟨mem, same⟩ := mem_of_find? found
  rw [eq_comm, ← (h.placed g holds).only q mem]
  have same : q.path.components = path.components := beq_iff_eq.mp same
  simp only [DatabasePath.same, same]

theorem count_eq (h : Kept config s) (found : s.registry.find? path = some q)
    (part : Part → Bool) :
    s.count path part = s.holders.countP fun g => g.pool == q.id && part g.part := by
  apply List.countP_congr
  intro g holds
  simp only [Bool.and_eq_true, beq_iff_eq, h.pool_eq_iff found holds]

/-- The leases of pooled connections are those of the holders. -/
theorem leases_length (h : Kept config s) (found : s.registry.find? path = some q) :
    q.pool.leases.length = s.count path isPooled := by
  have mem := (mem_of_find? found).1
  have perm : q.pool.leases.Perm (s.holders.filterMap (Holder.leased? q.id)) := by
    rw [List.perm_iff_count]
    intro conn
    rw [List.count_filterMap]
    refine (h.counted q mem (.lease conn)).trans (List.countP_congr ?_)
    intro g _
    obtain ⟨path, pool, part⟩ := g
    cases part with
    | lease other => simp [Holder.has, Holder.leased?]
    | _ => simp [Holder.has, Holder.leased?]
  rw [perm.length_eq, h.count_eq found, List.length_filterMap_eq_countP]
  apply List.countP_congr
  intro g _
  obtain ⟨path, pool, part⟩ := g
  cases part with
  | lease other => simp [Holder.leased?, isPooled]
  | _ => simp [Holder.leased?, isPooled]

theorem inUse_eq (h : Kept config s) (found : s.registry.find? path = some q) :
    q.pool.entry.inUse = s.count path isPooled + granted q := by
  have slots := (h.sound.reachable q (mem_of_find? found).1).slots
  rw [← h.leases_length found, Nat.add_comm]
  exact slots.inUse_eq

end Kept

/-- A primary connection to a file is opened, with the first pool of a registry. -/
theorem Run.opened (config : Config) : Run config
    { registry := { config, fresh := 1, pools := [⟨0, ⟨"a.db"⟩,
        { entry := { limit := config.limit, primaries := 1 } }⟩] }
      holders := [⟨⟨"a.db"⟩, 0, .primary⟩] } := by
  have opening := (@Run.new config).step (.beginOpen ⟨"a.db"⟩) (by
    rw [permits, Accounts.isMemory_file]; rfl)
  exact opening.step (.act ⟨⟨"a.db"⟩, 0, .opening⟩ (.endOpen true)) rfl

/-- However a registry came about, pruning never leaves a path with two pools: whoever has a
part in the pool of a path has it in the one that the registry has, and this pool counts them
all. -/
theorem Run.never_split (run : Run config s) : Whole config s where
  current := fun _ holds => (run.kept.placed _ holds).find?
  alive := by
    intro h holds
    obtain ⟨q, -, found, -⟩ := (run.kept.placed h holds).get? run.kept.sound
    rw [isAlive, found]
    rfl
  single := fun _ mem _ mem' same => run.kept.sound.paths.eq_of_mem mem mem' (beq_iff_eq.mp same)
  pruned := by
    intro q mem
    have unneeded := run.kept.unneeded q mem
    simp only [isNeeded, Bool.or_eq_false_iff, Bool.not_eq_false'] at unneeded
    refine ⟨unneeded.1, unneeded.2, ?_⟩
    intro h holds is
    obtain ⟨p, hp, -, same⟩ := (run.kept.placed h holds).get? run.kept.sound
    exact run.kept.pruned_ne q mem p hp (same.trans is)
  counted := by
    intro path q found x
    rw [run.kept.count_eq found]
    exact run.kept.counted q (mem_of_find? found).1 x
  limited := by
    intro path q found
    rw [← run.kept.inUse_eq found]
    exact (run.kept.sound.reachable q (mem_of_find? found).1).slots.inUse_le
  summed := by
    intro path q found
    have primaries : q.pool.entry.primaries = s.count path (· == .primary) := by
      rw [run.kept.count_eq found]
      exact run.kept.counted q (mem_of_find? found).1 .primary
    rw [stats, found, ← primaries, ← run.kept.inUse_eq found]
    rfl

/-- The only primary connection to a file is leased and then closed.  The lease keeps the pool
when the registry is pruned. -/
theorem never_split_leased : ∃ s, Run { maxPooled := 1 } s ∧
    s.holders = [⟨⟨"a.db"⟩, 0, .primaryLease⟩] ∧ s.closed = [(⟨"a.db"⟩, 0)] ∧
      s.registry.pools.map (·.id) = [0] ∧ Whole { maxPooled := 1 } s := by
  have leased := (Run.opened { maxPooled := 1 }).step (.leasePrimary ⟨"a.db"⟩ 0) rfl
  have closed := leased.step (.act ⟨⟨"a.db"⟩, 0, .primary⟩ .closePrimary) rfl
  have pruned := closed.step .prune rfl
  exact ⟨_, pruned, rfl, rfl, rfl, pruned.never_split⟩

/-- The only primary connection to a file is closed, its pool is pruned, and the file is
opened again. -/
theorem Run.reopened (config : Config) : ∃ s, Run config s ∧
    s.holders = [⟨⟨"a.db"⟩, 1, .opening⟩] ∧ s.closed = [(⟨"a.db"⟩, 0)] ∧ s.late = [] ∧
      s.pruned.map (·.id) = [0] ∧ s.isAlive 0 = false := by
  have closed := (Run.opened config).step (.act ⟨⟨"a.db"⟩, 0, .primary⟩ .closePrimary) rfl
  have pruned := closed.step .prune rfl
  have opening := pruned.step (.beginOpen ⟨"a.db"⟩) (by rw [permits, Accounts.isMemory_file]; rfl)
  exact ⟨_, opening, rfl, rfl, rfl, rfl, rfl⟩

/-- A primary connection that was closed is leased after its pool was pruned.  The lease
belongs to no pool, although the registry has one for the path again. -/
theorem leased_after_prune : ¬ ∀ s, Run {} s → ∀ path, ∀ pool ∈ s.leasePools path,
    pool = (s.registry.find? path).map (·.id) := by
  intro claim
  obtain ⟨s, run, holders, closed, late, -, gone⟩ := Run.reopened {}
  have leased := run.step (.leasePrimary ⟨"a.db"⟩ 0) (by
    rw [permits, closed]
    exact Bool.or_eq_true_iff.mpr (.inr (List.contains_iff_mem.mpr List.mem_cons_self)))
  have none := claim _ leased ⟨"a.db"⟩ none (by
    have same : (⟨"a.db"⟩ : DatabasePath).same ⟨"a.db"⟩ = true := beq_self_eq_true _
    simp [after, gone, leasePools, late, same])
  have placed := run.kept.placed ⟨⟨"a.db"⟩, 1, .opening⟩ (by rw [holders]; exact List.mem_cons_self)
  obtain ⟨q, found, -⟩ := placed.find?
  have there : (s.after (.leasePrimary ⟨"a.db"⟩ 0)).registry.find? ⟨"a.db"⟩ = some q := by
    rw [after, gone]
    exact found
  rw [there] at none
  cases none

end Holdings

end Registry

end ConnectionPool
