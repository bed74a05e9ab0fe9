import Mathlib.Algebra.GroupWithZero.Nat
import ConnectionPool.Proofs.Pool.Slots
import ConnectionPool.Registry

/-!
# The limit of a path

A registry makes a pool when a path is used first, lets its pools take their steps and
prunes the ones that are not needed.  A `Run` does these in any order and keeps the
pools that were pruned, so that connections are counted there too.

`pooled_le_limit` adds up what all pools of one path, present and pruned, have in pooled
connections.  The sum is within the limit of the configuration.  It needs three facts.
Two pools in a registry have different paths.  Each pool came about by steps of its own,
so `Pool.Slots` holds for it.  And a pool that is pruned has no connections left.
-/

namespace ConnectionPool

namespace Registry

/-! ## Runs -/

/-- What happens to a registry. -/
inductive Event where
  /-- A path is used. -/
  | entry (path : DatabasePath)
  /-- Somebody takes a step with a pool. -/
  | within (id : Nat) (e : Pool.Event)
  /-- The registry is pruned. -/
  | prune

/-- The event may happen. -/
def permits (r : Registry) : Event → Bool
  | .within id e => (r.get? id).any (·.pool.permits e)
  | _ => true

/-- The registry after an event. -/
def after (r : Registry) : Event → Registry
  | .entry path => (r.entry path).1
  | .within id e =>
    match r.get? id with
    | some q => r.put id (q.pool.after e)
    | none => r
  | .prune => r.prune.1

/-- The pools that an event removes. -/
def removed (r : Registry) : Event → List RegisteredPool
  | .prune => r.pools.filter (!isNeeded ·)
  | _ => []

/-- A registry comes about by events that removed some pools. -/
inductive Run (config : Config) : Registry → List RegisteredPool → Prop where
  /-- Nobody has used it. -/
  | new : Run config { config } []
  /-- One more event. -/
  | step {r : Registry} {pruned : List RegisteredPool} (e : Event) :
      Run config r pruned → r.permits e → Run config (r.after e) (pruned ++ r.removed e)

/-! ## Counts -/

/-- The pooled connections of a path. -/
def pooled (path : DatabasePath) (pools : List RegisteredPool) : Nat :=
  ((pools.filter (·.path.same path)).map (·.pool.pooled)).sum

/-- The slots taken for a path. -/
def slotsTaken (path : DatabasePath) (pools : List RegisteredPool) : Nat :=
  ((pools.filter (·.path.same path)).map (·.pool.entry.inUse)).sum

/-! ## The invariant -/

/-- Pools are told apart, and each came about by steps of its own. -/
structure Sound (config : Config) (r : Registry) : Prop where
  /-- The settings never change. -/
  config_eq : r.config = config
  /-- Pools have different numbers. -/
  ids : Keyed RegisteredPool.id r.pools
  /-- Their numbers were given out. -/
  id_lt : ∀ q ∈ r.pools, q.id < r.fresh
  /-- Pools have different paths. -/
  paths : Keyed (fun q : RegisteredPool => q.path.components) r.pools
  /-- A pool is reachable. -/
  reachable : ∀ q ∈ r.pools, q.pool.Reachable config.limit

namespace Sound

variable {config : Config} {r : Registry}

theorem new (config : Config) : Sound config { config } where
  config_eq := rfl
  ids := List.nodup_nil
  id_lt := by intro q mem; cases mem
  paths := List.nodup_nil
  reachable := by intro q mem; cases mem

theorem entry (h : Sound config r) (path : DatabasePath) : Sound config (r.entry path).1 := by
  rw [Registry.entry]
  cases found : r.find? path with
  | some q => exact h
  | none =>
      have other : ∀ q ∈ r.pools, q.path.components ≠ path.components := by
        intro q mem
        simpa [DatabasePath.same] using List.find?_eq_none.mp found q mem
      exact {
        config_eq := h.config_eq
        ids := h.ids.append_fresh h.id_lt
        id_lt := lt_succ_of_mem_append h.id_lt
        paths := h.paths.append other
        reachable := by
          intro q mem
          rcases List.mem_append.mp mem with mem | mem
          · exact h.reachable q mem
          · rw [List.mem_singleton.mp mem, h.config_eq]
            exact .new config.limit }

theorem within (h : Sound config r) (id : Nat) (e : Pool.Event)
    (permitted : r.permits (.within id e)) : Sound config (r.after (.within id e)) := by
  rw [permits, Option.any_eq_true] at permitted
  obtain ⟨q, found, permitted⟩ := permitted
  rw [after, found]
  obtain ⟨mem, rfl⟩ := mem_of_find?_key found
  let change (s : RegisteredPool) : RegisteredPool := { s with pool := q.pool.after e }
  exact {
    config_eq := h.config_eq
    ids := h.ids.replace (f := change) fun _ => rfl
    id_lt := forall_mem_replaceKey (f := change) (fun _ lt => lt) h.id_lt
    paths := by
      have same : (replaceKey RegisteredPool.id q.id change r.pools).map
          (fun s => s.path.components) = r.pools.map fun s => s.path.components :=
        map_replaceKey _ fun _ => rfl
      exact (congrArg List.Nodup same).mpr h.paths
    reachable := by
      intro s hs
      rcases mem_replaceKey.mp hs with ⟨hs, -⟩ | ⟨_, _, -, rfl⟩
      · exact h.reachable s hs
      · exact (h.reachable q mem).step e permitted }

theorem prune (h : Sound config r) : Sound config r.prune.1 where
  config_eq := h.config_eq
  ids := h.ids.sublist List.filter_sublist
  id_lt := fun q mem => h.id_lt q (List.filter_sublist.subset mem)
  paths := h.paths.sublist List.filter_sublist
  reachable := fun q mem => h.reachable q (List.filter_sublist.subset mem)

theorem after (h : Sound config r) (e : Event) (permitted : r.permits e) :
    Sound config (r.after e) := by
  cases e with
  | entry path => exact h.entry path
  | within id e => exact h.within id e permitted
  | prune => exact h.prune

end Sound

theorem Run.sound {config : Config} {r : Registry} {pruned : List RegisteredPool}
    (run : Run config r pruned) : Sound config r := by
  induction run with
  | new => exact Sound.new config
  | step e _ permitted ih => exact ih.after e permitted

/-! ## Pruned pools -/

/-- A pool that is not needed has no slot taken and no connection. -/
theorem empty_of_not_isNeeded {q : RegisteredPool} (h : isNeeded q = false) :
    q.pool.pooled = 0 ∧ q.pool.entry.inUse = 0 := by
  simp only [isNeeded, Pool.isHeld, Entry.isUnused, Bool.or_eq_false_iff, Bool.not_eq_false',
    Bool.and_eq_true, List.isEmpty_iff, beq_iff_eq] at h
  obtain ⟨⟨⟨⟨⟨⟨-, acquisitions⟩, leases⟩, -⟩, -⟩, -⟩, ⟨⟨-, inUse⟩, idle⟩, -⟩ := h
  refine ⟨?_, inUse⟩
  rw [Pool.pooled, acquisitions, leases, idle]
  rfl

theorem Run.pruned_empty {config : Config} {r : Registry} {pruned : List RegisteredPool}
    (run : Run config r pruned) : ∀ q ∈ pruned, q.pool.pooled = 0 ∧ q.pool.entry.inUse = 0 := by
  induction run with
  | new => intro q mem; cases mem
  | @step r pruned e _ _ ih =>
      intro q mem
      rcases List.mem_append.mp mem with mem | mem
      · exact ih q mem
      · cases e with
        | entry path => cases mem
        | within id e => cases mem
        | prune =>
            have not_needed := (List.mem_filter.mp mem).2
            exact empty_of_not_isNeeded (by simpa using not_needed)

/-! ## The limit -/

/-- At most one pool of a registry has a path. -/
theorem Sound.at_most_one {config : Config} {r : Registry} (h : Sound config r)
    (path : DatabasePath) : r.pools.filter (·.path.same path) = [] ∨
      ∃ q ∈ r.pools, r.pools.filter (·.path.same path) = [q] := by
  cases eq : r.pools.filter (·.path.same path) with
  | nil => exact .inl rfl
  | cons q rest =>
      have mem : ∀ s ∈ q :: rest, s ∈ r.pools ∧ s.path.components = path.components := by
        intro s hs
        rw [← eq] at hs
        obtain ⟨hs, same⟩ := List.mem_filter.mp hs
        exact ⟨hs, beq_iff_eq.mp same⟩
      refine .inr ⟨q, (mem q List.mem_cons_self).1, ?_⟩
      cases rest with
      | nil => rfl
      | cons s _ =>
          have keyed : Keyed (fun s => s.path.components) (q :: s :: _) :=
            h.paths.sublist (eq ▸ List.filter_sublist)
          have same := (mem q List.mem_cons_self).2.trans
            (mem s (List.mem_cons_of_mem q List.mem_cons_self)).2.symm
          exact absurd (List.mem_cons.mpr (.inl same)) (List.nodup_cons.mp keyed).1

/-- What is bounded in every pool of a registry and nothing in a pruned pool is bounded
for every path. -/
theorem Run.sum_le {config : Config} {r : Registry} {pruned : List RegisteredPool}
    (run : Run config r pruned) (path : DatabasePath) (count : Pool → Nat) (bound : Nat)
    (le : ∀ q ∈ r.pools, count q.pool ≤ bound) (none : ∀ q ∈ pruned, count q.pool = 0) :
    (((r.pools ++ pruned).filter (·.path.same path)).map (count ·.pool)).sum ≤ bound := by
  have no_more : ((pruned.filter (·.path.same path)).map (count ·.pool)).sum = 0 := by
    apply List.sum_eq_zero_iff_forall_eq_nat.mpr
    intro n mem
    obtain ⟨q, hq, rfl⟩ := List.mem_map.mp mem
    exact none q (List.filter_sublist.subset hq)
  rw [List.filter_append, List.map_append, List.sum_append, no_more]
  rcases run.sound.at_most_one path with eq | ⟨q, mem, eq⟩
  · rw [eq]
    exact Nat.zero_le bound
  · rw [eq]
    simpa using le q mem

/-- However a registry came about, the pooled connections of a path and the slots taken
for it are within the limit. -/
theorem pooled_le_limit {config : Config} {r : Registry} {pruned : List RegisteredPool}
    (run : Run config r pruned) (path : DatabasePath) :
    pooled path (r.pools ++ pruned) ≤ max 1 config.maxPooled ∧
      slotsTaken path (r.pools ++ pruned) ≤ max 1 config.maxPooled := by
  have slots : ∀ q ∈ r.pools, q.pool.Slots config.limit :=
    fun q mem => (run.sound.reachable q mem).slots
  constructor
  · exact run.sum_le path Pool.pooled config.limit (fun q mem => (slots q mem).pooled_le)
      fun q mem => (run.pruned_empty q mem).1
  · exact run.sum_le path (·.entry.inUse) config.limit (fun q mem => (slots q mem).inUse_le)
      fun q mem => (run.pruned_empty q mem).2

/-- A limit of zero counts as one, which a single lease exhausts. -/
theorem pooled_le_limit_lease : ∃ r, Run { maxPooled := 0 } r [] ∧
    (r.pools.map (·.pool.leases) = [[7]]) ∧
      pooled ⟨"a.db"⟩ (r.pools ++ []) ≤ max 1 0 ∧
      slotsTaken ⟨"a.db"⟩ (r.pools ++ []) ≤ max 1 0 := by
  have used := (@Run.new { maxPooled := 0 }).step (.entry ⟨"a.db"⟩) rfl
  have granted := used.step (.within 0 .acquire) rfl
  have opening := granted.step (.within 0 (.claim 0 fun _ => true)) rfl
  have opened := opening.step (.within 0 (.opened 0 7)) rfl
  have leased := opened.step (.within 0 (.lease 0 7)) rfl
  exact ⟨_, leased, rfl, pooled_le_limit leased ⟨"a.db"⟩⟩

end Registry

end ConnectionPool
