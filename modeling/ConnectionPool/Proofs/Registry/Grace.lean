import Mathlib.Algebra.Order.BigOperators.Group.List
import Mathlib.Algebra.Order.Ring.Nat
import ConnectionPool.Proofs.Pool.Custody
import ConnectionPool.Proofs.Pool.Order
import ConnectionPool.Proofs.Registry

/-!
# Reclaiming and closing

A pooled connection that is given back stays idle for a while.  An acquisition may
reclaim it, a timer closes it when its time is over, and a shutdown closes it at once.
The three find it in different ways, and the connection may be given back and reclaimed
many times under the same number, with a timer for each time.

A `Timeline` is a registry with a clock and a log.  The log has a mark for each lease
that was given back and one for each stay that ended, newest first.  Connections are
opened under numbers that none had before, a lease is given back with the deadline that
the clock and the grace period make, and a timer fires when its deadline has passed, or
later.  A timer that was stopped does not fire any more: what it does, from the end of
its wait on, is one step.

`Run.reclaim_excludes_close` says that the three never meet.  It comes from one
invariant, `Timeline.Kept`: a connection is in one place, the timers are those of the
stays, each timer was started when its connection was given back last, and the stays
that began are those that ended and those that last.
-/

namespace ConnectionPool

namespace Registry

/-! ## The log -/

/-- What is written down about the idle connections. -/
inductive Mark where
  /-- A lease was given back.  With a timer the connection became idle. -/
  | released (pool conn : Nat) (timer : Option Nat) (time : Nat)
  /-- A stay among the idle connections ended. -/
  | ended (pool : Nat) (stay : Idle) (how : Idle.Ending) (time : Nat)
  deriving DecidableEq, Repr

namespace Mark

/-- The connection was given back. -/
def releases (conn : Nat) : Mark → Bool
  | .released _ c _ _ => c == conn
  | .ended .. => false

/-- The stay that began, with the number of its pool. -/
def begun : Mark → Option (Nat × Idle)
  | .released pool conn (some timer) _ => some (pool, ⟨conn, timer⟩)
  | _ => none

/-- The stay that ended, with the number of its pool. -/
def past : Mark → Option (Nat × Idle)
  | .ended pool stay _ _ => some (pool, stay)
  | .released .. => none

end Mark

/-- When the connection was given back last. -/
def lastRelease (conn : Nat) (log : List Mark) : Option Mark := log.find? (·.releases conn)

/-- The stays that began. -/
def begun (log : List Mark) : List (Nat × Idle) := log.filterMap Mark.begun

/-- The stays that ended. -/
def past (log : List Mark) : List (Nat × Idle) := log.filterMap Mark.past

/-- The stays that last. -/
def stays (r : Registry) : List (Nat × Idle) :=
  r.pools.flatMap fun q => q.pool.entry.idle.map (q.id, ·)

/-- What a step with a pool leaves in the log. -/
def marks (q : RegisteredPool) (now : Nat) : Pool.Event → List Mark
  | .release conn deadline => [.released q.id conn (deadline.map fun _ => q.pool.fresh) now]
  | e => (q.pool.ended e).map fun x => .ended q.id x.1 x.2 now

/-! ## Runs -/

/-- A registry, the time, and what was written down. -/
structure Timeline where
  /-- The registry. -/
  registry : Registry
  /-- The time. -/
  now : Nat := 0
  /-- The connections opened until now have smaller numbers. -/
  fresh : Nat := 0
  /-- The log, newest first. -/
  log : List Mark := []
  deriving DecidableEq, Repr

namespace Timeline

/-- What happens to a registry in the course of time. -/
inductive Event where
  /-- A path is used. -/
  | entry (path : DatabasePath)
  /-- Somebody takes a step with a pool. -/
  | within (id : Nat) (e : Pool.Event)
  /-- The registry is pruned. -/
  | prune
  /-- Time passes. -/
  | advance (ms : Nat)

/-- The step uses a number that is free, a deadline that is due or one that is right. -/
def inTime (s : Timeline) (q : RegisteredPool) : Pool.Event → Bool
  | .opened _ conn => s.fresh ≤ conn
  | .release _ (some deadline) => deadline == s.now + s.registry.config.closingGrace
  | .fire timer => q.pool.timers.all fun t => t.id != timer || t.deadline ≤ s.now
  | _ => true

/-- The event may happen. -/
def permits (s : Timeline) : Event → Bool
  | .within id e => (s.registry.get? id).any fun q => q.pool.permits e && s.inTime q e
  | _ => true

/-- The first number that no connection has, after a step. -/
def nextConn (s : Timeline) : Pool.Event → Nat
  | .opened _ conn => conn + 1
  | _ => s.fresh

/-- The timeline after an event. -/
def after (s : Timeline) : Event → Timeline
  | .entry path => { s with registry := s.registry.after (.entry path) }
  | .within id e =>
    match s.registry.get? id with
    | some q =>
      { s with
        registry := s.registry.after (.within id e)
        fresh := s.nextConn e
        log := marks q s.now e ++ s.log }
    | none => s
  | .prune => { s with registry := s.registry.after .prune }
  | .advance ms => { s with now := s.now + ms }

/-- A timeline comes about by events. -/
inductive Run (config : Config) : Timeline → Prop where
  /-- Nobody has used the registry. -/
  | new : Run config { registry := { config } }
  /-- One more event. -/
  | step {s : Timeline} (e : Event) : Run config s → s.permits e → Run config (s.after e)

end Timeline

/-! ## What is written down -/

section Marks

variable {q : RegisteredPool} {now : Nat} {e : Pool.Event} {log : List Mark} {conn : Nat}

theorem marks_of_ne (ne : ∀ c d, e ≠ .release c d) :
    marks q now e = (q.pool.ended e).map fun x => .ended q.id x.1 x.2 now := by
  cases e with
  | release c d => exact absurd rfl (ne c d)
  | _ => rfl

theorem begun_marks (q : RegisteredPool) (now : Nat) (e : Pool.Event) :
    begun (marks q now e) = (q.pool.begun e).toList.map (q.id, ·) := by
  by_cases release : ∃ c d, e = .release c d
  · obtain ⟨c, d, rfl⟩ := release
    cases d <;> rfl
  · have ne : ∀ c d, e ≠ .release c d := fun c d is => release ⟨c, d, is⟩
    have none : q.pool.begun e = none := by
      cases e with
      | release c d => exact absurd rfl (ne c d)
      | _ => rfl
    rw [marks_of_ne ne, none]
    simp [begun, Mark.begun, List.filterMap_map, Function.comp_def]

theorem past_marks (q : RegisteredPool) (now : Nat) (e : Pool.Event) :
    past (marks q now e) = ((q.pool.ended e).map Prod.fst).map (q.id, ·) := by
  by_cases release : ∃ c d, e = .release c d
  · obtain ⟨c, d, rfl⟩ := release
    rfl
  · rw [marks_of_ne fun c d is => release ⟨c, d, is⟩]
    simp [past, Mark.past, List.filterMap_map, Function.comp_def]

/-- Stays that end are no releases. -/
theorem lastRelease_ended (ends : List (Idle × Idle.Ending)) (conn : Nat) (log : List Mark) :
    lastRelease conn ((ends.map fun x => .ended q.id x.1 x.2 now) ++ log) =
      lastRelease conn log := by
  induction ends with
  | nil => rfl
  | cons x rest ih => exact ih

theorem lastRelease_marks (other : ∀ d, e ≠ .release conn d) :
    lastRelease conn (marks q now e ++ log) = lastRelease conn log := by
  by_cases release : ∃ c d, e = .release c d
  · obtain ⟨c, d, rfl⟩ := release
    have ne : (c == conn) = false := beq_eq_false_iff_ne.mpr fun is => other d (by rw [is])
    simp [lastRelease, marks, Mark.releases, ne]
  · rw [marks_of_ne fun c d is => release ⟨c, d, is⟩]
    exact lastRelease_ended _ conn log

/-- Marks of stays that end are found among the new ones or among the old ones. -/
theorem suffix_marks {pool : Nat} {stay : Idle} {how : Idle.Ending} {time : Nat} {earlier : List Mark}
    (suffix : .ended pool stay how time :: earlier <:+ marks q now e ++ log) :
    .ended pool stay how time :: earlier <:+ log ∨
      (pool = q.id ∧ (stay, how) ∈ q.pool.ended e ∧ time = now ∧
        ∀ conn, lastRelease conn earlier = lastRelease conn log) := by
  by_cases release : ∃ c d, e = .release c d
  · obtain ⟨c, d, rfl⟩ := release
    rcases List.suffix_cons_iff.mp suffix with is | old
    · cases is
    · exact .inl old
  · rw [marks_of_ne fun c d is => release ⟨c, d, is⟩] at suffix
    generalize q.pool.ended e = ends at suffix ⊢
    induction ends with
    | nil => exact .inl suffix
    | cons x rest ih =>
        rcases List.suffix_cons_iff.mp suffix with is | old
        · obtain ⟨head, rfl⟩ := List.cons.inj is
          cases head
          exact .inr ⟨rfl, List.mem_cons_self, rfl, fun conn => lastRelease_ended rest conn log⟩
        · rcases ih old with old | ⟨pool, mem, time⟩
          · exact .inl old
          · exact .inr ⟨pool, List.mem_cons_of_mem x mem, time⟩

end Marks

/-! ## Places -/

/-- The places where the pools of a registry have a connection. -/
def places (r : Registry) (conn : Nat) : Nat := (r.pools.map (·.pool.places conn)).sum

section Places

variable {config : Config} {r : Registry} {id conn : Nat} {q q' : RegisteredPool} {e : Pool.Event}

/-- A step with a pool changes the list of pools in one place. -/
theorem Sound.split_within (h : Sound config r) (found : r.get? id = some q) (e : Pool.Event) :
    q.id = id ∧ ∃ front back, r.pools = front ++ q :: back ∧
      (∀ s ∈ front ++ back, s ∈ r.pools ∧ s.id ≠ id) ∧
      (r.after (.within id e)).pools = front ++ { q with pool := q.pool.after e } :: back := by
  obtain ⟨mem, rfl⟩ := mem_of_find?_key found
  obtain ⟨front, back, eq, others, replaced, -⟩ := h.ids.split mem
  refine ⟨rfl, front, back, eq, others, ?_⟩
  rw [Registry.after, found]
  exact replaced fun s => { s with pool := q.pool.after e }

theorem places_split {front back : List RegisteredPool} (eq : r.pools = front ++ q :: back)
    (conn : Nat) : r.places conn = (front.map (·.pool.places conn)).sum + q.pool.places conn +
      (back.map (·.pool.places conn)).sum := by
  rw [places, eq, List.map_append, List.sum_append, List.map_cons, List.sum_cons]
  omega

theorem places_le_of_mem (mem : q ∈ r.pools) (conn : Nat) :
    q.pool.places conn ≤ r.places conn := by
  obtain ⟨front, back, eq⟩ := List.append_of_mem mem
  rw [places_split eq conn]
  omega

/-- A connection that is in one place is in one pool. -/
theorem eq_of_places (once : r.places conn ≤ 1) (mem : q ∈ r.pools) (mem' : q' ∈ r.pools)
    (pos : 0 < q.pool.places conn) (pos' : 0 < q'.pool.places conn) : q' = q := by
  obtain ⟨front, back, eq⟩ := List.append_of_mem mem
  rw [places_split eq conn] at once
  have among : ∀ l : List RegisteredPool, q' ∈ l →
      q'.pool.places conn ≤ (l.map (·.pool.places conn)).sum :=
    fun l mem => List.le_sum_of_mem (List.mem_map_of_mem mem)
  rw [eq, List.mem_append, List.mem_cons] at mem'
  rcases mem' with mem' | is | mem'
  · have := among front mem'
    omega
  · exact is
  · have := among back mem'
    omega

/-- An idle connection that is in one place is leased by no pool. -/
theorem not_leased (once : r.places conn ≤ 1) (mem : q ∈ r.pools) (mem' : q' ∈ r.pools) {i : Idle}
    (idle : i ∈ q.pool.entry.idle) (is : i.conn = conn) : conn ∉ q'.pool.leases := by
  subst is
  intro leased
  have same := eq_of_places once mem mem' (Pool.places_pos_of_idle idle)
    (Pool.places_pos_of_leased leased)
  exact Pool.not_leased (Nat.le_trans (places_le_of_mem mem i.conn) once) idle (same ▸ leased)

end Places

/-! ## The invariant -/

namespace Timeline

variable {config : Config} {s : Timeline}

/-- Connections, stays, timers and the log agree. -/
structure Kept (config : Config) (s : Timeline) : Prop where
  /-- Pools are told apart. -/
  sound : Sound config s.registry
  /-- A connection is in one place at most. -/
  once : ∀ conn, s.registry.places conn ≤ 1
  /-- A connection that was not opened is in no place. -/
  unopened : ∀ conn, s.fresh ≤ conn → s.registry.places conn = 0
  /-- The timers of a pool are those of its stays. -/
  timed : ∀ q ∈ s.registry.pools, q.pool.Timed
  /-- A timer was started when its connection was given back last. -/
  started : ∀ q ∈ s.registry.pools, ∀ t ∈ q.pool.timers, ∃ start,
    lastRelease t.conn s.log = some (.released q.id t.conn (some t.id) start) ∧
      t.deadline = start + config.closingGrace
  /-- The numbers of stays were given out. -/
  numbered : ∀ x ∈ begun s.log, x.1 < s.registry.fresh ∧
    ∀ q ∈ s.registry.pools, q.id = x.1 → x.2.timer < q.pool.fresh
  /-- A stay begins once. -/
  distinct : (begun s.log).Nodup
  /-- The stays that began have ended, or they last. -/
  conserved : (begun s.log).Perm (past s.log ++ s.registry.stays)
  /-- A stay ended before its connection was given back again, and if a timer ended it, its
  own timer did, when it was due. -/
  justified : ∀ pool stay how time earlier, .ended pool stay how time :: earlier <:+ s.log →
    ∃ start, lastRelease stay.conn earlier =
        some (.released pool stay.conn (some stay.timer) start) ∧
      ∀ timer, how = .expired timer → timer = stay.timer ∧ start + config.closingGrace ≤ time

namespace Kept

theorem new (config : Config) : Kept config { registry := { config } } where
  sound := .new config
  once := fun _ => Nat.zero_le 1
  unopened := fun _ _ => rfl
  timed := by intro q mem; cases mem
  started := by intro q mem; cases mem
  numbered := by intro x mem; cases mem
  distinct := List.nodup_nil
  conserved := .refl _
  justified := by
    intro pool stay how time earlier suffix
    cases List.suffix_nil.mp suffix

theorem once_pool (h : Kept config s) {q : RegisteredPool} (mem : q ∈ s.registry.pools)
    (conn : Nat) : q.pool.places conn ≤ 1 :=
  Nat.le_trans (places_le_of_mem mem conn) (h.once conn)

theorem idle_distinct (h : Kept config s) {q : RegisteredPool} (mem : q ∈ s.registry.pools) :
    (q.pool.entry.idle.map Idle.conn).Nodup :=
  Pool.idle_distinct (h.once_pool mem)

/-! ### Steps with a pool -/

section Within

variable {q : RegisteredPool} {id : Nat} {e : Pool.Event}

theorem places_within (h : Kept config s) (found : s.registry.get? id = some q)
    (permitted : q.pool.permits e) (conn : Nat) :
    (s.registry.after (.within id e)).places conn ≤
      s.registry.places conn + if e.brings conn then 1 else 0 := by
  obtain ⟨-, front, back, eq, -, changed⟩ := h.sound.split_within found e
  have mem : q ∈ s.registry.pools := (mem_of_find?_key found).1
  have step := Pool.places_after (h.sound.reachable q mem).slots permitted conn
  rw [places_split eq conn, places_split changed conn]
  show _ + (q.pool.after e).places conn + _ ≤ _
  omega

theorem once_within (h : Kept config s) (found : s.registry.get? id = some q)
    (permitted : q.pool.permits e) (inTime : s.inTime q e) (conn : Nat) :
    (s.registry.after (.within id e)).places conn ≤ 1 := by
  have step := h.places_within found permitted conn
  have once := h.once conn
  by_cases brings : e.brings conn
  · have unopened : s.registry.places conn = 0 := by
      cases e with
      | opened ticket c =>
          rw [← (beq_iff_eq.mp brings : c = conn)]
          exact h.unopened c (of_decide_eq_true inTime)
      | _ => cases brings
    rw [if_pos brings] at step
    omega
  · rw [if_neg brings] at step
    omega

theorem unopened_within (h : Kept config s) (found : s.registry.get? id = some q)
    (permitted : q.pool.permits e) (inTime : s.inTime q e) {conn : Nat}
    (free : s.nextConn e ≤ conn) : (s.registry.after (.within id e)).places conn = 0 := by
  have step := h.places_within found permitted conn
  have later : s.fresh ≤ conn ∧ e.brings conn = false := by
    cases e with
    | opened ticket c =>
        have le : s.fresh ≤ c := of_decide_eq_true inTime
        have lt : c < conn := free
        exact ⟨by omega, beq_eq_false_iff_ne.mpr (Nat.ne_of_lt lt)⟩
    | _ => exact ⟨free, rfl⟩
  rw [h.unopened conn later.1, if_neg (by simp [later.2])] at step
  omega

/-- A pool after a step is another one, or the one the step was taken with. -/
theorem mem_after (h : Kept config s) (found : s.registry.get? id = some q) {q' : RegisteredPool}
    (mem : q' ∈ (s.registry.after (.within id e)).pools) :
    (q' ∈ s.registry.pools ∧ q'.id ≠ q.id) ∨ q' = { q with pool := q.pool.after e } := by
  obtain ⟨rfl, front, back, eq, others, changed⟩ := h.sound.split_within found e
  rw [changed, List.mem_append, List.mem_cons] at mem
  rcases mem with mem | is | mem
  · exact .inl (others q' (List.mem_append_left _ mem))
  · exact .inr is
  · exact .inl (others q' (List.mem_append_right _ mem))

theorem started_within (h : Kept config s) (found : s.registry.get? id = some q)
    (permitted : q.pool.permits e) (inTime : s.inTime q e) {q' : RegisteredPool}
    (mem : q' ∈ (s.registry.after (.within id e)).pools) {t : GraceTimer}
    (running : t ∈ q'.pool.timers) : ∃ start,
      lastRelease t.conn (marks q s.now e ++ s.log) =
          some (.released q'.id t.conn (some t.id) start) ∧
        t.deadline = start + config.closingGrace := by
  have hq : q ∈ s.registry.pools := (mem_of_find?_key found).1
  -- A timer that ran before is that of an idle connection, which nobody gives back.
  have old : ∀ p ∈ s.registry.pools, t ∈ p.pool.timers → ∃ start,
      lastRelease t.conn (marks q s.now e ++ s.log) =
          some (.released p.id t.conn (some t.id) start) ∧
        t.deadline = start + config.closingGrace := by
    intro p hp running
    rw [lastRelease_marks]
    · exact h.started p hp t running
    · rintro deadline rfl
      exact not_leased (h.once t.conn) hp hq ((h.timed p hp).mem_idle running) rfl
        (List.contains_iff_mem.mp permitted)
  rcases h.mem_after found mem with ⟨hq', -⟩ | rfl
  · exact old q' hq' running
  · rcases Pool.timers_after running with running | ⟨deadline, rfl, new⟩
    · exact old q hq running
    · refine ⟨s.now, ?_, ?_⟩
      · have number : t.id = q.pool.fresh := congrArg GraceTimer.id new
        rw [number]
        simp [lastRelease, marks, Mark.releases]
      · have due : deadline = s.now + s.registry.config.closingGrace := beq_iff_eq.mp inTime
        rw [h.sound.config_eq] at due
        exact (congrArg GraceTimer.deadline new).trans due

theorem begun_within (q : RegisteredPool) (e : Pool.Event) (now : Nat) (log : List Mark) :
    begun (marks q now e ++ log) = (q.pool.begun e).toList.map (q.id, ·) ++ begun log := by
  rw [begun, List.filterMap_append, ← begun, begun_marks]
  rfl

theorem timer_of_begun {i : Idle} (new : i ∈ q.pool.begun e) :
    i.timer = q.pool.fresh ∧ q.pool.fresh < (q.pool.after e).fresh := by
  cases e with
  | release conn deadline =>
      cases deadline with
      | none => cases new
      | some deadline =>
          cases new
          have woken := Pool.Quiet.wake (q.pool.giveBack conn (some deadline))
          refine ⟨rfl, ?_⟩
          rw [Pool.after, Pool.release_eq]
          exact woken.fresh
  | _ => cases new

theorem numbered_within (h : Kept config s) (found : s.registry.get? id = some q)
    (permitted : q.pool.permits e) {x : Nat × Idle}
    (mem : x ∈ begun (marks q s.now e ++ s.log)) :
    x.1 < (s.registry.after (.within id e)).fresh ∧
      ∀ q' ∈ (s.registry.after (.within id e)).pools, q'.id = x.1 → x.2.timer < q'.pool.fresh := by
  have hq : q ∈ s.registry.pools := (mem_of_find?_key found).1
  have fresh : (s.registry.after (.within id e)).fresh = s.registry.fresh := by
    rw [Registry.after, found]
    rfl
  rw [begun_within, List.mem_append, List.mem_map] at mem
  rw [fresh]
  rcases mem with ⟨i, new, rfl⟩ | old
  · obtain ⟨number, lt⟩ := timer_of_begun (Option.mem_toList.mp new)
    refine ⟨h.sound.id_lt q hq, ?_⟩
    intro q' mem same
    rcases h.mem_after found mem with ⟨-, ne⟩ | rfl
    · exact absurd same ne
    · exact number ▸ lt
  · obtain ⟨lt, below⟩ := h.numbered x old
    refine ⟨lt, ?_⟩
    intro q' mem same
    rcases h.mem_after found mem with ⟨hq', -⟩ | rfl
    · exact below q' hq' same
    · exact Nat.lt_of_lt_of_le (below q hq same)
        (Pool.fresh_le_after (h.sound.reachable q hq).slots permitted)

theorem distinct_within (h : Kept config s) (found : s.registry.get? id = some q)
    (e : Pool.Event) : (begun (marks q s.now e ++ s.log)).Nodup := by
  have hq : q ∈ s.registry.pools := (mem_of_find?_key found).1
  rw [begun_within]
  cases new : q.pool.begun e with
  | none => exact h.distinct
  | some i =>
      refine List.nodup_cons.mpr ⟨?_, h.distinct⟩
      intro old
      have lt := (h.numbered _ old).2 q hq rfl
      rw [(timer_of_begun new).1] at lt
      exact Nat.lt_irrefl _ lt

theorem conserved_within (h : Kept config s) (found : s.registry.get? id = some q)
    (e : Pool.Event) : (begun (marks q s.now e ++ s.log)).Perm
      (past (marks q s.now e ++ s.log) ++ (s.registry.after (.within id e)).stays) := by
  obtain ⟨-, front, back, eq, -, changed⟩ := h.sound.split_within found e
  have step := (q.pool.stays_after e).map (q.id, ·)
  have before := h.conserved
  rw [stays, eq] at before
  rw [begun_within, past, List.filterMap_append, ← past, past_marks, stays, changed]
  rw [List.perm_iff_count] at step before ⊢
  intro x
  have step := step x
  have before := before x
  simp only [List.map_append, List.flatMap_append, List.flatMap_cons, List.count_append] at *
  show _ = _ + List.count x (past s.log) + _
  omega

theorem justified_within (h : Kept config s) (found : s.registry.get? id = some q)
    (inTime : s.inTime q e) {pool : Nat} {stay : Idle} {how : Idle.Ending} {time : Nat}
    {earlier : List Mark}
    (suffix : .ended pool stay how time :: earlier <:+ marks q s.now e ++ s.log) :
    ∃ start, lastRelease stay.conn earlier =
        some (.released pool stay.conn (some stay.timer) start) ∧
      ∀ timer, how = .expired timer →
        timer = stay.timer ∧ start + config.closingGrace ≤ time := by
  have hq : q ∈ s.registry.pools := (mem_of_find?_key found).1
  rcases suffix_marks suffix with old | ⟨rfl, ends, rfl, earlier⟩
  · exact h.justified _ _ _ _ _ old
  · rw [earlier]
    have stays := (h.timed q hq).stays
    obtain ⟨t, running, rfl⟩ := List.mem_map.mp (stays.symm.subset (Pool.mem_of_ended ends))
    obtain ⟨start, last, deadline⟩ := h.started q hq t running
    refine ⟨start, last, ?_⟩
    rintro timer rfl
    obtain ⟨timer', rfl⟩ : ∃ timer', e = .fire timer' := by
      cases e with
      | fire timer' => exact ⟨timer', rfl⟩
      | claim ticket isOpen =>
          obtain ⟨i, -, is⟩ := List.mem_map.mp ends
          have how := congrArg Prod.snd is
          dsimp only at how
          split at how <;> cases how
      | drainIdle =>
          obtain ⟨i, -, is⟩ := List.mem_map.mp ends
          cases congrArg Prod.snd is
      | _ => cases ends
    obtain ⟨u, hu, rfl, same, how⟩ := (h.timed q hq).ended_fire (h.idle_distinct hq) ends
    cases how
    have is : u = t := (h.timed q hq).ids.eq_of_mem hu running (congrArg Idle.timer same).symm
    subst is
    have due := List.all_eq_true.mp inTime u hu
    simp only [bne_self_eq_false, Bool.false_or, decide_eq_true_eq] at due
    exact ⟨rfl, deadline ▸ due⟩

theorem within (h : Kept config s) (found : s.registry.get? id = some q)
    (permitted : q.pool.permits e) (inTime : s.inTime q e) : Kept config (s.after (.within id e)) := by
  have sound := h.sound.within id e (by rw [Registry.permits, found]; exact permitted)
  rw [Timeline.after, found]
  exact {
    sound
    once := h.once_within found permitted inTime
    unopened := fun conn free => h.unopened_within found permitted inTime free
    timed := by
      intro q' mem
      rcases h.mem_after found mem with ⟨hq', -⟩ | rfl
      · exact h.timed q' hq'
      · have hq : q ∈ s.registry.pools := (mem_of_find?_key found).1
        exact (h.timed q hq).after (h.idle_distinct hq) e
    started := fun q' mem t running => h.started_within found permitted inTime mem running
    numbered := fun x mem => h.numbered_within found permitted mem
    distinct := h.distinct_within found e
    conserved := h.conserved_within found e
    justified := fun _ _ _ _ _ suffix => h.justified_within found inTime suffix }

end Within

/-! ### Other events -/

theorem entry (h : Kept config s) (path : DatabasePath) : Kept config (s.after (.entry path)) := by
  have sound := h.sound.entry path
  rw [Timeline.after, Registry.after]
  rw [Registry.entry] at sound ⊢
  cases found : s.registry.find? path with
  | some q => exact { h with }
  | none =>
      rw [found] at sound
      -- A new pool has nothing yet.
      have places : ∀ conn, Registry.places
          { s.registry with
            pools := s.registry.pools ++
              [⟨s.registry.fresh, path, Pool.new s.registry.config.limit⟩]
            fresh := s.registry.fresh + 1 } conn = s.registry.places conn := by
        intro conn
        rw [Registry.places, List.map_append, List.sum_append]
        rfl
      exact {
        sound
        once := fun conn => places conn ▸ h.once conn
        unopened := fun conn free => places conn ▸ h.unopened conn free
        timed := by
          intro q mem
          rcases List.mem_append.mp mem with mem | mem
          · exact h.timed q mem
          · rw [List.mem_singleton.mp mem]
            exact .new _
        started := by
          intro q mem t running
          rcases List.mem_append.mp mem with mem | mem
          · exact h.started q mem t running
          · rw [List.mem_singleton.mp mem] at running
            cases running
        numbered := by
          intro x mem
          obtain ⟨lt, below⟩ := h.numbered x mem
          refine ⟨Nat.lt_succ_of_lt lt, ?_⟩
          intro q mem same
          rcases List.mem_append.mp mem with mem | mem
          · exact below q mem same
          · rw [List.mem_singleton.mp mem] at same
            exact absurd lt (Nat.not_lt_of_ge (Nat.le_of_eq same))
        distinct := h.distinct
        conserved := by
          rw [stays, List.flatMap_append]
          exact h.conserved.trans (.of_eq (by simp [stays, Pool.new]))
        justified := h.justified }

/-- A pool that is pruned has no idle connections. -/
theorem prune (h : Kept config s) : Kept config (s.after .prune) := by
  have fewer : ∀ q ∈ s.registry.prune.1.pools, q ∈ s.registry.pools :=
    fun q mem => List.filter_sublist.subset mem
  have places : ∀ conn, s.registry.prune.1.places conn ≤ s.registry.places conn :=
    fun conn => (List.filter_sublist.map _).sum_le_sum fun _ _ => Nat.zero_le _
  have same : s.registry.prune.1.stays = s.registry.stays := by
    show (s.registry.pools.filter isNeeded).flatMap _ = s.registry.pools.flatMap _
    induction s.registry.pools with
    | nil => rfl
    | cons q rest ih =>
        rw [List.flatMap_cons]
        cases needed : isNeeded q with
        | true => rw [List.filter_cons_of_pos needed, List.flatMap_cons, ih]
        | false =>
            have empty := (empty_of_not_isNeeded needed).1
            have idle : q.pool.entry.idle = [] := by
              apply List.eq_nil_of_length_eq_zero
              unfold Pool.pooled at empty
              omega
            rw [List.filter_cons_of_neg (by simp [needed]), ih, idle]
            rfl
  exact {
    sound := h.sound.prune
    once := fun conn => Nat.le_trans (places conn) (h.once conn)
    unopened := fun conn free => Nat.eq_zero_of_le_zero (h.unopened conn free ▸ places conn)
    timed := fun q mem => h.timed q (fewer q mem)
    started := fun q mem => h.started q (fewer q mem)
    numbered := by
      intro x mem
      obtain ⟨lt, below⟩ := h.numbered x mem
      exact ⟨lt, fun q hq => below q (fewer q hq)⟩
    distinct := h.distinct
    conserved := same ▸ h.conserved
    justified := h.justified }

/-- Every event keeps the invariant. -/
theorem after (h : Kept config s) (e : Event) (permitted : s.permits e) :
    Kept config (s.after e) := by
  cases e with
  | entry path => exact h.entry path
  | within id e =>
      rw [Timeline.permits, Option.any_eq_true] at permitted
      obtain ⟨q, found, permitted⟩ := permitted
      obtain ⟨permitted, inTime⟩ := Bool.and_eq_true_iff.mp permitted
      exact h.within found permitted inTime
  | prune => exact h.prune
  | advance ms => exact { h with }

end Kept

theorem Run.kept (run : Run config s) : Kept config s := by
  induction run with
  | new => exact .new config
  | step e _ permitted ih => exact ih.after e permitted

/-! ## The result -/

/-- Reclaiming a connection and closing it exclude each other. -/
structure Exclusive (config : Config) (s : Timeline) : Prop where
  /-- The idle connections of a pool have different numbers. -/
  distinct : ∀ q ∈ s.registry.pools, (q.pool.entry.idle.map Idle.conn).Nodup
  /-- None of them is leased. -/
  unleased : ∀ q ∈ s.registry.pools, ∀ i ∈ q.pool.entry.idle, ∀ q' ∈ s.registry.pools,
    i.conn ∉ q'.pool.leases
  /-- Each has one running timer, started when it was given back last. -/
  timer : ∀ q ∈ s.registry.pools, ∀ i ∈ q.pool.entry.idle, ∃ start,
    lastRelease i.conn s.log = some (.released q.id i.conn (some i.timer) start) ∧
      q.pool.timers.filter (·.conn == i.conn) =
        [⟨i.timer, i.conn, start + config.closingGrace⟩]
  /-- A stay begins once, and it ends once or lasts. -/
  ends : (begun s.log).Nodup ∧ ∀ stay ∈ begun s.log,
    (past s.log).count stay = if stay ∈ s.registry.stays then 0 else 1
  /-- Only a stay that began ends or lasts. -/
  began : ∀ stay ∈ past s.log ++ s.registry.stays, stay ∈ begun s.log
  /-- A timer closes the connection whose stay it was started for, and not before the grace
  period has passed since the connection was given back last. -/
  patient : ∀ pool stay timer time earlier,
    .ended pool stay (.expired timer) time :: earlier <:+ s.log →
      timer = stay.timer ∧ ∃ start, lastRelease stay.conn earlier =
        some (.released pool stay.conn (some timer) start) ∧ start + config.closingGrace ≤ time
  /-- A timer that closes a connection which was reclaimed was started after that. -/
  current : ∀ pool stay timer time later pool' stay' time' earlier,
    .ended pool stay (.expired timer) time ::
        (later ++ .ended pool' stay' .reclaimed time' :: earlier) <:+ s.log →
      stay'.conn = stay.conn → ∃ start, .released pool stay.conn (some timer) start ∈ later

namespace Kept

theorem timer (h : Kept config s) {q : RegisteredPool} (mem : q ∈ s.registry.pools) {i : Idle}
    (idle : i ∈ q.pool.entry.idle) : ∃ start,
    lastRelease i.conn s.log = some (.released q.id i.conn (some i.timer) start) ∧
      q.pool.timers.filter (·.conn == i.conn) =
        [⟨i.timer, i.conn, start + config.closingGrace⟩] := by
  have stays := (h.timed q mem).stays
  obtain ⟨t, running, rfl⟩ := List.mem_map.mp (stays.symm.subset idle)
  obtain ⟨start, last, deadline⟩ := h.started q mem t running
  have keyed : Keyed GraceTimer.conn q.pool.timers := by
    have same := stays.map Idle.conn
    rw [List.map_map] at same
    exact same.nodup_iff.mpr (h.idle_distinct mem)
  refine ⟨start, last, (keyed.filter_key running).trans ?_⟩
  rw [← deadline]
  rfl

theorem ends (h : Kept config s) {stay : Nat × Idle} (began : stay ∈ begun s.log) :
    (past s.log).count stay = if stay ∈ s.registry.stays then 0 else 1 := by
  have conserved := h.conserved.count_eq stay
  rw [List.count_append, List.count_eq_one_of_mem h.distinct began] at conserved
  split
  · next lasts =>
      have pos := List.count_pos_iff.mpr lasts
      omega
  · next gone =>
      have zero := List.count_eq_zero.mpr gone
      omega

/-- A timer that closes a connection was started after the stay before ended. -/
theorem current (h : Kept config s) {pool pool' : Nat} {stay stay' : Idle}
    {how how' : Idle.Ending} {time time' : Nat} {later earlier : List Mark}
    (suffix : .ended pool stay how time :: (later ++ .ended pool' stay' how' time' :: earlier) <:+
      s.log) (same : stay'.conn = stay.conn) :
    ∃ start, .released pool stay.conn (some stay.timer) start ∈ later := by
  obtain ⟨conn, timer⟩ := stay
  obtain ⟨conn', timer'⟩ := stay'
  obtain rfl : conn' = conn := same
  obtain ⟨start, last, -⟩ := h.justified _ _ _ _ _ suffix
  refine ⟨start, ?_⟩
  rw [lastRelease, List.find?_append] at last
  cases found : later.find? (·.releases conn') with
  | some m =>
      rw [found] at last
      cases last
      exact List.mem_of_find?_eq_some found
  | none =>
      -- Otherwise both marks would be of one stay.
      rw [found] at last
      have before : lastRelease conn' earlier =
          some (.released pool conn' (some timer) start) := last
      have suffix' : .ended pool' ⟨conn', timer'⟩ how' time' :: earlier <:+ s.log :=
        List.IsSuffix.trans ⟨.ended pool ⟨conn', timer⟩ how time :: later, rfl⟩ suffix
      obtain ⟨start', last', -⟩ := h.justified _ _ _ _ _ suffix'
      rw [before] at last'
      cases last'
      have ended : (past s.log).Nodup :=
        (List.nodup_append.mp (h.conserved.nodup_iff.mp h.distinct)).1
      have twice : ((pool, (⟨conn', timer'⟩ : Idle)) ::
          (past later ++ (pool, ⟨conn', timer'⟩) :: past earlier)).Nodup := by
        have sub := ended.sublist (suffix.sublist.filterMap Mark.past)
        rwa [List.filterMap_cons, List.filterMap_append, List.filterMap_cons] at sub
      exact absurd (List.mem_append_right _ List.mem_cons_self) (List.nodup_cons.mp twice).1

end Kept

/-- However a registry came about, a connection that is idle is in nobody's hands and has its
one timer, and each stay is ended once: by an acquisition, by its own timer when it is due,
or by a shutdown. -/
theorem Run.reclaim_excludes_close (run : Run config s) : Exclusive config s where
  distinct := fun _ mem => run.kept.idle_distinct mem
  unleased := fun _ mem i idle _ mem' => not_leased (run.kept.once i.conn) mem mem' idle rfl
  timer := fun _ mem _ idle => run.kept.timer mem idle
  ends := ⟨run.kept.distinct, fun _ began => run.kept.ends began⟩
  began := fun _ mem => run.kept.conserved.symm.subset mem
  patient := by
    intro pool stay timer time earlier suffix
    obtain ⟨start, last, due⟩ := run.kept.justified _ _ _ _ _ suffix
    obtain ⟨rfl, passed⟩ := due timer rfl
    exact ⟨rfl, start, last, passed⟩
  current := by
    intro pool stay timer time later pool' stay' time' earlier suffix same
    obtain ⟨_, -, due⟩ := run.kept.justified _ _ _ _ _ suffix
    obtain ⟨rfl, -⟩ := due timer rfl
    exact run.kept.current suffix same

/-- A connection is given back, reclaimed, given back again, and closed by its second timer
when that is due. -/
theorem reclaim_excludes_close_twice : ∃ s, Run {} s ∧
    s.log = [.ended 0 ⟨7, 3⟩ (.expired 3) 3010, .released 0 7 (some 3) 10,
      .ended 0 ⟨7, 1⟩ .reclaimed 10, .released 0 7 (some 1) 0] ∧ Exclusive {} s := by
  have used := (@Run.new {}).step (.entry ⟨"a.db"⟩) rfl
  have granted := used.step (.within 0 .acquire) rfl
  have opening := granted.step (.within 0 (.claim 0 fun _ => true)) rfl
  have opened := opening.step (.within 0 (.opened 0 7)) rfl
  have leased := opened.step (.within 0 (.lease 0 7)) rfl
  have released := leased.step (.within 0 (.release 7 (some 3000))) rfl
  have later := released.step (.advance 10) rfl
  have waiting := later.step (.within 0 .acquire) rfl
  have reclaimed := waiting.step (.within 0 (.claim 2 fun _ => true)) rfl
  have again := reclaimed.step (.within 0 (.release 7 (some 3010))) rfl
  have due := again.step (.advance 3000) rfl
  have closed := due.step (.within 0 (.fire 3)) rfl
  exact ⟨_, closed, rfl, closed.reclaim_excludes_close⟩

end Timeline

end Registry

end ConnectionPool
