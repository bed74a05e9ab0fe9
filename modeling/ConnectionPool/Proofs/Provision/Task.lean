import ConnectionPool.Proofs.Provision.Invariant
import ConnectionPool.Proofs.Provision.Others

/-!
# The task's part in a provision

The task of an acquisition starts it by `startAcquiring`, goes on with it by `runAcquiring`,
closes the connection of a failed initializer by `beginClose`, and drops it by `dropFrame`.  Each
of them does some events of a provision, all of which may happen then, after steps that others
take.  `Acquiring.does` says which events those of `runAcquiring` are.

`runAcquiring_follows` says that they happen.  Then the acquisition is pending, or its task was
told the lease, or the task was told an error and the slot was given back: `Acquiring.GoneOn`.

Between two turns of the task the others go on.  That is why each theorem speaks of any provision
that mirrors the world.
-/

namespace ConnectionPool

/-! ## Idle connections -/

theorem takeWhile_congr {α : Type} {f g : α → Bool} {l : List α} (same : ∀ x ∈ l, f x = g x) :
    l.takeWhile f = l.takeWhile g ∧ l.dropWhile f = l.dropWhile g := by
  induction l with
  | nil => exact ⟨rfl, rfl⟩
  | cons x rest ih =>
      obtain ⟨taken, dropped⟩ := ih fun y mem => same y (List.mem_cons_of_mem x mem)
      simp only [List.takeWhile_cons, List.dropWhile_cons, same x List.mem_cons_self, taken, dropped]
      exact ⟨trivial, trivial⟩

/-- Only the idle connections are looked at. -/
theorem Entry.takeIdle_congr {e : Entry} {f g : Nat → Bool}
    (same : ∀ i ∈ e.idle, f i.conn = g i.conn) : e.takeIdle f = e.takeIdle g := by
  have closed : ∀ i ∈ e.idle.reverse, (!f i.conn) = !g i.conn := fun i mem =>
    congrArg _ (same i (List.mem_reverse.mp mem))
  obtain ⟨taken, dropped⟩ := takeWhile_congr closed
  simp only [takeIdle, taken, dropped]

theorem Pool.claim_congr {p : Pool} {f g : Nat → Bool} (same : ∀ i ∈ p.entry.idle, f i.conn = g i.conn)
    (t : Nat) : p.claim t f = p.claim t g := by
  simp only [claim, Entry.takeIdle_congr same]

theorem Pool.entry_claim (p : Pool) (t : Nat) (f : Nat → Bool) :
    (p.claim t f).1.entry = (p.entry.takeIdle f).1 := by
  cases taken : (p.entry.takeIdle f).2.1 with
  | none => rw [claim_none taken]; rfl
  | some i => rw [claim_some taken]

/-- A claim leaves idle only what was. -/
theorem Pool.idle_of_claim {p : Pool} {t : Nat} {f : Nat → Bool} {i : Idle}
    (mem : i ∈ (p.claim t f).1.entry.idle) : i ∈ p.entry.idle := by
  rw [entry_claim] at mem
  rw [p.entry.takeIdle_idle f]
  exact List.mem_append_left _ mem

namespace Provision

variable {limit t : Nat} {s s' s'' : Provision} {e : Event} {es : List Event} {exit : Exit}
  {stage : Acquisition.Stage}

/-- A connection that is idle is open unless somebody closed it. -/
theorem isOpen_of_idle {i : Idle} (idle : i ∈ s.pool.entry.idle) :
    s.isOpen i.conn = !s.closed.contains i.conn := by
  have some : (s.handles i.conn != 0) = true :=
    bne_iff_ne.mpr (Nat.pos_iff_ne_zero.mp (handles_pos_of_places (Pool.places_pos_of_idle idle)))
  rw [isOpen, some, Bool.and_true]

/-- Whoever came with an initializer has a ticket. -/
theorem Reachable.lt_of_given (h : Reachable limit s) : ∀ t ∈ s.given, t < s.pool.fresh := by
  induction h with
  | refl => nofun
  | @tail s e before permitted ih =>
      have reachable : Reachable limit s := before
      have more := tickets_le_after reachable.kept.pool.slots permitted
      intro t mem
      cases e with
      | acquire given =>
          have next : (s.after (.acquire given)).pool.fresh = s.pool.fresh + 1 := rfl
          cases given with
          | true =>
              rcases List.mem_cons.mp mem with rfl | old
              · exact next ▸ Nat.lt_succ_self _
              · exact Nat.lt_of_lt_of_le (ih t old) more
          | false => exact Nat.lt_of_lt_of_le (ih t mem) more
      | _ => exact Nat.lt_of_lt_of_le (ih t mem) more

/-- Whoever had a slot gave it back. -/
theorem returned_of_ends (slots : Pool.Slots limit s.pool) (there : s.pool.stage? t = some stage)
    (slot : stage ≠ .queued) : t ∈ (s.after (.ends t exit)).returned := by
  have gives : s.pool.givesBack (.abandon t) = 1 := if_pos ((slots.hasSlot_of_stage? there).mpr slot)
  show t ∈ s.returned ++ List.replicate (s.pool.givesBack (.abandon t)) t
  rw [gives]
  exact List.mem_append_right _ (List.mem_singleton.mpr rfl)

/-- Events happen one after the other, and each of them may. -/
inductive Does : Provision → List Event → Provision → Prop where
  | done (s : Provision) : Does s [] s
  | next {s s' : Provision} {e : Event} {es : List Event} :
      s.permits e → Does (s.after e) es s' → Does s (e :: es) s'

theorem Does.one (permitted : s.permits e) : Does s [e] (s.after e) := .next permitted (.done _)

theorem Does.steps (h : Does s es s') (before : Steps s'' s) : Steps s'' s' := by
  induction h with
  | done _ => exact before
  | next permitted _ ih => exact ih (before.tail _ permitted)

end Provision

namespace Scenario

open Provision Sim

/-- A pool of the world and its connections are those of a provision. -/
structure Mirrors (s : Provision) (r : PoolRef) (w : World) : Prop where
  /-- The pool is the same. -/
  pool : w.poolAt r = some s.pool
  /-- The next connection is a new one. -/
  fresh : s.fresh ≤ w.conns.length
  /-- An idle connection is open if nobody closed it. -/
  idle : ∀ i ∈ s.pool.entry.idle, w.isOpen i.conn = !s.closed.contains i.conn

namespace Acquiring

/-- The connection that an acquisition opens. -/
def connects (a : Acquiring) : Sim (Except ConnectionError Nat) := do
  let config := ((← get).registries[a.pool.registry]?.map (·.config)).getD {}
  Sim.connect a.path .pooled config (some a.pool)

/-- What an acquisition does when its initializer goes on. -/
def prepares (a : Acquiring) (c : Nat) : List Provision.Event :=
  match a.steps with
  | [] => (if a.init.isSome then [.succeeds a.ticket c] else []) ++ [.lease a.ticket c]
  | .fail _ :: _ => [.fails a.ticket c]
  | _ => []

/-- What an acquisition does when its task goes on. -/
def does (a : Acquiring) (incoming : Option Reply) (w : World) :
    Acquisition.Stage → List Provision.Event
  | .queued => []
  | .granted => [.claim a.ticket]
  | .opening =>
    match (a.connects.run w).1 with
    | .error _ => [.ends a.ticket .refused]
    | .ok c => .opened a.ticket c :: if a.init.isSome then [.begins a.ticket c] else []
  | .preparing c =>
    match incoming with
    | some (.failed _ _) => [.fails a.ticket c]
    | _ => a.prepares c
  | .closing _ => [.ends a.ticket .failed]

/-- An acquisition of a task is one of a provision. -/
structure Follows (a : Acquiring) (s : Provision) (incoming : Option Reply) (w : World) : Prop
    extends Mirrors s a.pool w where
  /-- They have an initializer both or neither. -/
  given : a.init.isSome = s.given.contains a.ticket
  /-- It runs from the moment at which the connection is open. -/
  running : ∀ c, s.pool.stage? a.ticket = some (.preparing c) → a.init.isSome →
    s.initializing a.ticket = .running
  /-- Without one there is nothing that can fail. -/
  plain : a.init = none → a.steps = [] ∧ ∀ e seen, incoming ≠ some (.failed e seen)

/-- How it stands with an acquisition after its task went on. -/
inductive GoneOn (n : Nat) (rest : List Frame) (a : Acquiring) (t : Task) (s : Provision)
    (w : World) : Prop where
  /-- It is pending, and its task waits in some frame or goes on with it. -/
  | pending (inner : List Frame) {incoming : Option Reply} {conn : Option Nat}
      {steps : List InitStep} {failure : Option Error} :
      w.tasks[n]? = some { t with
        frames := inner ++ .acquiring { a with conn, steps, failure } :: rest, incoming } →
      (s.pool.stage? a.ticket).isSome →
      Follows { a with conn, steps, failure } s incoming w → GoneOn n rest a t s w
  /-- The task was told the lease. -/
  | leased {c : Nat} {act : Provision.Act} :
      w.tasks[n]? = some { t with
        frames := rest, incoming := some (.object (.lease ⟨c, true, some a.pool⟩)) } →
      act = .reclaims ∨ act = .leases → ⟨a.ticket, c, act⟩ ∈ s.log → GoneOn n rest a t s w
  /-- The task was told an error, and the slot was given back. -/
  | ended {e : Error} :
      w.tasks[n]? = some { t with frames := rest, incoming := some (.failed e none) } →
      a.ticket ∈ s.returned → GoneOn n rest a t s w

/-- After steps of others the events of an acquisition happened. -/
def Advances (n : Nat) (rest : List Frame) (a : Acquiring) (t : Task) (s : Provision)
    (es : List Provision.Event) (w : World) : Prop :=
  ∃ q s', s.pool.Aside q ∧ Does { s with pool := q } es s' ∧ w.poolAt a.pool = some s'.pool ∧
    GoneOn n rest a t s' w

variable {limit n c : Nat} {rest : List Frame} {a : Acquiring} {t : Task} {s : Provision}
  {w : World} {r : PoolRef} {p : Pool} {stage : Acquisition.Stage} {incoming : Option Reply}
  {exit : Provision.Exit}

/-- The events lead to a provision that comes about by events. -/
theorem Advances.reachable {es : List Provision.Event} (h : Advances n rest a t s es w)
    (reachable : Reachable limit s) :
    ∃ s', Reachable limit s' ∧ w.poolAt a.pool = some s'.pool ∧ GoneOn n rest a t s' w := by
  obtain ⟨q, s', aside, does, pool, gone⟩ := h
  exact ⟨s', Steps.trans reachable (does.steps (.aside aside)), pool, gone⟩

theorem task_modifyTask (is : w.tasks[n]? = some t) (f : Task → Task) :
    ((modifyTask n f).run w).2.tasks[n]? = some (f t) := by
  show (w.tasks.modify n f)[n]? = _
  rw [List.getElem?_modify_eq, is]
  rfl

/-- The acquisition is given up after what nothing holds was dropped. -/
theorem run_giveUpAcquiring (there : w.poolAt a.pool = some p)
    (pending : p.stage? a.ticket = some stage) : ∃ q, p.Aside q ∧
      ((giveUpAcquiring a).run w).2.poolAt a.pool = some (q.abandon a.ticket).1 ∧
      ((giveUpAcquiring a).run w).2.tasks = w.tasks ∧
      ∀ c, (reap.run w).2.isOpen c = false → ((giveUpAcquiring a).run w).2.isOpen c = false := by
  have reaped : Others a.pool w (reap.run w).2 := others_reap fun p' is => by
    obtain rfl := Option.some.inj (is.symm.trans there)
    exact Pool.isHeld_of_stage? pending
  obtain ⟨q, now, aside⟩ := reaped.pool p there
  obtain ⟨ready, wakes⟩ := onlyWakes_notify a.pool (q.abandon a.ticket).2
    ((putPool a.pool (q.abandon a.ticket).1).run (reap.run w).2).2
  have run : ((giveUpAcquiring a).run w).2 =
      { ((putPool a.pool (q.abandon a.ticket).1).run (reap.run w).2).2 with ready } := by
    unfold giveUpAcquiring stepPool
    rw [run_bind, run_bind, run_pool?, now]
    exact wakes
  rw [run]
  exact ⟨q, aside, poolAt_putPool now _, reaped.tasks, fun _ => id⟩

/-! ## One stage after the other -/

/-- It looks for an idle connection. -/
theorem Follows.granted (h : a.Follows s incoming w)
    (task : w.tasks[n]? = some { t with frames := .acquiring a :: rest, incoming := none })
    (there : s.pool.stage? a.ticket = some .granted) :
    Advances n rest a t s [.claim a.ticket] ((runAcquiring n rest a incoming).run w).2 := by
  have permitted : s.permits (.claim a.ticket) := by
    simp [permits, booked, ready, Pool.permits, there]
  have looks : s.pool.claim a.ticket (fun c => (w.conns.getD c default).isOpen) =
      s.pool.claim a.ticket s.isOpen :=
    Pool.claim_congr (fun i mem => (h.idle i mem).trans (isOpen_of_idle mem).symm) _
  have put := poolAt_putPool h.pool (s.pool.claim a.ticket s.isOpen).1
  refine ⟨s.pool, s.after (.claim a.ticket), .refl, .one permitted, ?_⟩
  unfold runAcquiring
  rw [run_bind, run_pool?, h.pool]
  simp only [there, run_bind, run_get, looks]
  cases result : (s.pool.claim a.ticket s.isOpen).2 with
  | some c =>
      refine ⟨put, .leased (task_modifyTask task _) (.inl rfl) (List.mem_append_right _ ?_)⟩
      rw [recorded, result]
      exact List.mem_singleton.mpr rfl
  | none =>
      have opening := Pool.stage?_claim there s.isOpen
      rw [result] at opening
      have now : (s.after (.claim a.ticket)).pool.stage? a.ticket = some .opening := opening
      refine ⟨put, .pending [] task (now ▸ rfl) ⟨⟨put, h.fresh, ?_⟩, h.given, ?_, ?_⟩⟩
      · exact fun i mem => h.idle i (Pool.idle_of_claim mem)
      · intro c preparing
        rw [now] at preparing
        cases preparing
      · intro plain
        refine ⟨(h.plain plain).1, fun e seen is => ?_⟩
        cases is

/-- It ends with an error. -/
theorem Follows.gaveUp (h : a.Follows s incoming w) (reachable : Reachable limit s)
    (task : w.tasks[n]? = some { t with frames := .acquiring a :: rest, incoming := none })
    (there : s.pool.stage? a.ticket = some stage) (slot : stage ≠ .queued)
    (allowed : s.allows a.ticket exit stage) (e : Error) :
    Advances n rest a t s [.ends a.ticket exit] ((do
      setFrames n rest
      giveUpAcquiring a
      reply n rest (.failed e none) : Sim Progress).run w).2 := by
  have slots := reachable.kept.pool.slots
  have left := task_modifyTask task fun t => { t with frames := rest }
  have pool : ((setFrames n rest).run w).2.poolAt a.pool = some s.pool := h.pool
  obtain ⟨q, aside, now, tasks, -⟩ := run_giveUpAcquiring pool there
  rw [run_bind, run_bind]
  generalize ((giveUpAcquiring a).run ((setFrames n rest).run w).2).2 = w' at now tasks ⊢
  have still := aside.stage? slots there slot
  have permitted : ({ s with pool := q } : Provision).permits (.ends a.ticket exit) := by
    have may : ({ s with pool := q } : Provision).allows a.ticket exit stage := allowed
    simp [permits, booked, ready, Pool.permits, still, may]
  refine ⟨q, _, aside, .one permitted, now,
    .ended (task_modifyTask ((congrArg (·[n]?) tasks).trans left) _) ?_⟩
  exact returned_of_ends (s := { s with pool := q }) (aside.slots slots) still slot

/-- Its initializer fails, and its connection is closed next. -/
theorem Follows.fails (h : a.Follows s incoming w)
    (task : w.tasks[n]? = some { t with frames := .acquiring a :: rest, incoming := none })
    (there : s.pool.stage? a.ticket = some (.preparing c)) (given : a.init.isSome)
    (steps : List InitStep) (e : Error) :
    Advances n rest a t s [.fails a.ticket c]
      ((failInitializer n rest { a with steps } c e).run w).2 := by
  have permitted : s.permits (.fails a.ticket c) := by
    simp [permits, booked, ready, Pool.permits, there, h.running c there given]
  have put := poolAt_putPool h.pool (s.pool.initializerFailed a.ticket c)
  have now : (s.pool.initializerFailed a.ticket c).stage? a.ticket = some (.closing c) :=
    Pool.stage?_setStage there _
  refine ⟨s.pool, s.after (.fails a.ticket c), .refl, .one permitted, ?_⟩
  unfold failInitializer
  rw [run_bind, run_modifyPool h.pool]
  refine ⟨put, .pending [.closing c false] (task_modifyTask task _) ?_
    ⟨⟨put, h.fresh, h.idle⟩, h.given, ?_, ?_⟩⟩
  · show ((s.pool.initializerFailed a.ticket c).stage? a.ticket).isSome
    rw [now]
    rfl
  · intro c preparing
    have closing : (s.pool.initializerFailed a.ticket _).stage? a.ticket = _ := preparing
    rw [now] at closing
    cases closing
  · intro plain
    rw [show a.init = none from plain] at given
    cases given

/-- It is prepared, and becomes a lease. -/
theorem Follows.leases (h : a.Follows s incoming w)
    (task : w.tasks[n]? = some { t with frames := .acquiring a :: rest, incoming := none })
    (there : s.pool.stage? a.ticket = some (.preparing c)) (prepared : a.steps = []) :
    Advances n rest a t s (a.prepares c) ((prepare n rest a c).run w).2 := by
  have put := poolAt_putPool h.pool (s.pool.lease a.ticket c)
  have told (s' : Provision) : GoneOn n rest a t (s'.after (.lease a.ticket c))
      ((leased n rest a.pool c).run ((putPool a.pool (s.pool.lease a.ticket c)).run w).2).2 :=
    .leased (task_modifyTask task _) (.inr rfl) (List.mem_append_right _ (List.mem_singleton.mpr rfl))
  unfold prepare prepares
  rw [prepared]
  simp only [run_bind, run_modifyPool h.pool]
  cases given : a.init.isSome with
  | true =>
      have succeeds : s.permits (.succeeds a.ticket c) := by
        simp [permits, booked, ready, there, h.running c there given]
      have leases : (s.after (.succeeds a.ticket c)).permits (.lease a.ticket c) := by
        have same : (s.after (.succeeds a.ticket c)).pool = s.pool := rfl
        have now : (s.after (.succeeds a.ticket c)).initializing a.ticket = .succeeded :=
          Function.update_self ..
        simp [permits, booked, ready, Pool.permits, same, there, now]
      exact ⟨s.pool, _, .refl, .next succeeds (.one leases), put, told _⟩
  | false =>
      have leases : s.permits (.lease a.ticket c) := by
        have none : s.given.contains a.ticket = false := h.given.symm.trans given
        rw [permits, ready, none]
        simp [booked, Pool.permits, there]
      exact ⟨s.pool, _, .refl, .one leases, put, told _⟩

/-- It waits for a step of its initializer, or for the refusal of one. -/
theorem Follows.waits (h : a.Follows s incoming w) (reachable : Reachable limit s)
    (there : s.pool.stage? a.ticket = some (.preparing c)) (given : a.init.isSome) {w' : World}
    (others : Others a.pool w w') (opens : ∀ k, w'.isOpen k = w.isOpen k) (steps : List InitStep)
    (inner : List Frame) {reply : Option Reply} {f : Task → Task}
    (told : ((modifyTask n f).run w').2.tasks[n]? = some { t with
      frames := inner ++ .acquiring { a with steps } :: rest, incoming := reply }) :
    Advances n rest a t s [] ((modifyTask n f).run w').2 := by
  obtain ⟨q, now, aside⟩ := others.pool s.pool h.pool
  have still := aside.stage? reachable.kept.pool.slots there nofun
  have pending : (q.stage? a.ticket).isSome := still ▸ rfl
  refine ⟨q, _, aside, .done _, now, .pending inner told pending ⟨⟨now, ?_, ?_⟩, h.given, ?_, ?_⟩⟩
  · exact others.conns.symm ▸ h.fresh
  · intro i mem
    exact (opens i.conn).trans (h.idle i (aside.idle ▸ mem))
  · intro c' preparing _
    exact h.running c there given
  · intro plain
    rw [show a.init = none from plain] at given
    cases given

/-- Its initializer goes on. -/
theorem Follows.prepares (h : a.Follows s incoming w) (reachable : Reachable limit s)
    (task : w.tasks[n]? = some { t with frames := .acquiring a :: rest, incoming := none })
    (there : s.pool.stage? a.ticket = some (.preparing c)) :
    Advances n rest a t s (a.prepares c) ((prepare n rest a c).run w).2 := by
  cases left : a.steps with
  | nil => exact h.leases task there left
  | cons step steps =>
      have given : a.init.isSome := by
        by_contra none
        have nothing := (h.plain (Option.not_isSome_iff_eq_none.mp none)).1
        rw [left] at nothing
        cases nothing
      unfold prepare Acquiring.prepares
      rw [left]
      cases step with
      | fail message => exact h.fails task there given steps _
      | gate name =>
          exact h.waits reachable there given (.refl w) (fun _ => rfl) steps
            [.gate name none] (task_modifyTask task _)
      | run sql =>
          obtain ⟨others, opens⟩ := spares_submitQuery (r := a.pool) c .run ⟨sql, .none⟩ w
          have task' := (congrArg (·[n]?) others.tasks).trans task
          simp only [run_bind]
          cases ((submitQuery c .run ⟨sql, .none⟩).run w).1 with
          | some id =>
              exact h.waits reachable there given others opens steps [.item c id]
                (task_modifyTask task' _)
          | none =>
              exact h.waits reachable there given others opens steps []
                (task_modifyTask task' _)

/-- To show a connection changes nothing but its label. -/
theorem label_keeps (c : Nat) (w : World) : ((label c).run w).2.registries = w.registries ∧
    ((label c).run w).2.tasks = w.tasks ∧ ((label c).run w).2.conns.length = w.conns.length ∧
    ∀ k, ((label c).run w).2.isOpen k = w.isOpen k := by
  unfold label
  rw [run_bind]
  split
  · exact ⟨rfl, rfl, rfl, fun _ => rfl⟩
  · refine ⟨rfl, rfl, List.length_modify .., fun k => ?_⟩
    refine (isOpen_modifyConn k c _ _).trans ?_
    split <;> rfl

theorem labelled {s : Provision} (h : Mirrors s r w) (c : Nat) :
    Mirrors s r ((label c).run w).2 := by
  obtain ⟨registries, -, conns, same⟩ := label_keeps c w
  exact ⟨(poolAt_of_registries registries r).trans h.pool, conns ▸ h.fresh, fun i mem =>
    (same i.conn).trans (h.idle i mem)⟩

/-- There is one more connection. -/
theorem Follows.opened (h : a.Follows s incoming w) (reachable : Reachable limit s)
    (there : s.pool.stage? a.ticket = some .opening) (engine : Engine) (x : Connection) :
    s.permits (.opened a.ticket w.conns.length) ∧
      Mirrors (s.after (.opened a.ticket w.conns.length)) a.pool
        ((putPool a.pool (s.pool.opened a.ticket w.conns.length)).run
          { w with engine, conns := w.conns ++ [x] }).2 := by
  have pool : World.poolAt { w with engine, conns := w.conns ++ [x] } a.pool = some s.pool := h.pool
  have long : (w.conns ++ [x]).length = w.conns.length + 1 := List.length_append
  refine ⟨by simp [permits, booked, ready, Pool.permits, there, h.fresh],
    poolAt_putPool pool _, long.ge, fun i mem => ?_⟩
  have old := reachable.kept.lt_of_places (Pool.places_pos_of_idle mem)
  have there : i.conn < w.conns.length := Nat.lt_of_lt_of_le old h.fresh
  refine Eq.trans ?_ (h.idle i mem)
  show ((w.conns ++ [x]).getD i.conn default).isOpen = _
  rw [World.isOpen, List.getD_eq_getElem?_getD, List.getElem?_append_left there,
    List.getD_eq_getElem?_getD]

/-- Its initializer may begin. -/
theorem Follows.begins (h : a.Follows s incoming w) (reachable : Reachable limit s)
    (there : s.pool.stage? a.ticket = some .opening) (given : a.init.isSome) (c : Nat) :
    (s.after (.opened a.ticket c)).permits (.begins a.ticket c) := by
  have now : (s.after (.opened a.ticket c)).pool.stage? a.ticket = some (.preparing c) :=
    Pool.stage?_setStage there _
  have mem : a.ticket ∈ (s.after (.opened a.ticket c)).given :=
    List.contains_iff_mem.mp (h.given ▸ given)
  have pending : (s.after (.opened a.ticket c)).initializing a.ticket = .pending :=
    (reachable.kept.stands _ _ there).1
  simp [permits, booked, ready, now, pending, mem]

/-- Once the connection is open its initializer begins, if there is one. -/
theorem Follows.connected (h : a.Follows s incoming w) (reachable : Reachable limit s)
    (there : s.pool.stage? a.ticket = some .opening) (opens : s.permits (.opened a.ticket c))
    {w' : World} (mirrors : Mirrors (s.after (.opened a.ticket c)) a.pool w')
    (task : w'.tasks[n]? = some { t with frames := .acquiring a :: rest, incoming := none }) :
    Advances n rest a t s
      (.opened a.ticket c :: if a.init.isSome then [.begins a.ticket c] else [])
      ((match a.init with
        | none => become n rest (.acquiring { a with conn := some c })
        | some steps => do
          event ("init " ++ labelName (← label c))
          become n rest (.acquiring { a with conn := some c, steps }) : Sim Progress).run w').2 := by
  have now : (s.after (.opened a.ticket c)).pool.stage? a.ticket = some (.preparing c) :=
    Pool.stage?_setStage there _
  split
  · next given =>
      split
      · next none =>
          rw [none] at given
          cases given
      · next steps init =>
          have begins := h.begins reachable there given c
          have labelled := labelled mirrors c
          obtain ⟨-, tasks, -, -⟩ := label_keeps c w'
          have told := task_modifyTask ((congrArg (·[n]?) tasks).trans task) fun t => { t with
            frames := .acquiring { a with conn := some c, steps } :: rest }
          refine ⟨s.pool, _, .refl, .next opens (.one begins), labelled.pool, .pending [] told
            (now ▸ rfl) ⟨⟨labelled.pool, labelled.fresh, labelled.idle⟩, h.given,
              fun _ _ _ => Function.update_self .., fun plain => ?_⟩⟩
          rw [show a.init = none from plain] at init
          cases init
  · next plain =>
      split
      · next none =>
          refine ⟨s.pool, _, .refl, .one opens, mirrors.pool, .pending [] (task_modifyTask task _)
            (now ▸ rfl) ⟨⟨mirrors.pool, mirrors.fresh, mirrors.idle⟩, h.given,
              fun _ _ given => absurd given plain, fun _ => ⟨(h.plain none).1, nofun⟩⟩⟩
      · next steps init =>
          rw [init] at plain
          exact absurd rfl plain

/-- The connection it opens is opened, or its slot is given back. -/
theorem Follows.opens (h : a.Follows s incoming w) (reachable : Reachable limit s)
    (task : w.tasks[n]? = some { t with frames := .acquiring a :: rest, incoming := none })
    (there : s.pool.stage? a.ticket = some .opening) :
    Advances n rest a t s (a.does incoming w .opening)
      ((runAcquiring n rest a incoming).run w).2 := by
  unfold runAcquiring does
  rw [run_bind, run_pool?, h.pool]
  simp only [there, run_bind, run_get]
  unfold openPooled
  rcases connect_cases w a.path .pooled ((w.registries[a.pool.registry]?.map (·.config)).getD {})
    (some a.pool) with ⟨e, failed⟩ | ⟨engine, session, opened⟩
  · have connects : a.connects.run w = (.error e, w) := failed
    rw [run_bind, failed, connects]
    exact h.gaveUp reachable task there nofun rfl _
  · obtain ⟨x, opened⟩ : ∃ x, (connect a.path .pooled _ (some a.pool)).run w =
        (.ok w.conns.length, { w with engine, conns := w.conns ++ [x] }) := ⟨_, opened⟩
    have connects : a.connects.run w = (.ok w.conns.length, _) := opened
    have pool : World.poolAt { w with engine, conns := w.conns ++ [x] } a.pool = some s.pool :=
      h.pool
    obtain ⟨opens, mirrors⟩ := h.opened reachable there engine x
    rw [run_bind, opened, connects]
    simp only [run_bind, run_modifyPool pool]
    exact h.connected reachable there opens mirrors task

/-- The connection of a failed initializer is closed. -/
theorem Follows.closing (h : a.Follows s incoming w) (reachable : Reachable limit s)
    (there : s.pool.stage? a.ticket = some (.closing c)) :
    ∃ q, s.pool.Aside q ∧ ({ s with pool := q } : Provision).permits (.close c) ∧
      a.Follows (({ s with pool := q } : Provision).after (.close c)) incoming
        ((beginClose c).run w).2 ∧ ((beginClose c).run w).2.isOpen c = false := by
  have kept := reachable.kept
  obtain ⟨others, closes, spares⟩ := beginClose_closes a.pool c w
  obtain ⟨q, now, aside⟩ := others.pool s.pool h.pool
  have still := aside.stage? kept.pool.slots there nofun
  have has : (⟨a.ticket, .closing c⟩ : Acquisition).has c := beq_self_eq_true c
  have old := kept.lt_of_places (Pool.places_pos_of_has there has)
  refine ⟨q, aside, ?_, ⟨⟨now, others.conns ▸ h.fresh, ?_⟩, h.given, ?_, h.plain⟩,
    closes (Nat.lt_of_lt_of_le old h.fresh)⟩
  · have handles : 0 < ({ s with pool := q } : Provision).handles c :=
      handles_pos_of_places (Pool.places_pos_of_has still has)
    exact bne_iff_ne.mpr (Nat.pos_iff_ne_zero.mp handles)
  · intro i mem
    have idle : i ∈ s.pool.entry.idle := aside.idle ▸ mem
    have other := Pool.not_idle_of_has (kept.once c) there has i idle
    show _ = !(c :: s.closed).contains i.conn
    rw [spares i.conn other, h.idle i idle, List.contains_cons, beq_false_of_ne other,
      Bool.false_or]
  · intro c' preparing
    rw [show q.stage? a.ticket = _ from preparing] at still
    cases still

/-- Its slot is given back after its connection was closed. -/
theorem Follows.closes (h : a.Follows s incoming w) (reachable : Reachable limit s)
    (task : w.tasks[n]? = some { t with frames := .acquiring a :: rest, incoming := none })
    (there : s.pool.stage? a.ticket = some (.closing c)) (closed : c ∈ s.closed) :
    Advances n rest a t s [.ends a.ticket .failed] ((runAcquiring n rest a incoming).run w).2 := by
  have allowed : s.allows a.ticket .failed (.closing c) := List.contains_iff_mem.mpr closed
  unfold runAcquiring
  rw [run_bind, run_pool?, h.pool]
  simp only [there]
  exact h.gaveUp reachable task there nofun allowed _

/-- A task goes on with an acquisition.  Whatever others do by that, the acquisition does what a
provision allows. -/
theorem runAcquiring_follows (h : a.Follows s incoming w) (reachable : Reachable limit s)
    (task : w.tasks[n]? = some { t with frames := .acquiring a :: rest, incoming := none })
    (there : s.pool.stage? a.ticket = some stage) (closed : ∀ c, stage = .closing c → c ∈ s.closed) :
    Advances n rest a t s (a.does incoming w stage) ((runAcquiring n rest a incoming).run w).2 := by
  cases stage with
  | queued =>
      unfold runAcquiring
      rw [run_bind, run_pool?, h.pool]
      simp only [there]
      refine ⟨s.pool, s, .refl, .done _, h.pool, .pending [] task (there ▸ rfl)
        ⟨h.toMirrors, h.given, h.running, fun plain => ⟨(h.plain plain).1, nofun⟩⟩⟩
  | granted => exact h.granted task there
  | opening => exact h.opens reachable task there
  | preparing c =>
      unfold runAcquiring does
      rw [run_bind, run_pool?, h.pool]
      simp only [there]
      cases incoming with
      | none => exact h.prepares reachable task there
      | some reply =>
          cases reply with
          | failed e seen =>
              have given : a.init.isSome := by
                by_contra none
                exact (h.plain (Option.not_isSome_iff_eq_none.mp none)).2 e seen rfl
              exact h.fails task there given a.steps e
          | _ => exact h.prepares reachable task there
  | closing c => exact h.closes reachable task there (closed c rfl)

/-- An acquisition that is dropped, whatever its stage, is given up.  A connection that nothing
else holds is closed then. -/
theorem dropFrame_follows (there : w.poolAt a.pool = some s.pool) (reachable : Reachable limit s)
    (pending : s.pool.stage? a.ticket = some stage) :
    (∃ q s', s.pool.Aside q ∧ Does { s with pool := q } [.ends a.ticket .dropped] s' ∧
      ((dropFrame (.acquiring a)).run w).2.poolAt a.pool = some s'.pool) ∧
    ∀ c, c < w.conns.length → c ∉ heldConns w →
      ((w.conns.getD c default).dropped → w.isOpen c = false) →
      ((dropFrame (.acquiring a)).run w).2.isOpen c = false := by
  obtain ⟨q, aside, now, -, closed⟩ := run_giveUpAcquiring there pending
  have still : ∃ stage, q.stage? a.ticket = some stage := by
    rcases aside.leftAlone reachable.kept.pool.slots (t := a.ticket) with same | ⟨-, granted⟩
    · exact ⟨stage, same.trans pending⟩
    · exact ⟨.granted, granted⟩
  obtain ⟨stage', is⟩ := still
  have permitted : ({ s with pool := q } : Provision).permits (.ends a.ticket .dropped) := by
    simp [permits, booked, ready, Pool.permits, is, allows]
  refine ⟨⟨q, _, aside, .one permitted, now⟩, fun c there unheld dropped => ?_⟩
  exact closed c (isOpen_of_reap there unheld dropped)

/-- A task asks for a pooled connection. -/
theorem startAcquiring_follows {registry primary : Nat} {init : Option (List InitStep)} {w' : World}
    (file : (w.conns.getD primary default).path.isMemory = false)
    (found : (poolFor registry (w.conns.getD primary default).path).run w = (r, w'))
    (mirrors : Mirrors s r w') (reachable : Reachable limit s) (task : w.tasks[n]? = some t) :
    ∃ b : Acquiring, b.pool = r ∧ b.ticket = s.pool.fresh ∧ b.init = init ∧
      s.permits (.acquire init.isSome) ∧
      ((startAcquiring n rest registry primary true init).run w).2.tasks[n]? =
        some { t with frames := .acquiring b :: rest } ∧
      b.Follows (s.after (.acquire init.isSome)) none
        ((startAcquiring n rest registry primary true init).run w).2 := by
  have slots := reachable.kept.pool.slots
  have tasks : w'.tasks = w.tasks := by
    have kept : ((poolFor registry (w.conns.getD primary default).path).run w).2.tasks =
        w.tasks := by
      unfold poolFor
      rw [run_bind]
      split <;> rfl
    rwa [found] at kept
  have read : (Sim.conn primary).run w = (w.conns.getD primary default, w) := rfl
  have put := poolAt_putPool mirrors.pool s.pool.acquire.1
  have young : s.given.contains s.pool.fresh = false := by
    refine Bool.eq_false_iff.mpr fun given => ?_
    exact absurd (reachable.lt_of_given _ (List.contains_iff_mem.mp given)) (Nat.lt_irrefl _)
  unfold startAcquiring
  simp only [run_bind, read, file, found, run_pool?, mirrors.pool, Bool.not_true, Bool.or_self,
    Bool.false_eq_true, if_false]
  refine ⟨_, rfl, rfl, rfl, rfl, task_modifyTask (tasks ▸ task) _, ⟨put, mirrors.fresh, ?_⟩, ?_, ?_, ?_⟩
  · exact fun i mem => mirrors.idle i ((Pool.Quiet.acquire s.pool).idle ▸ mem)
  · cases init with
    | none => exact young.symm
    | some steps => exact (List.contains_iff_mem.mpr List.mem_cons_self).symm
  · intro c preparing
    have joined := (Pool.stage?_acquire slots).symm.trans preparing
    split at joined <;> cases joined
  · exact fun _ => ⟨rfl, nofun⟩

end Acquiring

end Scenario

end ConnectionPool
