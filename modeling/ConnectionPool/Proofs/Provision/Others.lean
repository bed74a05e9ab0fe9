import ConnectionPool.Proofs.Provision.System
import ConnectionPool.Proofs.Query.Handover
import ConnectionPool.Scenario.Task

/-!
# What others do to a pool

A task that goes on begins and ends retries on its way, closes connections, and drops what
nothing holds any more.  No pooled connection and no acquisition is in the steps that the pools
take by that, no connection is opened again, and the tasks stay as they are: `LetsBe`.

A connection that nothing holds is closed: `isOpen_of_reap`.
-/

namespace ConnectionPool

namespace Pool

variable {limit t : Nat} {p q r : Pool} {stage : Acquisition.Stage}

theorem isHeld_of_stage? (there : p.stage? t = some stage) : p.isHeld := by
  have some : p.acquisitions ≠ [] := List.ne_nil_of_mem (mem_of_stage? there)
  simp [isHeld, some]

/-- A pool comes about by steps that no pooled connection and no acquisition is in. -/
inductive Aside (p : Pool) : Pool → Prop where
  | refl : Aside p p
  | tail {q : Pool} (e : Event) : Aside p q → Provision.isAside e → q.permits e →
      Aside p (q.after e)

namespace Aside

theorem step (e : Event) (aside : Provision.isAside e) (permitted : p.permits e) :
    Aside p (p.after e) := .tail e .refl aside permitted

theorem trans (h : Aside p q) (h' : Aside q r) : Aside p r := by
  induction h' with
  | refl => exact h
  | tail e _ aside permitted ih => exact ih.tail e aside permitted

theorem slots (h : Aside p q) (slots : Slots limit p) : Slots limit q := by
  induction h with
  | refl => exact slots
  | tail e _ _ permitted ih => exact ih.after e permitted

theorem idle (h : Aside p q) : q.entry.idle = p.entry.idle := by
  induction h with
  | refl => rfl
  | @tail q e _ aside _ ih =>
      have still : e.moves = false := by cases e <;> first | rfl | cases aside
      exact (quiet_after q still).idle.trans ih

/-- An acquisition stays where it is, or is granted the slot it waits for. -/
theorem leftAlone (h : Aside p q) (slots : Slots limit p) : LeftAlone t p q := by
  induction h with
  | refl => exact .of_eq rfl
  | @tail q e before aside permitted ih =>
      have other : e.isOf t = false := by cases e <;> first | rfl | cases aside
      have old : e = .acquire → t ≠ q.fresh := by
        rintro rfl
        cases aside
      have step := leftAlone_after (before.slots slots) permitted other old
      rcases ih with same | ⟨waits, granted⟩
      · rwa [LeftAlone, same] at step
      · rcases step with same | ⟨waits', -⟩
        · exact .inr ⟨waits, same.trans granted⟩
        · rw [granted] at waits'
          cases waits'

/-- One with a slot stays where it is. -/
theorem stage? (h : Aside p q) (slots : Slots limit p) (there : p.stage? t = some stage)
    (slot : stage ≠ .queued) : q.stage? t = some stage := by
  rcases h.leftAlone slots with same | ⟨waits, -⟩
  · exact same.trans there
  · rw [there] at waits
    exact absurd (Option.some.inj waits) slot

end Aside

end Pool

namespace Provision

variable {s : Provision} {q : Pool}

/-- What others do with the pool changes nothing else. -/
theorem Steps.aside (h : s.pool.Aside q) : Steps s { s with pool := q } := by
  induction h with
  | refl => exact .refl
  | @tail q e _ aside permitted ih =>
      have event := ih.tail (.aside e) (by simp [permits, booked, ready, aside, permitted])
      have same : ({ s with pool := q } : Provision).after (.aside e) =
          { s with pool := q.after e } := by simp [after, booked, recorded]
      rwa [same] at event

end Provision

namespace Scenario

/-- A connection is there and accepts work, or is not there. -/
def World.isOpen (w : World) (c : Nat) : Bool := (w.conns.getD c default).isOpen

namespace Sim

variable {α β : Type} {w w' w'' : World} {r : PoolRef} {p q : Pool} {c : Nat}

/-! ## Pools and connections of a world -/

theorem poolAt_of_registries (same : w'.registries = w.registries) (r : PoolRef) :
    w'.poolAt r = w.poolAt r := by
  rw [World.poolAt, same, World.poolAt]

theorem poolAt_putPool_ne {r' : PoolRef} (ne : r ≠ r') (w : World) (q : Pool) :
    ((putPool r' q).run w).2.poolAt r = w.poolAt r := by
  show (((w.registries.modify r'.registry fun reg => reg.put r'.pool q)[r.registry]?.bind
    fun reg => reg.get? r.pool).map (·.pool)) = _
  rw [List.getElem?_modify, World.poolAt]
  cases w.registries[r.registry]? with
  | none => rfl
  | some reg =>
      show Option.map _ ((if r'.registry = r.registry then reg.put r'.pool q else reg).get?
        r.pool) = _
      split
      · next same =>
          have other : r.pool ≠ r'.pool := by
            rintro is
            obtain ⟨registry, pool⟩ := r
            obtain ⟨registry', pool'⟩ := r'
            exact ne (PoolRef.mk.injEq .. ▸ ⟨same.symm, is⟩)
          have kept : (reg.put r'.pool q).get? r.pool = reg.get? r.pool :=
            find?_replaceKey_ne other fun _ => id
          rw [kept]
          rfl
      · rfl

theorem run_modifyPool (there : w.poolAt r = some p) (f : Pool → Pool) :
    (modifyPool r f).run w = (putPool r (f p)).run w := by
  unfold modifyPool
  rw [run_bind, run_pool?, there]

theorem isOpen_modifyConn (c k : Nat) (f : Connection → Connection) (w : World) :
    ((modifyConn k f).run w).2.isOpen c =
      if k = c ∧ c < w.conns.length then (f (w.conns.getD c default)).isOpen else w.isOpen c := by
  show ((w.conns.modify k f).getD c default).isOpen = _
  rw [World.isOpen, List.getD_eq_getElem?_getD, List.getD_eq_getElem?_getD, List.getElem?_modify]
  by_cases there : c < w.conns.length
  · rw [List.getElem?_eq_getElem there]
    by_cases is : k = c <;> simp [is, there]
  · rw [List.getElem?_eq_none (Nat.le_of_not_lt there)]
    simp [there]

/-- What others do: some steps of a pool, and no connection is opened again. -/
structure Others (r : PoolRef) (w w' : World) : Prop where
  /-- No pooled connection and no acquisition is in the steps of the pool. -/
  pool : ∀ p, w.poolAt r = some p → ∃ q, w'.poolAt r = some q ∧ p.Aside q
  /-- No connection comes. -/
  conns : w'.conns.length = w.conns.length
  /-- Those that are closed stay so. -/
  closed : ∀ c, w.isOpen c = false → w'.isOpen c = false
  /-- The tasks are where they were. -/
  tasks : w'.tasks = w.tasks

namespace Others

theorem of_eq (registries : w'.registries = w.registries) (conns : w'.conns = w.conns)
    (tasks : w'.tasks = w.tasks) : Others r w w' where
  pool p there := ⟨p, (poolAt_of_registries registries r).trans there, .refl⟩
  conns := congrArg List.length conns
  closed c shut := by rw [World.isOpen, conns]; exact shut
  tasks := tasks

theorem refl (w : World) : Others r w w := .of_eq rfl rfl rfl

theorem trans (h : Others r w w') (h' : Others r w' w'') : Others r w w'' where
  pool p there := by
    obtain ⟨q, now, aside⟩ := h.pool p there
    obtain ⟨q', later, aside'⟩ := h'.pool q now
    exact ⟨q', later, aside.trans aside'⟩
  conns := h'.conns.trans h.conns
  closed c shut := h'.closed c (h.closed c shut)
  tasks := h'.tasks.trans h.tasks

/-- A pool, this one or another, takes steps. -/
theorem putPool {r' : PoolRef} (there : w.poolAt r' = some p) (aside : p.Aside q) :
    Others r w ((Sim.putPool r' q).run w).2 where
  pool p' is := by
    by_cases same : r = r'
    · subst same
      obtain rfl := Option.some.inj (is.symm.trans there)
      exact ⟨q, poolAt_putPool there q, aside⟩
    · exact ⟨p', (poolAt_putPool_ne same w q).trans is, .refl⟩
  conns := rfl
  closed _ := id
  tasks := rfl

theorem modifyConn (k : Nat) (f : Connection → Connection)
    (keeps : (w.conns.getD k default).isOpen = false →
      (f (w.conns.getD k default)).isOpen = false) :
    Others r w ((Sim.modifyConn k f).run w).2 where
  pool p there := ⟨p, there, .refl⟩
  conns := List.length_modify ..
  closed c shut := by
    rw [isOpen_modifyConn]
    split
    · next is =>
        obtain ⟨rfl, -⟩ := is
        exact keeps shut
    · exact shut
  tasks := rfl

end Others

/-! ## What lets the others be -/

/-- A computation takes the pools through steps of others only. -/
def LetsBe (r : PoolRef) (m : Sim α) : Prop := ∀ w, Others r w (m.run w).2

namespace LetsBe

theorem done {x : α} : LetsBe r (pure x : Sim α) := .refl

theorem get : LetsBe r get := .refl

theorem bind {m : Sim α} {k : α → Sim β} (h : LetsBe r m) (h' : ∀ x, LetsBe r (k x)) :
    LetsBe r (m >>= k) := fun w => (h w).trans (h' _ _)

theorem onlyWakes {m : Sim α} (h : OnlyWakes m) : LetsBe r m := fun w => by
  obtain ⟨ready, after⟩ := h w
  rw [after]
  exact .of_eq rfl rfl rfl

theorem forIn {xs : List α} {f : α → PUnit → Sim (ForInStep PUnit)}
    (h : ∀ x y, LetsBe r (f x y)) : LetsBe r (forIn xs PUnit.unit f) :=
  rel_forIn Others.refl Others.trans h

theorem notify (r' : PoolRef) (woken : Option Waiter) : LetsBe r (Sim.notify r' woken) :=
  .onlyWakes (onlyWakes_notify r' woken)

theorem modifyPool (r' : PoolRef) {f : Pool → Pool} (aside : ∀ p : Pool, p.Aside (f p)) :
    LetsBe r (Sim.modifyPool r' f) := fun w => by
  cases there : w.poolAt r' with
  | none =>
      unfold Sim.modifyPool
      rw [run_bind, run_pool?, there]
      exact .refl w
  | some p =>
      rw [run_modifyPool there]
      exact .putPool there (aside p)

theorem stepPool (r' : PoolRef) {f : Pool → Pool × Option Waiter}
    (aside : ∀ p : Pool, p.Aside (f p).1) : LetsBe r (Sim.stepPool r' f) := fun w => by
  unfold Sim.stepPool
  rw [run_bind, run_pool?]
  cases there : w.poolAt r' with
  | none => exact .refl w
  | some p => exact (Others.putPool there (aside p)).trans (notify r' _ _)

theorem event (text : String) : LetsBe r (Sim.event text) := fun _ => .of_eq rfl rfl rfl

theorem modifyConn (k : Nat) {f : Connection → Connection}
    (keeps : ∀ x, x.isOpen = false → (f x).isOpen = false) : LetsBe r (Sim.modifyConn k f) :=
  fun _ => .modifyConn k f (keeps _)

theorem endRetries (retry : Option (PoolRef × Nat)) : LetsBe r (Sim.endRetries retry) := by
  unfold Sim.endRetries
  split
  · next r' id => exact .stepPool r' fun p => .step (.endRetries id) rfl rfl
  · exact .done

theorem beginRetries (r' : Option PoolRef) : LetsBe r (Sim.beginRetries r') := fun w => by
  cases r' with
  | none => exact .refl w
  | some r' =>
      unfold Sim.beginRetries
      simp only [run_bind, run_pool?]
      cases there : w.poolAt r' with
      | none => exact .refl w
      | some p => exact .putPool there (.step .beginRetries rfl rfl)

end LetsBe

theorem isOpen_shut (x : Connection) (membership : Membership PoolRef) :
    Connection.isOpen { x with toMembership := membership, queue := x.queue.requestClose } =
      false := Bool.and_false _

theorem letsBe_shut (c : Nat) : LetsBe r (shut c) := by
  unfold shut
  refine .bind .get fun w => ?_
  split
  have closes (membership : Membership PoolRef) : LetsBe r (do
      modifyConn c fun x => { x with toMembership := membership, queue := x.queue.requestClose }
      wake (.worker c)) :=
    .bind (.modifyConn c fun x _ => isOpen_shut x membership) fun _ => .onlyWakes (onlyWakes_wake _)
  split
  · exact .bind (.modifyPool _ fun p => .step .closePrimary rfl rfl) fun _ => closes _
  · exact closes _

/-- A connection that is shut is closed. -/
theorem isOpen_of_shut (there : c < w.conns.length) : ((shut c).run w).2.isOpen c = false := by
  have closes (membership : Membership PoolRef) {w : World} (there : c < w.conns.length) :
      ((do
        modifyConn c fun x => { x with toMembership := membership, queue := x.queue.requestClose }
        wake (.worker c) : Sim Unit).run w).2.isOpen c = false := by
    rw [run_bind]
    refine (LetsBe.onlyWakes (r := ⟨0, 0⟩) (onlyWakes_wake _) _).closed c ?_
    rw [isOpen_modifyConn, if_pos ⟨rfl, there⟩, isOpen_shut]
  unfold shut
  rw [run_bind]
  split
  split
  · next r counted =>
      have kept := (LetsBe.modifyPool (r := r) r fun p => .step .closePrimary rfl rfl) w
      rw [run_bind]
      exact closes _ (kept.conns ▸ there)
  · exact closes _ there

/-- No other connection is. -/
theorem isOpen_shut_ne {k : Nat} (other : k ≠ c) : ((shut c).run w).2.isOpen k = w.isOpen k := by
  have spares (membership : Membership PoolRef) (w : World) :
      ((do
        modifyConn c fun x => { x with toMembership := membership, queue := x.queue.requestClose }
        wake (.worker c) : Sim Unit).run w).2.isOpen k = w.isOpen k := by
    obtain ⟨ready, wakes⟩ := onlyWakes_wake (.worker c) ((modifyConn c fun x =>
      { x with toMembership := membership, queue := x.queue.requestClose }).run w).2
    rw [run_bind, wakes]
    refine (isOpen_modifyConn k c _ w).trans (if_neg fun is => other is.1.symm)
  unfold shut
  rw [run_bind]
  split
  split
  · next r counted =>
      rw [run_bind]
      obtain ⟨conns, -⟩ := quiet_modifyPool r Pool.closePrimary w
      refine (spares _ _).trans ?_
      exact congrArg (fun conns => (List.getD conns k default).isOpen) conns
  · exact spares _ w

/-- To close a connection closes it and no other. -/
theorem beginClose_closes (r : PoolRef) (c : Nat) (w : World) :
    Others r w ((beginClose c).run w).2 ∧
      (c < w.conns.length → ((beginClose c).run w).2.isOpen c = false) ∧
      ∀ k, k ≠ c → ((beginClose c).run w).2.isOpen k = w.isOpen k := by
  have shuts := letsBe_shut (r := r) c w
  have asks : ((beginClose c).run w).2 = ((modifyConn c fun x => { x with
      queue := ((((shut c).run w).2.conns.getD c default).queue.takeClose).1 }).run
      ((shut c).run w).2).2 := rfl
  rw [asks]
  have keeps : Others r ((shut c).run w).2 ((modifyConn c fun x => { x with
      queue := ((((shut c).run w).2.conns.getD c default).queue.takeClose).1 }).run
      ((shut c).run w).2).2 := .modifyConn c _ id
  refine ⟨shuts.trans keeps, fun there => keeps.closed c (isOpen_of_shut there), fun k other => ?_⟩
  rw [isOpen_modifyConn, if_neg fun is => other is.1.symm, isOpen_shut_ne other]

/-! ## What nothing holds -/

theorem letsBe_reapPolicies : LetsBe r reapPolicies := by
  unfold reapPolicies
  refine .bind .get fun w => .forIn fun x y => ?_
  split
  split
  · exact .bind (fun _ => .of_eq rfl rfl rfl) fun _ => .bind (.endRetries _) fun _ => .done
  · exact .done

/-- A round of dropping connections. -/
def dropLoose (held : List Nat) (x : Connection × Nat) : Sim (ForInStep PUnit) := do
  if !x.1.dropped && !held.contains x.2 then
    modifyConn x.2 fun x => { x with dropped := true }
    shut x.2
  return .yield PUnit.unit

theorem run_reapConns (w : World) : reapConns.run w =
    (forIn w.conns.zipIdx PUnit.unit fun x _ => dropLoose (heldConns w) x : Sim PUnit).run w := rfl

theorem letsBe_dropLoose (held : List Nat) (x : Connection × Nat) :
    LetsBe r (dropLoose held x) := by
  unfold dropLoose
  split
  · exact .bind (.modifyConn _ fun _ => id) fun _ => .bind (letsBe_shut _) fun _ => .done
  · exact .done

theorem letsBe_reapConns : LetsBe r reapConns := fun w => by
  rw [run_reapConns]
  exact LetsBe.forIn (fun x _ => letsBe_dropLoose _ x) w

/-- A loop closes a connection if one of its rounds does. -/
theorem isOpen_of_forIn {xs : List α} {f : α → PUnit → Sim (ForInStep PUnit)} {x : α}
    (lets : ∀ x y, LetsBe r (f x y)) (goes : ∀ x y w, ((f x y).run w).1 = .yield PUnit.unit)
    (mem : x ∈ xs) (there : c < w.conns.length)
    (closes : ∀ y w, c < w.conns.length → ((f x y).run w).2.isOpen c = false) :
    ((forIn xs PUnit.unit f).run w).2.isOpen c = false := by
  induction xs generalizing w with
  | nil => cases mem
  | cons first rest ih =>
      have round := lets first PUnit.unit w
      rw [List.forIn_cons, run_bind, goes]
      rcases List.mem_cons.mp mem with rfl | later
      · exact (LetsBe.forIn lets _).closed c (closes _ w there)
      · exact ih later (round.conns ▸ there)

/-- A connection that nothing holds is closed, unless it was dropped before. -/
theorem isOpen_of_reapConns (there : c < w.conns.length) (unheld : c ∉ heldConns w)
    (dropped : (w.conns.getD c default).dropped → w.isOpen c = false) :
    (reapConns.run w).2.isOpen c = false := by
  cases was : (w.conns.getD c default).dropped with
  | true => exact (letsBe_reapConns (r := ⟨0, 0⟩) w).closed c (dropped was)
  | false =>
      have mem : (w.conns.getD c default, c) ∈ w.conns.zipIdx := by
        rw [List.getD_eq_getElem?_getD, List.getElem?_eq_getElem there]
        exact List.mem_zipIdx_iff_getElem?.mpr (List.getElem?_eq_getElem there)
      rw [run_reapConns]
      refine isOpen_of_forIn (r := ⟨0, 0⟩) (fun x _ => letsBe_dropLoose _ x) (fun x _ w => ?_) mem
        there fun _ w' there => ?_
      · unfold dropLoose
        split <;> rfl
      · have loose : (!(w.conns.getD c default).dropped && !(heldConns w).contains c) = true := by
          rw [was, Bool.not_false, Bool.true_and, Bool.not_eq_true']
          exact Bool.eq_false_iff.mpr fun held => unheld (List.contains_iff_mem.mp held)
        unfold dropLoose
        rw [if_pos loose]
        exact isOpen_of_shut ((List.length_modify ..).symm ▸ there)

/-! ## Registries that nothing holds -/

theorem find?_filter_of_keeps {keeps test : α → Bool} {l : List α} {x : α}
    (found : l.find? test = some x) (kept : keeps x) : (l.filter keeps).find? test = some x := by
  obtain ⟨is, l₁, l₂, split, before⟩ := List.find?_eq_some_iff_append.mp found
  refine List.find?_eq_some_iff_append.mpr ⟨is, l₁.filter keeps, l₂.filter keeps, ?_, fun y mem =>
    before y (List.mem_of_mem_filter mem)⟩
  rw [split, List.filter_append, List.filter_cons_of_pos kept]

/-- A pool that somebody needs stays. -/
theorem others_reapRegistries (held : ∀ p, w.poolAt r = some p → p.isHeld) :
    Others r w (reapRegistries.run w).2 where
  pool p there := by
    refine ⟨p, ?_, .refl⟩
    obtain ⟨entry, found, rfl⟩ := Option.map_eq_some_iff.mp there
    obtain ⟨reg, is, has⟩ := Option.bind_eq_some_iff.mp found
    have kept : (reg.pools.filter fun p => p.pool.isHeld).find? (·.id == r.pool) = some entry :=
      find?_filter_of_keeps has (held _ there)
    show Option.map _ (Option.bind ((w.registries.zipIdx.map _)[r.registry]?) _) = _
    rw [List.getElem?_map, List.getElem?_zipIdx, is]
    show Option.map _ (Registry.get? (if _ then _ else _) r.pool) = _
    split
    · rw [has]
      rfl
    · show Option.map _ (List.find? _ _) = _
      rw [kept]
      rfl
  conns := rfl
  closed _ := id
  tasks := rfl

theorem heldConns_reapRegistries (held : c ∈ heldConns (reapRegistries.run w).2) :
    c ∈ heldConns w := by
  rcases List.mem_append.mp held with elsewhere | idle
  · exact List.mem_append_left _ elsewhere
  · refine List.mem_append_right _ ?_
    obtain ⟨reg', mem', idle⟩ := List.mem_flatMap.mp idle
    obtain ⟨⟨reg, n⟩, mem, rfl⟩ := List.mem_map.mp mem'
    obtain ⟨p, inPools, idle⟩ := List.mem_flatMap.mp idle
    refine List.mem_flatMap.mpr ⟨reg, ?_, List.mem_flatMap.mpr ⟨p, ?_, idle⟩⟩
    · exact List.fst_mem_of_mem_zipIdx mem
    · have kept : ∀ {whole : Bool}, p ∈ (if whole then reg else { reg with
          pools := reg.pools.filter fun p => p.pool.isHeld }).pools → p ∈ reg.pools := by
        intro whole mem
        cases whole with
        | true => exact mem
        | false => exact List.mem_of_mem_filter mem
      exact kept inPools

theorem others_reap (held : ∀ p, w.poolAt r = some p → p.isHeld) :
    Others r w (reap.run w).2 :=
  (others_reapRegistries held).trans ((letsBe_reapConns.bind fun _ => letsBe_reapPolicies) _)

/-- A connection that nothing holds is closed when what nothing holds is dropped. -/
theorem isOpen_of_reap (there : c < w.conns.length) (unheld : c ∉ heldConns w)
    (dropped : (w.conns.getD c default).dropped → w.isOpen c = false) :
    (reap.run w).2.isOpen c = false := by
  unfold reap
  rw [run_bind, run_bind]
  refine (letsBe_reapPolicies (r := ⟨0, 0⟩) _).closed c ?_
  exact isOpen_of_reapConns there (mt heldConns_reapRegistries unheld) dropped

/-! ## Work that is submitted -/

/-- A computation lets the others be, and no connection is closed by it. -/
def Spares (r : PoolRef) (m : Sim α) : Prop :=
  ∀ w, Others r w (m.run w).2 ∧ ∀ c, (m.run w).2.isOpen c = w.isOpen c

namespace Spares

theorem of_quiet {m : Sim α} (h : LetsBe r m) (quiet : Quiet m) : Spares r m := fun w =>
  ⟨h w, fun c => by rw [World.isOpen, (quiet w).1, World.isOpen]⟩

theorem done {x : α} : Spares r (pure x : Sim α) := .of_quiet .done .done

theorem bind {m : Sim α} {k : α → Sim β} (h : Spares r m) (h' : ∀ x, Spares r (k x)) :
    Spares r (m >>= k) := fun w => by
  obtain ⟨others, same⟩ := h w
  obtain ⟨others', same'⟩ := h' (m.run w).1 (m.run w).2
  exact ⟨others.trans others', fun c => (same' c).trans (same c)⟩

end Spares

theorem closing_of_submit {queue queue' : WorkQueue Work} {item : WorkItem Work}
    (accepts : queue.submit item = some queue') : queue'.closing = queue.closing := by
  unfold WorkQueue.submit at accepts
  split at accepts
  · cases accepts
  · cases accepts
    rfl

/-- Work is added to a queue, or nothing happens. -/
theorem spares_submit (c : Nat) (work : Work) (detached : Bool) :
    Spares r (submit c work detached) := fun w => by
  let w₁ : World := { w with fresh := w.fresh + 1 }
  have fresh : Others r w w₁ := .of_eq rfl rfl rfl
  have numbered : Sim.fresh.run w = (w.fresh, w₁) := rfl
  have looks : (conn c).run w₁ = (w.conns.getD c default, w₁) := rfl
  unfold submit
  rw [run_bind, numbered, run_bind, looks]
  split
  · exact ⟨fresh, fun _ => rfl⟩
  · next queue accepts =>
      have same : Connection.isOpen { w.conns.getD c default with queue } =
          (w.conns.getD c default).isOpen := by
        rw [Connection.isOpen, closing_of_submit accepts]
        rfl
      have added : Others r w₁ ((modifyConn c fun x => { x with queue }).run w₁).2 :=
        .modifyConn c _ fun shut => same.trans shut
      obtain ⟨ready, wakes⟩ := onlyWakes_wake (.worker c)
        ((modifyConn c fun x => { x with queue }).run w₁).2
      rw [run_bind, run_bind, wakes]
      refine ⟨fresh.trans (added.trans (.of_eq rfl rfl rfl)), fun k => ?_⟩
      refine (isOpen_modifyConn k c _ w₁).trans ?_
      split
      · next is =>
          obtain ⟨rfl, -⟩ := is
          exact same
      · rfl

/-- A query is submitted, or nothing happens. -/
theorem spares_submitQuery (c : Nat) (kind : QueryKind) (s : Statement) :
    Spares r (submitQuery c kind s) := by
  have begins (pool : Option PoolRef) : Spares r (beginRetries pool) :=
    .of_quiet (.beginRetries pool) (quiet_beginRetries pool)
  have ends (retry : Option (PoolRef × Nat)) : Spares r (endRetries retry) :=
    .of_quiet (.endRetries retry) (quiet_endRetries retry)
  unfold submitQuery
  refine .bind (.of_quiet .get .get) fun x => ?_
  split
  · exact .done
  · split
    on_goal 1 => refine .bind (.of_quiet (.event _) (quiet_event _)) fun _ => ?_
    all_goals
      refine (begins _).bind fun retry => (spares_submit c _ _).bind fun id => ?_
      cases id with
      | none => exact (ends retry).bind fun _ => .done
      | some id => exact .done

end Sim

end Scenario

end ConnectionPool
