import ConnectionPool.Proofs.Remembered.Chronicle
import Mathlib.Tactic.ByCases

/-!
# Every connection has its chronicle

Whatever tasks, workers and commands do in a world, to each of its connections nothing happens that
a `Chronicle` cannot tell of.  Most of what they do changes no connection at all.  The rest is done
to one connection at a time: work is submitted, its worker goes on, a caller leaves, it is closed,
dropped or shown.

The workers tell which work they came to the end of.  A log of that is `Chronicled` when it holds,
for every connection, the work that its chronicle tells is over.  Only a worker adds to it, so
everything else `Keeps` the log as it is.
-/

namespace ConnectionPool.Scenario

/-- The work that is over on each connection, after a step of an actor that made such progress. -/
def Actor.logs (a : Actor) (p : Progress) (log : Nat → List Done) (c : Nat) : List Done :=
  if a = .worker c then log c ++ p.done?.toList else log c

/-- Every connection has its chronicle, with the work that is over by the log. -/
structure Chronicled (log : Nat → List Done) (w : World) : Prop where
  chronicle : ∀ c x, w.conns[c]? = some x → ∃ asks, Chronicle c w asks (log c)
  /-- Nothing is over on a connection that is not there. -/
  absent : ∀ c, w.conns[c]? = none → log c = []

namespace Sim

variable {α β : Type} {P : α → Prop} {n : Nat} {w w' w'' : World} {log : Nat → List Done}

/-! ## One connection at a time -/

/-- One connection at most is changed, and none is added. -/
structure Beside (n : Nat) (w w' : World) : Prop where
  others : ∀ k, k ≠ n → w'.conns[k]? = w.conns[k]?
  there : w'.conns[n]? = none ↔ w.conns[n]? = none
  grows : w.fresh ≤ w'.fresh

/-- What leaves all connections alone leaves the others alone. -/
theorem Beside.of_conns (same : w'.conns = w.conns) (grows : w.fresh ≤ w'.fresh) : Beside n w w' :=
  ⟨fun _ _ => same ▸ rfl, same ▸ Iff.rfl, grows⟩

theorem Beside.trans (h : Beside n w w') (h' : Beside n w' w'') : Beside n w w'' :=
  ⟨fun k other => (h'.others k other).trans (h.others k other), h'.there.trans h.there,
    Nat.le_trans h.grows h'.grows⟩

/-- What brings one connection further leaves the others alone. -/
theorem Later.beside {c : Nat} {x y : Connection} {replies : List (Nat × Reply)}
    (later : Later w c y replies w') (is : w.conns[c]? = some x) : Beside c w w' := by
  refine ⟨later.others, ?_, later.grows⟩
  rw [later.conn, is]
  exact iff_of_false nofun nofun

/-- So does what its worker does. -/
theorem Worked.beside {c : Nat} {x : Connection} {over? : Option Done}
    (worked : Worked w c x over? w') (is : w.conns[c]? = some x) : Beside c w w' := by
  cases worked with
  | carried _ carried =>
      cases carried with
      | inFlight _ _ later | finished _ later => exact later.beside is
  | rests later | dropped _ later | skipped _ later | started _ _ later | ended _ later =>
      exact later.beside is

/-- A computation changes one connection at most. -/
def Touches (n : Nat) (m : Sim α) : Prop := ∀ w, Beside n w (m.run w).2

/-- A connection that is not there is read as one to which nothing happened. -/
theorem run_absent (gone : w.conns[n]? = none) : (conn n).run w = (default, w) := by
  show (w.conns.getD n default, w) = _
  rw [List.getD_eq_getElem?_getD, gone]
  rfl

namespace Touches

theorem bind {m : Sim α} {k : α → Sim β} (h : Touches n m) (h' : ∀ x, Touches n (k x)) :
    Touches n (m >>= k) := fun w => (h w).trans (h' _ _)

theorem quiet {m : Sim α} (h : Elsewhere P m) : Touches n m := fun w => by
  obtain ⟨conns, -, grows, -⟩ := h w
  exact .of_conns conns grows

/-- To change one connection leaves the others alone, and adds none. -/
theorem modifyConn (f : Connection → Connection) : Touches n (modifyConn n f) := by
  refine fun w => ⟨fun k other => List.getElem?_modify_ne _ _ (Ne.symm other), ?_, Nat.le_refl _⟩
  show (w.conns.modify n f)[n]? = none ↔ _
  rw [List.getElem?_modify_eq]
  exact Option.map_eq_none_iff

theorem done {x : α} : Touches n (pure x : Sim α) := quiet .done

theorem conn (c : Nat) : Touches n (conn c) := quiet (.bind .get fun _ => .done)

theorem wake (a : Actor) : Touches n (wake a) := quiet (onlyWakes_wake a).quiet

/-- A connection that is shut leaves its pool and asks its queue to close. -/
theorem shut : Touches n (shut n) := by
  have closes (membership : Membership PoolRef) : Touches n (do
      Sim.modifyConn n fun x => { x with toMembership := membership, queue := x.queue.requestClose }
      Sim.wake (.worker n)) := (modifyConn _).bind fun _ => wake _
  unfold Sim.shut
  refine .bind (conn n) fun x => ?_
  split
  split
  · exact .bind (quiet (quiet_modifyPool _ _)) fun _ => closes _
  · exact closes _

theorem beginClose : Touches n (beginClose n) :=
  .bind shut fun _ => .bind (conn n) fun _ => .bind (modifyConn _) fun _ => .done

/-- A connection gets its name when it is shown, once. -/
theorem label : Touches n (label n) := by
  refine .bind (conn n) fun x => ?_
  split
  · exact .done
  · exact .bind (quiet .get) fun _ => .bind (quiet (.modify fun _ => ⟨rfl, rfl, rfl⟩)) fun _ =>
      .bind (modifyConn _) fun _ => .done

theorem submit (work : Work) (detached : Bool) : Touches n (submit n work detached) := by
  refine .bind (quiet .fresh) fun id => .bind (conn n) fun x => ?_
  split
  · exact .done
  · exact .bind (modifyConn _) fun _ => .bind (wake _) fun _ => .done

theorem leave (id : Nat) : Touches n (dropFrame (.item n id)) := by
  intro w
  obtain ⟨conns, fresh⟩ := run_leave n id w
  have changed := modifyConn (n := n) (fun x => { x with queue := x.queue.leave id }) w
  refine ⟨?_, ?_, Nat.le_of_eq fresh.symm⟩
  · rw [conns]
    exact changed.others
  · rw [conns]
    exact changed.there

/-- The worker of a connection changes no other one. -/
theorem runWorker : Touches n (runWorker n) := by
  intro w
  cases is : w.conns[n]? with
  | some x => exact (worked_runWorker is).beside is
  | none =>
      have run : ((Sim.runWorker n).run w).2 =
          ((Sim.modifyConn n fun x => { x with queue := {} }).run w).2 := by
        unfold Sim.runWorker
        rw [run_bind, run_absent is]
        rfl
      rw [run]
      exact modifyConn _ w

end Touches

/-! ## Computations that keep the chronicles -/

/-- One connection is changed in a way its chronicle tells of, and the others notice nothing. -/
theorem Beside.chronicled {log' : Nat → List Done} (beside : Beside n w w')
    (all : Chronicled log w)
    (own : ∀ asks, Chronicle n w asks (log n) → ∃ asks', Chronicle n w' asks' (log' n))
    (unborn : w.conns[n]? = none → log' n = log n) (others : ∀ c, c ≠ n → log' c = log c) :
    Chronicled log' w' := by
  constructor
  · intro c x is
    by_cases same : c = n
    · subst same
      have there : w.conns[c]? ≠ none := by
        intro gone
        rw [beside.there.mpr gone] at is
        cases is
      obtain ⟨y, was⟩ := Option.ne_none_iff_exists'.mp there
      obtain ⟨asks, chronicle⟩ := all.chronicle c y was
      exact own asks chronicle
    · have kept := beside.others c same
      obtain ⟨asks, chronicle⟩ := all.chronicle c x (kept.symm.trans is)
      rw [others c same]
      exact ⟨asks, chronicle.elsewhere kept beside.grows⟩
  · intro c gone
    by_cases same : c = n
    · subst same
      have unborn' := beside.there.mp gone
      rw [unborn unborn', all.absent c unborn']
    · rw [others c same, all.absent c ((beside.others c same).symm.trans gone)]

/-- The worker of a connection adds to the log the work that it came to the end of. -/
theorem chronicled_runWorker (all : Chronicled log w) (n : Nat) :
    Chronicled ((Actor.worker n).logs ((Sim.runWorker n).run w).1 log)
      ((Sim.runWorker n).run w).2 := by
  refine (Touches.runWorker w).chronicled all (fun asks chronicle => ?_) (fun gone => ?_)
    fun c other => if_neg fun same => other (Actor.worker.inj same).symm
  · rw [Actor.logs, if_pos rfl]
    exact ⟨asks, chronicle.worked⟩
  · rw [Actor.logs, if_pos rfl, show ((Sim.runWorker n).run w).1 = .blocked from ?_]
    · exact List.append_nil _
    · unfold Sim.runWorker
      rw [run_bind, run_absent gone]
      rfl

/-- A computation does nothing to a connection that its chronicle cannot tell of, and comes to the
end of no work. -/
def Keeps (m : Sim α) : Prop := ∀ log w, Chronicled log w → Chronicled log (m.run w).2

namespace Keeps

theorem bind {m : Sim α} {k : α → Sim β} (h : Keeps m) (h' : ∀ x, Keeps (k x)) :
    Keeps (m >>= k) := fun log w all => h' _ log _ (h log w all)

/-- What is done to one connection its chronicle tells of, and the others notice nothing. -/
theorem touches {m : Sim α} (h : Touches n m) (own : ∀ w asks done, Chronicle n w asks done →
    ∃ asks', Chronicle n (m.run w).2 asks' done) : Keeps m := fun _ w all =>
  (h w).chronicled all (fun asks chronicle => own w asks _ chronicle) (fun _ => rfl) fun _ _ => rfl

/-- What leaves all connections alone keeps every chronicle. -/
theorem of_conns {m : Sim α}
    (h : ∀ w, (m.run w).2.conns = w.conns ∧ w.fresh ≤ (m.run w).2.fresh) : Keeps m := by
  intro log w all
  obtain ⟨conns, grows⟩ := h w
  refine ⟨fun c x is => ?_, fun c gone => all.absent c (conns ▸ gone)⟩
  rw [conns] at is
  obtain ⟨asks, chronicle⟩ := all.chronicle c x is
  exact ⟨asks, chronicle.elsewhere (congrArg (·[c]?) conns) grows⟩

theorem quiet {m : Sim α} (h : Elsewhere P m) : Keeps m := .of_conns fun w =>
  ⟨(h w).1, (h w).2.2.1⟩

/-- So does a change to the rest of the world. -/
theorem writes {f : World → World} (keeps : ∀ w, (f w).conns = w.conns ∧ (f w).fresh = w.fresh) :
    Keeps (modify f) := .of_conns fun w => ⟨(keeps w).1, Nat.le_of_eq (keeps w).2.symm⟩

theorem done {x : α} : Keeps (pure x : Sim α) := .quiet .done

theorem reads : Keeps (get : Sim World) := .quiet .get

/-- The world is read and stored again, with the same connections. -/
theorem stores {f : World → World} {k : World → Sim α}
    (keeps : ∀ w, (f w).conns = w.conns ∧ (f w).fresh = w.fresh) (h : ∀ w, Keeps (k w)) :
    Keeps (do
      let w ← get
      set (f w)
      k w) := fun log w all => h w log _ (writes keeps log w all)

/-- A loop keeps what each of its rounds keeps. -/
theorem forIn {xs : List α} {f : α → PUnit → Sim (ForInStep PUnit)} (h : ∀ x r, Keeps (f x r)) :
    Keeps (forIn xs PUnit.unit f) :=
  fun log => rel_forIn (R := fun w w' => Chronicled log w → Chronicled log w') (fun _ => id)
    (fun h h' all => h' (h all)) fun x r => h x r log

/-- A connection that is opened is a new one, with a chronicle that begins. -/
theorem connect (path : DatabasePath) (role : Role) (config : Config) (pool : Option PoolRef) :
    Keeps (connect path role config pool) := by
  intro log w all
  rcases connect_cases w path role config pool with ⟨e, run⟩ | ⟨engine, session, run⟩
  · rw [run]
    exact all
  -- the new one comes behind the others, which stay as they are
  have old (c : Nat) (there : c < w.conns.length) :
      ((Sim.connect path role config pool).run w).2.conns[c]? = w.conns[c]? := by
    rw [run]
    exact List.getElem?_append_left there
  have grows : w.fresh ≤ ((Sim.connect path role config pool).run w).2.fresh :=
    Nat.le_of_eq (by rw [run])
  have one_more : ((Sim.connect path role config pool).run w).2.conns.length =
      w.conns.length + 1 := by
    rw [run]
    exact List.length_append
  constructor
  · intro c x is
    rcases Nat.lt_succ_iff_lt_or_eq.mp (one_more ▸ (List.getElem?_eq_some_iff.mp is).1) with
      there | rfl
    · obtain ⟨asks, chronicle⟩ := all.chronicle c x ((old c there).symm.trans is)
      exact ⟨asks, chronicle.elsewhere (old c there) grows⟩
    · rw [all.absent _ (List.getElem?_eq_none (Nat.le_refl _))]
      exact ⟨[], .opened (by rw [run])⟩
  · intro c gone
    have beyond := List.getElem?_eq_none_iff.mp gone
    exact all.absent c (List.getElem?_eq_none (by omega))

/-- The chronicle tells of work that is submitted. -/
theorem submit (c : Nat) (work : Work) (detached : Bool) : Keeps (submit c work detached) :=
  .touches (.submit work detached) fun _ _ _ h => ⟨_, h.asked work detached⟩

theorem leave (c id : Nat) : Keeps (dropFrame (.item c id)) :=
  .touches (.leave id) fun _ _ _ h => ⟨_, h.left id⟩

theorem beginClose (c : Nat) : Keeps (beginClose c) :=
  .touches .beginClose fun _ _ _ h => ⟨_, h.closed⟩

theorem label (c : Nat) : Keeps (label c) :=
  .touches .label fun _ _ _ h => ⟨_, h.shown⟩

/-! ## Pools, gates and connections -/

theorem event (text : String) : Keeps (event text) := .quiet (quiet_event text)

theorem conn (c : Nat) : Keeps (conn c) := .bind .reads fun _ => .done

theorem pool? (r : PoolRef) : Keeps (pool? r) := .quiet (quiet_pool? r)

theorem putPool (r : PoolRef) (p : Pool) : Keeps (putPool r p) := .quiet (quiet_putPool r p)

theorem modifyPool (r : PoolRef) (f : Pool → Pool) : Keeps (modifyPool r f) :=
  .quiet (quiet_modifyPool r f)

theorem notify (r : PoolRef) (woken : Option Waiter) : Keeps (notify r woken) :=
  .quiet (onlyWakes_notify r woken).quiet

theorem wake (a : Actor) : Keeps (wake a) := .quiet (onlyWakes_wake a).quiet

theorem endRetries (retry : Option (PoolRef × Nat)) : Keeps (endRetries retry) :=
  .quiet (quiet_endRetries retry)

/-- A pool that goes on may wake an actor. -/
theorem stepPool (r : PoolRef) (f : Pool → Pool × Option Waiter) : Keeps (stepPool r f) := by
  refine .bind (pool? r) fun p => ?_
  split
  · exact .bind (putPool _ _) fun _ => notify _ _
  · exact .done

theorem liveRef (r : Option PoolRef) : Keeps (liveRef r) := by
  cases r with
  | none => exact .done
  | some r => exact .bind (pool? r) fun _ => .done

/-- A path without a pool gets one. -/
theorem poolFor (registry : Nat) (path : DatabasePath) : Keeps (poolFor registry path) := by
  refine .of_conns fun w => ?_
  unfold Sim.poolFor
  rw [run_bind]
  split <;> exact ⟨rfl, Nat.le_refl _⟩

/-- A task is added, and may go on. -/
theorem spawn (t : Task) : Keeps (spawn t) :=
  .bind .reads fun _ => .bind (.writes fun _ => ⟨rfl, rfl⟩) fun _ => wake _

theorem info (c : Nat) : Keeps (info c) := .bind (label c) fun _ => .bind (conn c) fun _ => .done

theorem givePasses (name : String) (count : Nat) : Keeps (givePasses name count) := by
  induction count with
  | zero => exact .done
  | succ count ih => exact .bind (.quiet (quiet_givePass name)) fun _ => ih

theorem beginRetries (r : Option PoolRef) : Keeps (beginRetries r) :=
  .quiet (quiet_beginRetries r)

/-- A query is submitted with the retries it may need, which end if it is refused. -/
theorem submitQuery (c : Nat) (kind : QueryKind) (s : Statement) :
    Keeps (submitQuery c kind s) := by
  refine .bind (conn c) fun x => ?_
  split
  · exact .done
  · split
    on_goal 1 => refine .bind (event _) fun _ => ?_
    all_goals
      refine .bind (beginRetries _) fun retry => .bind (submit c _ _) fun id => ?_
      cases id with
      | none => exact .bind (endRetries retry) fun _ => .done
      | some id => exact .done

theorem submitDetached (c : Nat) (sql : String) : Keeps (submitDetached c sql) :=
  .bind (submit c _ _) fun _ => .done

/-- A lease that is given back starts a timer for its connection, or closes it. -/
theorem release (l : LeaseRef) (runtime : Bool) : Keeps (release l runtime) := by
  have returns (r : PoolRef) (released : Pool × Option Waiter) (keep : Bool)
      (grace deadline timer : Nat) : Keeps (do
        Sim.putPool r released.1
        if keep then
          if grace = 0 then Sim.spawn { name := none, frames := [.expire r timer] }
          else startTimer deadline (.grace r timer)
        Sim.notify r released.2) := by
    refine .bind (putPool _ _) fun _ => ?_
    split
    · split
      · exact .bind (spawn _) fun _ => notify _ _
      · exact .bind (.quiet (quiet_startTimer _ _)) fun _ => notify _ _
    · exact notify _ _
  unfold Sim.release
  split
  · split
    · refine .bind (pool? _) fun p => ?_
      cases p with
      | none => exact .done
      | some p =>
          exact .bind (conn _) fun x => .bind .reads fun w => returns _ (p.release _ _) _ _ _ _
    · exact stepPool _ _
  · exact .done

/-- Connections that nobody holds are dropped, one by one. -/
theorem reapConns : Keeps reapConns := by
  refine .bind .reads fun w => .forIn fun x r => ?_
  have dropped : Keeps (do
      modifyConn x.2 fun x => { x with dropped := true }
      shut x.2) :=
    .touches (.bind (.modifyConn _) fun _ => .shut) fun _ _ _ h => ⟨_, h.dropped⟩
  show Keeps (if !x.1.dropped && !(heldConns w).contains x.2 then _ else _)
  split
  · exact dropped
  · exact .done

/-- Policies whose user is gone end their retries. -/
theorem reapPolicies : Keeps reapPolicies := by
  refine .bind .reads fun w => .forIn fun x r => ?_
  split
  split
  · exact .bind (.writes fun _ => ⟨rfl, rfl⟩) fun _ => .bind (endRetries _) fun _ => .done
  · exact .done

theorem reap : Keeps reap :=
  .bind (.writes fun _ => ⟨rfl, rfl⟩) fun _ => .bind reapConns fun _ => reapPolicies

end Keeps

end Sim

end ConnectionPool.Scenario
