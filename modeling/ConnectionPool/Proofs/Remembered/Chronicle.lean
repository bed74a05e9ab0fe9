import ConnectionPool.Proofs.Remembered.Step
import ConnectionPool.Scenario.Run

/-!
# What a connection remembers

A connection remembers the row id of the last statement that was run with success, and the message
of the last error of the engine that a query ended with.  Whoever has the connection can ask it for
something at any time, leave before that is over, or close it.  Only what the worker does changes
what the connection remembers.

A `Chronicle` is the history of one connection, in a world in which everything else may happen
meanwhile: what was asked for, in the order of the queue, and the work that is over, with its
results, in the order in which it came to an end.  Work that was passed over, dropped or cancelled
is not part of the latter, and work whose caller left is, if it came to its end all the same.
`Stands` says how both stand to the connection: it remembers the last of the results of each kind,
and work came to its end in the order of the queue.
-/

namespace ConnectionPool.Scenario

/-- The row id that the last of these reported. -/
def lastRow (done : List Done) : Int64 := ((done.filterMap Done.rowId?).getLast?).getD 0

/-- The message of the last of these that ended with an error of the engine. -/
def lastError (done : List Done) : Option String := (done.filterMap Done.engineError?).getLast?

/-- The history of a connection: what was asked for, and the work that is over. -/
inductive Chronicle (c : Nat) : World → List Asked → List Done → Prop where
  /-- The connection is opened. -/
  | opened {w : World} {path : DatabasePath} {role : Role} {config : Config}
      {pool : Option PoolRef} : ((Sim.connect path role config pool).run w).1 = .ok c →
      Chronicle c ((Sim.connect path role config pool).run w).2 [] []
  /-- Somebody asks for something. -/
  | asked {w : World} {asks : List Asked} {done : List Done} (work : Work) (detached : Bool) :
      Chronicle c w asks done → Chronicle c ((Sim.submit c work detached).run w).2
        (asks ++ (((Sim.submit c work detached).run w).1.map fun id => ⟨id, work⟩).toList) done
  /-- The worker does a step. -/
  | worked {w : World} {asks : List Asked} {done : List Done} : Chronicle c w asks done →
      Chronicle c ((Sim.runWorker c).run w).2 asks
        (done ++ ((Sim.runWorker c).run w).1.done?.toList)
  /-- The worker makes an attempt, and the engine answers with anything.  When the caller left, the
  attempt is made if it comes before that is noticed. -/
  | answered {w : World} {asks : List Asked} {done : List Done} {x : Connection} {f : Flight}
      {kind : QueryKind} {s : Statement} {retry : Option (PoolRef × Nat)}
      (answer : ConnectionPool.Answer) : Chronicle c w asks done → w.conns[c]? = some x →
      x.flight = some f → f.item.work = .query kind s retry → (∀ d t, f.stage ≠ .paused d t) →
      (x.queue.current.any (·.isGivenUp) → w.outruns f.item.id) →
      Chronicle c ((Sim.endAttempt c x f kind retry (answer.attempt kind s)).run w).2 asks (done ++
        ((Sim.endAttempt c x f kind retry (answer.attempt kind s)).run w).1.done?.toList)
  /-- The work in flight panics, which breaks the queue. -/
  | broken {w : World} {asks : List Asked} {done : List Done} :
      Chronicle c w asks done → Chronicle c ((Sim.modifyConn c fun x =>
        { x with flight := none, queue := x.queue.crash.1 }).run w).2 asks done
  /-- A caller leaves. -/
  | left {w : World} {asks : List Asked} {done : List Done} (id : Nat) :
      Chronicle c w asks done → Chronicle c ((Sim.dropFrame (.item c id)).run w).2 asks done
  /-- Somebody closes the connection. -/
  | closed {w : World} {asks : List Asked} {done : List Done} :
      Chronicle c w asks done → Chronicle c ((Sim.beginClose c).run w).2 asks done
  /-- Nobody has the connection any more. -/
  | dropped {w : World} {asks : List Asked} {done : List Done} :
      Chronicle c w asks done → Chronicle c ((do
        Sim.modifyConn c fun x => { x with dropped := true }
        Sim.shut c : Sim Unit).run w).2 asks done
  /-- The connection is shown. -/
  | shown {w : World} {asks : List Asked} {done : List Done} :
      Chronicle c w asks done → Chronicle c ((Sim.label c).run w).2 asks done
  /-- Anything happens to the rest of the world. -/
  | elsewhere {w w' : World} {asks : List Asked} {done : List Done} : Chronicle c w asks done →
      w'.conns[c]? = w.conns[c]? → w.fresh ≤ w'.fresh → Chronicle c w' asks done

namespace Sim

variable {w w' : World} {c : Nat} {f : Flight} {x x' : Connection} {r : Reply}
  {asks : List Asked} {done : List Done}

/-! ## How a connection stands -/

theorem lastRow_concat (done : List Done) (d : Done) :
    lastRow (done ++ [d]) = d.rowId?.getD (lastRow done) := by
  rw [lastRow, List.filterMap_append, List.getLast?_append, lastRow]
  cases row : d.rowId? <;> simp [row]

theorem lastError_concat (done : List Done) (d : Done) :
    lastError (done ++ [d]) = d.engineError?.or (lastError done) := by
  rw [lastError, List.filterMap_append, List.getLast?_append, lastError]
  cases error : d.engineError? <;> simp [error]

/-- What a connection was asked for and has not ended. -/
def inLine (x : Connection) : List Asked :=
  (x.queue.current.toList ++ x.queue.pending).map asked

/-- How a connection stands to what it was asked for and to the work that is over. -/
structure Stands (asks : List Asked) (done : List Done) (x : Connection) : Prop where
  /-- It remembers the row id that was reported last. -/
  row : x.lastRow = lastRow done
  /-- It remembers the error of the engine that was the last. -/
  error : x.lastError = lastError done
  /-- Work that is over was asked for before all that is in line, and both are in order. -/
  order : (done.map (·.asked) ++ inLine x).Sublist asks
  /-- The work in flight is the work that the queue is at. -/
  flight : x.flight.map (asked ·.item) = x.queue.current.map asked

theorem asked_markAbandoned (id : Nat) (i : WorkItem Work) :
    asked (WorkQueue.markAbandoned id i) = asked i := by
  obtain ⟨work, same, -⟩ := WorkQueue.markAbandoned_same id i
  rw [asked, work, same, asked]

namespace Stands

/-- The work of the connection is as it was. -/
theorem touched (h : Stands asks done x) (row : x'.lastRow = x.lastRow)
    (error : x'.lastError = x.lastError) (flight : x'.flight = x.flight)
    (current : x'.queue.current = x.queue.current) (pending : x'.queue.pending = x.queue.pending) :
    Stands asks done x' where
  row := row.trans h.row
  error := error.trans h.error
  order := by rw [inLine, current, pending]; exact h.order
  flight := by rw [flight, current]; exact h.flight

/-- A caller leaves: his work is marked, and nothing else happens to it. -/
theorem left (h : Stands asks done x) (id : Nat) :
    Stands asks done { x with queue := x.queue.leave id } where
  row := h.row
  error := h.error
  order := by
    have same : inLine { x with queue := x.queue.leave id } = inLine x := by
      rw [inLine, WorkQueue.items_leave, List.map_map]
      exact List.map_congr_left fun i _ => asked_markAbandoned id i
    rw [same]
    exact h.order
  flight := by
    rw [h.flight]
    show _ = (x.queue.current.map _).map asked
    rw [Option.map_map]
    cases x.queue.current with
    | none => rfl
    | some i => exact congrArg some (asked_markAbandoned id i).symm

/-- Work lines up behind the rest. -/
theorem submitted (h : Stands asks done x) (i : WorkItem Work) : Stands (asks ++ [asked i]) done
    { x with queue := { x.queue with pending := x.queue.pending ++ [i] } } where
  row := h.row
  error := h.error
  order := by
    show (done.map (·.asked) ++ (x.queue.current.toList ++ (x.queue.pending ++ [i])).map
      asked).Sublist _
    rw [← List.append_assoc, List.map_append, ← List.append_assoc]
    exact h.order.append (.refl _)
  flight := h.flight

/-- Work in flight is the first in line. -/
theorem inLine_flight (h : Stands asks done x) (flight : x.flight = some f) :
    inLine x = asked f.item :: x.queue.pending.map asked := by
  have current := h.flight
  rw [flight] at current
  cases is : x.queue.current with
  | none => rw [is] at current; cases current
  | some i =>
      rw [is] at current
      have same : asked f.item = asked i := Option.some.inj current
      rw [inLine, is, same]
      rfl

theorem inLine_idle (h : Stands asks done x) (idle : x.flight = none) :
    inLine x = x.queue.pending.map asked := by
  have current := h.flight
  rw [idle] at current
  rw [inLine, Option.map_eq_none_iff.mp current.symm]
  rfl

/-- Fewer are in line, and nothing is in flight. -/
theorem fewer (h : Stands asks done x) (row : x'.lastRow = x.lastRow)
    (error : x'.lastError = x.lastError) (line : (inLine x').Sublist (inLine x))
    (flight : x'.flight.map (asked ·.item) = x'.queue.current.map asked) : Stands asks done x' where
  row := row.trans h.row
  error := error.trans h.error
  order := (line.append_left _).trans h.order
  flight := flight

/-- Work came to its end, and the connection remembers it. -/
theorem finished (h : Stands asks done x) (flight : x.flight = some f) (r : Reply) :
    Stands asks (done ++ [⟨asked f.item, r⟩]) (landed (x.remembers ⟨asked f.item, r⟩)) where
  row := by
    rw [lastRow_concat, ← h.row]
    rfl
  error := by
    rw [lastError_concat, ← h.error]
    rfl
  order := by
    have order := h.order
    rw [h.inLine_flight flight] at order
    rw [List.map_append, List.append_assoc]
    exact order
  flight := rfl

end Stands

/-! ## What users do -/

variable {replies : List (Nat × Reply)}

/-- Work is added to the queue, or refused. -/
theorem submit_cases (is : w.conns[c]? = some x) (work : Work) (detached : Bool) :
    (((submit c work detached).run w).1 = none ∧
        Later w c x [] ((submit c work detached).run w).2) ∨
      (((submit c work detached).run w).1 = some w.fresh ∧
        w.fresh < ((submit c work detached).run w).2.fresh ∧
        Later w c { x with queue := { x.queue with
          pending := x.queue.pending ++ [{ id := w.fresh, work, detached }] } } []
          ((submit c work detached).run w).2) := by
  have numbered := (Later.refl is).elsewhere .fresh
  unfold submit
  rw [run_bind, run_bind, run_conn numbered.conn, WorkQueue.submit]
  by_cases refuses : x.queue.refuses
  · rw [if_pos refuses]
    exact .inl ⟨rfl, numbered⟩
  · rw [if_neg refuses]
    have added := (numbered.modifyConn fun y => { y with queue := { x.queue with
      pending := x.queue.pending ++ [{ id := w.fresh, work, detached }] } }).elsewhere
        (onlyWakes_wake (.worker c)).quiet
    have grows := (((Later.refl numbered.conn).modifyConn fun y => { y with queue := { x.queue with
      pending := x.queue.pending ++ [{ id := w.fresh, work, detached }] } }).elsewhere
        (onlyWakes_wake (.worker c)).quiet).grows
    exact .inr ⟨rfl, grows, added⟩

/-- A connection is closed, or dropped. -/
theorem Later.shut (later : Later w c x replies w') :
    Later w c { x with toMembership := x.shut.1, queue := x.queue.requestClose } replies
      ((Sim.shut c).run w').2 := by
  unfold Sim.shut
  rw [run_bind, run_conn later.conn]
  generalize x.shut = result
  obtain ⟨membership, counted⟩ := result
  have closes {w' : World} (later : Later w c x replies w') :=
    (later.modifyConn fun y => { y with toMembership := membership, queue := y.queue.requestClose }
      ).elsewhere (onlyWakes_wake (.worker c)).quiet
  cases counted with
  | none => exact closes later
  | some r =>
      have uncounted := later.elsewhere (quiet_modifyPool r Pool.closePrimary)
      exact closes uncounted

/-- Somebody closes a connection. -/
theorem Later.beginClose (later : Later w c x replies w') :
    Later w c { x with
      toMembership := x.shut.1
      queue := { x.queue.requestClose with closeTaken := true } } replies
      ((Sim.beginClose c).run w').2 := by
  have shut := later.shut
  unfold Sim.beginClose
  rw [run_bind, run_bind, run_conn shut.conn]
  exact shut.modifyConn fun y =>
    { y with queue := { x.queue.requestClose with closeTaken := true } }

/-- A connection is given its label, or has one. -/
theorem Later.label (later : Later w c x replies w') :
    ∃ label, Later w c { x with label } replies ((Sim.label c).run w').2 := by
  unfold Sim.label
  rw [run_bind, run_conn later.conn]
  cases shown : x.label with
  | some n =>
      refine ⟨x.label, ?_⟩
      simp only [shown]
      exact shown ▸ later
  | none =>
      have counted : Later w c x replies { w' with shown := w'.shown + 1 } :=
        ⟨later.conn, later.replies, later.others, later.grows⟩
      exact ⟨some (w'.shown + 1), counted.modifyConn fun x =>
        { x with label := some (w'.shown + 1) }⟩

/-- A caller leaves. -/
theorem run_leave (c id : Nat) (w : World) :
    ((dropFrame (.item c id)).run w).2.conns =
        w.conns.modify c (fun x => { x with queue := x.queue.leave id }) ∧
      ((dropFrame (.item c id)).run w).2.fresh = w.fresh := by
  let inFlight := (w.conns.getD c default).queue.current.any (·.id == id)
  have wakes : OnlyWakes (if inFlight then wake (.worker c) else pure ()) := by
    split
    · exact onlyWakes_wake _
    · exact .done
  obtain ⟨ready, after⟩ := wakes { w with
    replies := w.replies.filter (·.1 != id)
    conns := w.conns.modify c fun x => { x with queue := x.queue.leave id } }
  have run : ((dropFrame (.item c id)).run w).2 =
      ((if inFlight then wake (.worker c) else pure () : Sim Unit).run { w with
        replies := w.replies.filter (·.1 != id)
        conns := w.conns.modify c fun x => { x with queue := x.queue.leave id } }).2 := rfl
  rw [run, after]
  exact ⟨rfl, rfl⟩

/-- A connection, what it was asked for and the work that is over, in a world. -/
structure Kept (c : Nat) (w : World) (asks : List Asked) (done : List Done) (x : Connection) :
    Prop where
  conn : w.conns[c]? = some x
  stands : Stands asks done x
  /-- The queue is in the order of the numbers. -/
  sorted : asks.Pairwise (·.id < ·.id)
  /-- No number is given out again. -/
  issued : ∀ a ∈ asks, a.id < w.fresh

namespace Kept

variable {done' : List Done}

/-- The connection goes on, and nothing is asked for. -/
theorem later (h : Kept c w asks done x) (later : Later w c x' replies w')
    (stands : Stands asks done' x') : Kept c w' asks done' x' :=
  ⟨later.conn, stands, h.sorted, fun a mem => Nat.lt_of_lt_of_le (h.issued a mem) later.grows⟩

/-- The connection goes on, and no work comes to its end. -/
theorem silent (h : Kept c w asks done x) (later : Later w c x' replies w')
    (stands : Stands asks done x') :
    ∃ x', Kept c w' asks (done ++ (none : Option Done).toList) x' := by
  rw [Option.toList_none, List.append_nil]
  exact ⟨x', h.later later stands⟩

/-- The work in flight is carried on. -/
theorem carried (h : Kept c w asks done x) (flight : x.flight = some f) {over? : Option Done}
    (carried : Carried w c x f over? w') : ∃ x', Kept c w' asks (done ++ over?.toList) x' := by
  cases carried with
  | inFlight f' same later =>
      refine h.silent later { h.stands with flight := ?_ }
      show some (asked f'.item) = _
      rw [same, ← h.stands.flight, flight]
      rfl
  | finished r later => exact ⟨_, h.later later (h.stands.finished flight r)⟩

/-- The worker does a step. -/
theorem worked (h : Kept c w asks done x) {over? : Option Done} (worked : Worked w c x over? w') :
    ∃ x', Kept c w' asks (done ++ over?.toList) x' := by
  have stands := h.stands
  cases worked with
  | rests later => exact h.silent later stands
  | carried flight carried => exact h.carried flight carried
  | dropped flight later =>
      obtain ⟨f, flight⟩ := Option.isSome_iff_exists.mp flight
      refine h.silent later (stands.fewer rfl rfl ?_ rfl)
      rw [stands.inLine_flight flight]
      exact List.sublist_cons_self _ _
  | @skipped _ i rest pending later =>
      refine h.silent later (stands.fewer rfl rfl (.map _ (.append_left ?_ _)) stands.flight)
      rw [pending]
      exact List.sublist_cons_self i rest
  | @started _ i rest idle pending later =>
      refine h.silent later (stands.fewer rfl rfl ?_ rfl)
      rw [stands.inLine_idle idle, pending]
      exact .refl _
  | ended idle later =>
      refine h.silent later (stands.fewer rfl rfl (.map _ (.append_left ?_ _)) stands.flight)
      exact List.nil_sublist _

/-- The work in flight breaks the queue. -/
theorem broken (h : Kept c w asks done x) : ∃ x', Kept c ((Sim.modifyConn c fun x =>
    { x with flight := none, queue := x.queue.crash.1 }).run w).2 asks done x' := by
  have crashed := (Later.refl h.conn).modifyConn fun x =>
    { x with flight := none, queue := x.queue.crash.1 }
  exact ⟨_, h.later crashed (h.stands.fewer rfl rfl (List.nil_sublist _) rfl)⟩

/-- Somebody asks for something. -/
theorem submitted (h : Kept c w asks done x) (work : Work) (detached : Bool) :
    ∃ x', Kept c ((submit c work detached).run w).2
      (asks ++ (((submit c work detached).run w).1.map fun id => ⟨id, work⟩).toList) done x' := by
  rcases submit_cases h.conn work detached with ⟨refused, later⟩ | ⟨accepted, grows, later⟩
  · rw [refused]
    refine ⟨x, ?_⟩
    rw [Option.map_none, Option.toList_none, List.append_nil]
    exact h.later later h.stands
  · rw [accepted]
    refine ⟨_, later.conn, h.stands.submitted { id := w.fresh, work, detached }, ?_, ?_⟩
    · refine List.pairwise_append.mpr ⟨h.sorted, List.pairwise_singleton _ _, ?_⟩
      intro a mem b new
      rw [List.mem_singleton.mp new]
      exact h.issued a mem
    · intro a mem
      rcases List.mem_append.mp mem with old | new
      · exact Nat.lt_trans (h.issued a old) grows
      · rw [List.mem_singleton.mp new]
        exact grows

end Kept

end Sim

/-- Whatever happens, the connection remembers the work that is over. -/
theorem Chronicle.kept {c : Nat} {w : World} {asks : List Asked} {done : List Done}
    (h : Chronicle c w asks done) : ∃ x, Sim.Kept c w asks done x := by
  induction h with
  | @opened w path role config pool opened =>
      rcases Sim.connect_cases w path role config pool with ⟨e, run⟩ | ⟨engine, session, run⟩
      · rw [run] at opened
        cases opened
      · rw [run] at opened ⊢
        cases opened
        exact ⟨_, List.getElem?_concat_length, ⟨rfl, rfl, .refl _, rfl⟩, .nil,
          fun _ mem => absurd mem List.not_mem_nil⟩
  | asked work detached _ ih =>
      obtain ⟨x, kept⟩ := ih
      exact kept.submitted work detached
  | worked _ ih =>
      obtain ⟨x, kept⟩ := ih
      exact kept.worked (Sim.worked_runWorker kept.conn)
  | @answered w asks done x f kind s retry answer _ is flight work ready goesOn ih =>
      obtain ⟨y, kept⟩ := ih
      obtain rfl := Option.some.inj (is.symm.trans kept.conn)
      exact kept.carried flight
        ((Sim.Later.refl is).endAttempt flight work (Sim.fits_answer kind s answer))
  | broken _ ih =>
      obtain ⟨x, kept⟩ := ih
      exact kept.broken
  | @left w _ _ id _ ih =>
      obtain ⟨x, kept⟩ := ih
      obtain ⟨conns, fresh⟩ := Sim.run_leave c id w
      refine ⟨_, ?_, kept.stands.left id, kept.sorted, fun a mem => fresh ▸ kept.issued a mem⟩
      rw [conns, List.getElem?_modify_eq, kept.conn]
      rfl
  | closed _ ih =>
      obtain ⟨x, kept⟩ := ih
      have closed := (Sim.Later.refl kept.conn).beginClose
      exact ⟨_, kept.later closed (kept.stands.touched rfl rfl rfl rfl rfl)⟩
  | dropped _ ih =>
      obtain ⟨x, kept⟩ := ih
      have shut := ((Sim.Later.refl kept.conn).modifyConn fun x => { x with dropped := true }).shut
      exact ⟨_, kept.later shut (kept.stands.touched rfl rfl rfl rfl rfl)⟩
  | shown _ ih =>
      obtain ⟨x, kept⟩ := ih
      obtain ⟨label, shown⟩ := (Sim.Later.refl kept.conn).label
      exact ⟨_, kept.later shown (kept.stands.touched rfl rfl rfl rfl rfl)⟩
  | elsewhere _ same grows ih =>
      obtain ⟨x, kept⟩ := ih
      exact ⟨x, same.trans kept.conn, kept.stands, kept.sorted,
        fun a mem => Nat.lt_of_lt_of_le (kept.issued a mem) grows⟩

end ConnectionPool.Scenario
