import ConnectionPool.Proofs.Call.Stages

/-!
# The invariant of a call

`Inv` says what goes together in a call: the numbers of the operations, the stage, and what
happened to the coordinator.  Every step of anybody keeps it.  A step of the coordinator is
one equation each (`conduct_start` and the others), and what it takes for granted is read off
the stage (`Inv.early`, `Inv.running`, `Inv.told`).
-/

namespace ConnectionPool

/-! ## What happens to a coordinator -/

namespace Transaction

variable {α : Type}

@[simp] theorem Event.ofReply_ok (u : Unit) : ofReply (.ok u) = (.succeeded : Event α) := rfl

@[simp] theorem Event.ofReply_error (e : ConnectionError) :
    ofReply (.error e) = (.failed e : Event α) := rfl

theorem Event.ofReply_cases (r : Except ConnectionError Unit) :
    (ofReply r : Event α) = .succeeded ∨ ∃ e, (ofReply r : Event α) = .failed e := by
  cases r with
  | ok _ => exact .inl rfl
  | error e => exact .inr ⟨e, rfl⟩

/-- What a caller is told, given all that happened to the coordinator. -/
inductive Concludes : List (Event α) → UnitOutcome α → Prop where
  /-- There was no lease. -/
  | notLeased (e : ConnectionError) :
      Concludes [.start, .notLeased e] (.error (.connection e))
  /-- The beginning failed. -/
  | notBegun (e : ConnectionError) :
      Concludes [.start, .leased, .failed e] (.error (.connection e))
  /-- The unit of work returned a value, and the commit succeeded. -/
  | committed (a : α) :
      Concludes [.start, .leased, .succeeded, .unitDone (.value a), .succeeded] (.value a)
  /-- The unit of work returned a value, and the commit failed. -/
  | notCommitted (a : α) (e : ConnectionError) (rollback : Event α) :
      Concludes [.start, .leased, .succeeded, .unitDone (.value a), .failed e, rollback]
        (.error (.connection e))
  /-- The unit of work returned no value. -/
  | rolledBack {o : UnitOutcome α} (rollback : Event α) : (∀ a, o ≠ .value a) →
      Concludes [.start, .leased, .succeeded, .unitDone o, rollback] o

/-- What happened to a coordinator so far, and what its caller was told. -/
inductive Took : Phase α → List (Event α) → Option (UnitOutcome α) → Prop where
  | idle : Took .idle [] none
  | acquiring : Took .acquiring [.start] none
  | beginning : Took .beginning [.start, .leased] none
  | running : Took .running [.start, .leased, .succeeded] none
  | committing (a : α) :
      Took (.committing a) [.start, .leased, .succeeded, .unitDone (.value a)] none
  | notCommitted (a : α) (e : ConnectionError) : Took (.rollingBack (.error (.connection e)))
      [.start, .leased, .succeeded, .unitDone (.value a), .failed e] none
  | rollingBack {o : UnitOutcome α} : (∀ a, o ≠ .value a) →
      Took (.rollingBack o) [.start, .leased, .succeeded, .unitDone o] none
  | concluded {events : List (Event α)} {o : UnitOutcome α} : Concludes events o →
      Took .finished events (some o)
  | dropped (events : List (Event α)) : Took .finished (events ++ [.dropped]) none

namespace Took

variable {events : List (Event α)} {told : Option (UnitOutcome α)}

theorem start (took : Took .idle events told) : Took .acquiring (events ++ [.start]) told := by
  cases took
  exact .acquiring

theorem leased (took : Took .acquiring events told) :
    Took .beginning (events ++ [.leased]) told := by
  cases took
  exact .beginning

theorem notLeased (took : Took .acquiring events told) (e : ConnectionError) :
    Took .finished (events ++ [.notLeased e]) (some (.error (.connection e))) := by
  cases took
  exact .concluded (.notLeased e)

theorem run (took : Took .beginning events told) : Took .running (events ++ [.succeeded]) told := by
  cases took
  exact .running

theorem notBegun (took : Took .beginning events told) (e : ConnectionError) :
    Took .finished (events ++ [.failed e]) (some (.error (.connection e))) := by
  cases took
  exact .concluded (.notBegun e)

theorem commit (took : Took .running events told) (a : α) :
    Took (.committing a) (events ++ [.unitDone (.value a)]) told := by
  cases took
  exact .committing a

theorem rollBack (took : Took .running events told) {o : UnitOutcome α}
    (other : ∀ a, o ≠ .value a) : Took (.rollingBack o) (events ++ [.unitDone o]) told := by
  cases took
  exact .rollingBack other

theorem committed {a : α} (took : Took (.committing a) events told) :
    Took .finished (events ++ [.succeeded]) (some (.value a)) := by
  cases took
  exact .concluded (.committed a)

theorem failed {a : α} (took : Took (.committing a) events told) (e : ConnectionError) :
    Took (.rollingBack (.error (.connection e))) (events ++ [.failed e]) told := by
  cases took
  exact .notCommitted a e

theorem rolledBack {o : UnitOutcome α} (took : Took (.rollingBack o) events told) (e : Event α) :
    Took .finished (events ++ [e]) (some o) := by
  cases took with
  | notCommitted a error => exact .concluded (.notCommitted a error e)
  | rollingBack other => exact .concluded (.rolledBack e other)

/-- What is rolled back returns no value. -/
theorem not_value {o : UnitOutcome α} (took : Took (.rollingBack o) events told) :
    ∀ a, o ≠ .value a := by
  cases took with
  | notCommitted a error => nofun
  | rollingBack other => exact other

end Took

/-- A value is returned only if the unit of work returned it. -/
theorem Concludes.unitDone_mem {events : List (Event α)} {a : α}
    (concludes : Concludes events (.value a)) : .unitDone (.value a) ∈ events := by
  cases concludes with
  | committed => simp
  | rolledBack _ other => exact absurd rfl (other a)

theorem Took.concludes {phase : Phase α} {events : List (Event α)} {o : UnitOutcome α}
    (took : Took phase events (some o)) : Concludes events o := by
  cases took with
  | concluded concludes => exact concludes

theorem Took.outcome_none {phase : Phase α} {events : List (Event α)}
    {o : Option (UnitOutcome α)} (took : Took phase events o) (going : phase ≠ .finished) :
    o = none := by
  cases took with
  | concluded _ => exact absurd rfl going
  | _ => rfl

end Transaction

namespace Call

variable {α β : Type} {s s' : Call α β}

/-- The coordinator goes on to a phase. -/
def goTo (s : Call α β) (phase : Transaction.Phase α) (owesRollback : Bool)
    (e : Transaction.Event α) : Call α β :=
  { s with
    coordinator := { s.coordinator with phase, owesRollback }
    taken := s.taken ++ [e] }

/-- The caller is told the outcome. -/
def tell (s : Call α β) (o : UnitOutcome α) : Call α β := { s with outcome := some o }

theorem conduct_start (idle : s.phase = .idle) :
    s.conduct .start = s.goTo .acquiring s.coordinator.owesRollback .start := by
  rw [phase] at idle
  simp [conduct, Transaction.step_start idle, perform, goTo]

theorem conduct_leased (acquiring : s.phase = .acquiring) :
    s.conduct .leased = (s.goTo .beginning true .leased).ask .opens := by
  rw [phase] at acquiring
  simp [conduct, Transaction.step_leased acquiring, perform, goTo, Control.ofStatement_begin]

theorem conduct_notLeased (acquiring : s.phase = .acquiring) (e : ConnectionError) :
    s.conduct (.notLeased e) =
      (s.goTo .finished s.coordinator.owesRollback (.notLeased e)).tell
        (.error (.connection e)) := by
  rw [phase] at acquiring
  simp [conduct, Transaction.step_notLeased acquiring, perform, goTo, tell]

theorem conduct_succeeded_beginning (beginning : s.phase = .beginning) :
    s.conduct .succeeded = s.goTo .running s.coordinator.owesRollback .succeeded := by
  rw [phase] at beginning
  simp [conduct, Transaction.step_begun beginning, perform, goTo]

theorem conduct_failed_beginning (beginning : s.phase = .beginning) (e : ConnectionError) :
    s.conduct (.failed e) =
      (s.goTo .finished false (.failed e)).tell (.error (.connection e)) := by
  rw [phase] at beginning
  simp [conduct, Transaction.step_notBegun beginning, Transaction.finish, perform, goTo, tell]

theorem conduct_value (running : s.phase = .running) (a : α) :
    s.conduct (.unitDone (.value a)) =
      (s.goTo (.committing a) s.coordinator.owesRollback (.unitDone (.value a))).ask .commits := by
  rw [phase] at running
  simp [conduct, Transaction.step_value running, perform, goTo, Control.ofStatement_commit]

theorem conduct_unitDone (running : s.phase = .running) {o : UnitOutcome α}
    (other : ∀ a, o ≠ .value a) : s.conduct (.unitDone o) =
      (s.goTo (.rollingBack o) s.coordinator.owesRollback (.unitDone o)).ask .rollsBack := by
  rw [phase] at running
  simp [conduct, Transaction.step_failed running other, Transaction.rollBack, perform, goTo,
    Control.ofStatement_rollback]

theorem conduct_succeeded_committing {a : α} (committing : s.phase = .committing a) :
    s.conduct .succeeded = (s.goTo .finished false .succeeded).tell (.value a) := by
  rw [phase] at committing
  simp [conduct, Transaction.step_committed committing, Transaction.finish, perform, goTo, tell]

theorem conduct_failed_committing {a : α} (committing : s.phase = .committing a)
    (e : ConnectionError) : s.conduct (.failed e) =
      (s.goTo (.rollingBack (.error (.connection e))) s.coordinator.owesRollback
        (.failed e)).ask .rollsBack := by
  rw [phase] at committing
  simp [conduct, Transaction.step_notCommitted committing, Transaction.rollBack, perform, goTo,
    Control.ofStatement_rollback]

theorem conduct_rollingBack {o : UnitOutcome α} (rollingBack : s.phase = .rollingBack o)
    {e : Transaction.Event α} (reply : e = .succeeded ∨ ∃ error, e = .failed error) :
    s.conduct e = (s.goTo .finished false e).tell o := by
  rw [phase] at rollingBack
  rcases reply with rfl | ⟨error, rfl⟩
  · simp [conduct, Transaction.step_rolledBack rollingBack, Transaction.finish, perform, goTo,
      tell]
  · simp [conduct, Transaction.step_notRolledBack rollingBack, Transaction.finish, perform, goTo,
      tell]

theorem conduct_dropped_acquiring (acquiring : s.phase = .acquiring) :
    s.conduct .dropped = s.goTo .finished s.coordinator.owesRollback .dropped := by
  rw [phase] at acquiring
  simp [conduct, Transaction.step_dropped_acquiring acquiring, goTo]

theorem conduct_dropped (leased : s.phase.isLeased) (owes : s.coordinator.owesRollback) :
    s.conduct .dropped =
      (s.goTo .finished false .dropped).submit (.control .rollsBack) true := by
  rw [phase] at leased
  simp [conduct, Transaction.step_dropped leased, owes, perform, goTo,
    Control.ofStatement_rollback]

/-! ## The invariant -/

/-- What goes together in a call. -/
structure Inv (s : Call α β) : Prop where
  /-- Operations are told apart by their numbers. -/
  numbered : Numbered s s.items
  /-- The queue and the store go with the coordinator. -/
  stage : Stage s s.items
  /-- The coordinator is in the phase that it came to. -/
  took : Transaction.Took s.phase s.taken s.outcome
  /-- It owes a rollback as long as it has its lease. -/
  owes : s.coordinator.owesRollback = s.phase.isLeased
  /-- It waits for a statement in a phase that awaits one. -/
  waits : s.awaiting.isSome → s.phase.awaits.isSome

/-! ### Submissions -/

theorem submit_accepted (accepts : s.queue.refuses = false) (op : Op β) (detached : Bool) :
    s.submit op detached = { s with
      queue := { s.queue with
        pending := s.queue.pending ++ [{ id := s.fresh, work := op, detached }] }
      fresh := s.fresh + 1 } := by
  rw [submit, WorkQueue.submit, accepts]
  rfl

theorem submit_refused (refuses : s.queue.refuses) (op : Op β) (detached : Bool) :
    s.submit op detached = { s with fresh := s.fresh + 1 } := by
  rw [submit, WorkQueue.submit, refuses]
  rfl

theorem ask_accepted (accepts : s.queue.refuses = false) (c : Control) :
    s.ask c = { s with
      queue := { s.queue with
        pending := s.queue.pending ++ [{ id := s.fresh, work := .control c }] }
      fresh := s.fresh + 1
      awaiting := some s.fresh
      reply := none } := by
  rw [ask, submit_accepted accepts, accepts]
  rfl

theorem ask_refused (refuses : s.queue.refuses) (c : Control) :
    s.ask c = { s with
      fresh := s.fresh + 1
      awaiting := some s.fresh
      reply := some (.error .closed) } := by
  rw [ask, submit_refused refuses, refuses]
  rfl

@[simp] theorem coordinator_submit (op : Op β) (detached : Bool) :
    (s.submit op detached).coordinator = s.coordinator := by
  rw [submit]
  split <;> rfl

@[simp] theorem taken_submit (op : Op β) (detached : Bool) :
    (s.submit op detached).taken = s.taken := by
  rw [submit]
  split <;> rfl

@[simp] theorem outcome_submit (op : Op β) (detached : Bool) :
    (s.submit op detached).outcome = s.outcome := by
  rw [submit]
  split <;> rfl

@[simp] theorem awaiting_submit (op : Op β) (detached : Bool) :
    (s.submit op detached).awaiting = s.awaiting := by
  rw [submit]
  split <;> rfl

theorem items_append (s : Call α β) (i : WorkItem (Op β)) :
    s.queue.current.toList ++ (s.queue.pending ++ [i]) = s.items ++ [i] :=
  (List.append_assoc _ _ _).symm

theorem items_of_current {i : WorkItem (Op β)} (current : s.queue.current = some i) :
    s.items = i :: s.queue.pending := by
  rw [items, current]
  rfl

theorem items_of_idle (idle : s.queue.current = none) : s.items = s.queue.pending := by
  rw [items, idle]
  rfl

/-- What `turn` does to a call. -/
inductive Turned (s : Call α β) : Call α β → Prop where
  /-- Nothing. -/
  | rest : Turned s s
  /-- The first operation is passed over. -/
  | skip {i : WorkItem (Op β)} {queue : WorkQueue (Op β)} :
      s.items = i :: ({ s with queue } : Call α β).items → i.isGivenUp →
      (s.queue.refuses → queue.refuses) → Turned s { s with queue }
  /-- The first operation is started. -/
  | start {queue : WorkQueue (Op β)} : ({ s with queue } : Call α β).items = s.items →
      (s.queue.refuses → queue.refuses) → Turned s { s with queue }
  /-- The queue ends. -/
  | finish {queue : WorkQueue (Op β)} : queue.refuses → queue.current = none →
      queue.pending = [] → Turned s (s.lose queue s.items)

theorem turned (s : Call α β) : Turned s s.turn := by
  have turned := s.queue.turned
  rw [Call.turn]
  generalize s.queue.turn = result at turned
  cases turned with
  | rest _ => exact .rest
  | @skip i rest pending idle _ givenUp =>
      refine .skip (i := i) ?_ givenUp fun refuses => refuses
      have left : ({ s with queue := { s.queue with pending := rest } } : Call α β).items = rest :=
        items_of_idle idle
      rw [left, items_of_idle idle, pending]
  | @start i rest pending idle _ _ =>
      refine .start ?_ fun refuses => refuses
      rw [items_of_idle idle, pending]
      rfl
  | finish idle _ =>
      have finish : Turned s (s.lose { s.queue with pending := [], ended := true } s.items) :=
        .finish (Bool.or_true _) idle rfl
      rwa [items_of_idle idle] at finish

theorem items_leave (s : Call α β) (id : Nat) :
    ({ s with queue := s.queue.leave id } : Call α β).items =
      s.items.map (WorkQueue.markAbandoned id) := WorkQueue.items_leave s.queue id

theorem items_leftQueue (s : Call α β) : ∃ f : WorkItem (Op β) → WorkItem (Op β),
    (∀ i, (f i).work = i.work ∧ (f i).id = i.id ∧ (f i).detached = i.detached) ∧
      ({ s with queue := s.leftQueue } : Call α β).items = s.items.map f := by
  rw [leftQueue]
  cases s.awaiting with
  | some id => exact ⟨_, WorkQueue.markAbandoned_same id, items_leave s id⟩
  | none => exact ⟨id, fun _ => ⟨rfl, rfl, rfl⟩, (List.map_id _).symm⟩

namespace Numbered

variable {l l' : List (WorkItem (Op β))}

/-- Fewer operations, of which the coordinator waits for none but those it waited for. -/
theorem mono (numbered : Numbered s l) (sub : l'.Sublist l) (le : s.fresh ≤ s'.fresh)
    (awaiting : ∀ id, s'.awaiting = some id → s.awaiting = some id)
    (reply : ∀ i ∈ l', s'.awaiting = some i.id → s.reply = none → s'.reply = none) :
    Numbered s' l' where
  keyed := numbered.keyed.sublist sub
  lt i mem := Nat.lt_of_lt_of_le (numbered.lt i (sub.subset mem)) le
  awaiting_lt id is := Nat.lt_of_lt_of_le (numbered.awaiting_lt id (awaiting id is)) le
  awaited i mem is := by
    obtain ⟨stays, silent, control⟩ := numbered.awaited i (sub.subset mem) (awaiting i.id is)
    exact ⟨stays, reply i mem is silent, control⟩

/-- Operations are left, but not the one that the coordinator waits for. -/
theorem map (numbered : Numbered s l) {f : WorkItem (Op β) → WorkItem (Op β)}
    (same : ∀ i, (f i).id = i.id) (fresh : s'.fresh = s.fresh)
    (waits : ∀ id, s'.awaiting = some id → s.awaiting = some id ∧ s'.reply = s.reply)
    (kept : ∀ i, s'.awaiting = some i.id → f i = i) : Numbered s' (l.map f) where
  keyed := by
    have keyed := numbered.keyed
    rw [Keyed] at keyed ⊢
    rwa [List.map_map, show WorkItem.id ∘ f = WorkItem.id from funext same]
  lt i mem := by
    obtain ⟨j, old, rfl⟩ := List.mem_map.mp mem
    rw [same, fresh]
    exact numbered.lt j old
  awaiting_lt id is := fresh ▸ numbered.awaiting_lt id (waits id is).1
  awaited i mem is := by
    obtain ⟨j, old, rfl⟩ := List.mem_map.mp mem
    rw [same] at is
    rw [kept j is, (waits _ is).2]
    exact numbered.awaited j old (waits _ is).1

theorem complete {i : WorkItem (Op β)} (numbered : Numbered s (i :: l))
    (r : Except ConnectionError Unit) (after : Store β) : Numbered (s.complete i r after) l := by
  refine numbered.mono (List.sublist_cons_self i l) (Nat.le_refl _) (fun _ is => is) ?_
  intro j mem is silent
  have other : j.id ≠ i.id := numbered.keyed.ne_of_mem_tail (l := []) mem
  have ignored : ¬s.awaiting = some i.id := fun is' => other (Option.some.inj (is.symm.trans is'))
  simp [Call.complete, sendReply, ignored, silent]

theorem submit (numbered : Numbered s s.items) (op : Op β) (detached : Bool) :
    Numbered (s.submit op detached) (s.submit op detached).items := by
  cases accepts : s.queue.refuses with
  | true =>
      rw [submit_refused accepts]
      exact numbered.mono (List.Sublist.refl _) (Nat.le_succ _) (fun _ is => is) fun _ _ _ r => r
  | false =>
      rw [submit_accepted accepts]
      show Numbered _ (s.queue.current.toList ++ (s.queue.pending ++ [_]))
      rw [items_append]
      exact {
        keyed := numbered.keyed.append_fresh numbered.lt
        lt := lt_succ_of_mem_append numbered.lt
        awaiting_lt := fun id is => Nat.lt_succ_of_lt (numbered.awaiting_lt id is)
        awaited := by
          intro i mem is
          rcases List.mem_append.mp mem with mem | mem
          · exact numbered.awaited i mem is
          · rw [List.mem_singleton.mp mem] at is
            exact absurd (numbered.awaiting_lt _ is) (Nat.lt_irrefl _) }

theorem ask (numbered : Numbered s s.items) (c : Control) :
    Numbered (s.ask c) (s.ask c).items := by
  have other : ∀ i ∈ s.items, (some s.fresh : Option Nat) ≠ some i.id :=
    fun i mem is => Nat.ne_of_gt (numbered.lt i mem) (Option.some.inj is)
  cases accepts : s.queue.refuses with
  | true =>
      rw [ask_refused accepts]
      exact {
        keyed := numbered.keyed
        lt := fun i mem => Nat.lt_succ_of_lt (numbered.lt i mem)
        awaiting_lt := fun id is => Option.some.inj is ▸ Nat.lt_succ_self _
        awaited := fun i mem is => absurd is (other i mem) }
  | false =>
      rw [ask_accepted accepts]
      show Numbered _ (s.queue.current.toList ++ (s.queue.pending ++ [_]))
      rw [items_append]
      exact {
        keyed := numbered.keyed.append_fresh numbered.lt
        lt := lt_succ_of_mem_append numbered.lt
        awaiting_lt := fun id is => Option.some.inj is ▸ Nat.lt_succ_self _
        awaited := by
          intro i mem is
          rcases List.mem_append.mp mem with mem | mem
          · exact absurd is (other i mem)
          · rw [List.mem_singleton.mp mem]
            exact ⟨rfl, rfl, c, rfl⟩ }

end Numbered

/-! ### Where the coordinator stands -/

/-- The transaction is open, and only statements of the unit of work are in the queue. -/
def Working (s : Call α β) (l : List (WorkItem (Op β))) : Prop := Statements l ∧ Uncommitted s

/-- The transaction is not open, and nothing of the call is in the queue. -/
structure Cleared (s : Call α β) (l : List (WorkItem (Op β))) : Prop where
  /-- What is in the queue is others'. -/
  others : Foreign l
  /-- What is open is others'. -/
  opener : s.store.opener ≠ some .call
  /-- Nothing is held. -/
  held : s.store.held = []

/-- Nothing of the call is in the queue, and its transaction is not open. -/
theorem Cleared.stage {l : List (WorkItem (Op β))} (cleared : Cleared s l)
    (store : s'.store = s.store) (result : Result s') : Stage s' l :=
  .settled (fun i mem => .inl (cleared.others i mem)) (store ▸ cleared.opener)
    (store ▸ cleared.held) result

theorem Cleared.carry {l : List (WorkItem (Op β))} (cleared : Cleared s l)
    (store : s'.store = s.store) : Cleared s' l :=
  ⟨cleared.others, store ▸ cleared.opener, store ▸ cleared.held⟩

/-- Only statements of the unit of work are in the queue, and its transaction is open. -/
theorem Working.stage {l : List (WorkItem (Op β))} (working : Working s l)
    (store : s'.store = s.store) (effects : s'.effects = s.effects)
    (silent : ∀ a, s'.outcome ≠ some (.value a)) (holds : Holds s' none [] []) : Stage s' l :=
  .opened l none [] [] (List.append_nil l).symm working.1 holds
    (working.2.carry store effects silent)

theorem Working.carry {l : List (WorkItem (Op β))} (working : Working s l)
    (store : s'.store = s.store) (effects : s'.effects = s.effects)
    (silent : ∀ a, s'.outcome ≠ some (.value a)) : Working s' l :=
  ⟨working.1, working.2.carry store effects silent⟩

section Standing

/-- A call that goes on has left no rollback behind. -/
theorem others_of_going (going : s.phase ≠ .finished)
    (kinds : ∀ i ∈ s.items, i.work = .foreign ∨ i.work = .control .rollsBack ∧
      s.phase = .finished) : Foreign s.items :=
  fun i mem => (kinds i mem).resolve_right fun rollsBack => going rollsBack.2

/-- Without a lease, and before it is over, the call did nothing. -/
theorem Inv.early (inv : Inv s) (early : s.phase.isLeased = false) (going : s.phase ≠ .finished) :
    Cleared s s.items ∧ Unopened s := by
  have none : s.outcome = none := inv.took.outcome_none going
  have unleased : ∀ {p}, s.phase = p → p.isLeased → False := by
    rintro _ rfl leased
    cases early.symm.trans leased
  cases inv.stage with
  | asked _ _ _ _ _ _ _ asks _ =>
      cases asks with
      | beginning phase => exact (unleased phase rfl).elim
      | dropped phase => exact absurd phase going
  | opened _ _ _ _ _ _ holds _ =>
      cases holds with
      | beginning phase | running phase | committing phase | notCommitted phase
      | rollingBack phase | notRolledBack phase => exact (unleased phase rfl).elim
      | finished phase => exact absurd phase going
  | settled kinds opener held result =>
      cases result with
      | early _ effects published =>
          exact ⟨⟨others_of_going going kinds, opener, held⟩,
            opener, held, published, effects, by simp [none]⟩
      | notBegun phase | broken phase | committed phase | notCommitted phase | rolledBack phase =>
          exact (unleased phase rfl).elim
      | kept phase | lost phase => exact absurd phase going

/-- While the unit of work runs, the transaction is open, unless the connection broke. -/
theorem Inv.running (inv : Inv s) (running : s.phase = .running) :
    Working s s.items ∨ Cleared s s.items ∧ s.queue.refuses ∧ s.store.published = [] := by
  cases inv.stage with
  | asked _ _ _ _ _ _ _ asks _ =>
      cases asks with
      | beginning phase | dropped phase => cases running.symm.trans phase
  | opened statements _ _ _ eq all holds uncommitted =>
      cases holds with
      | running _ => exact .inl ⟨by simpa [eq] using all, uncommitted⟩
      | beginning phase | committing phase | notCommitted phase | rollingBack phase
      | notRolledBack phase | finished phase => cases running.symm.trans phase
  | settled kinds opener held result =>
      have others := others_of_going (by rw [running]; nofun) kinds
      cases result with
      | broken _ refuses published => exact .inr ⟨⟨others, opener, held⟩, refuses, published⟩
      | early phase => rcases phase with phase | phase <;> cases running.symm.trans phase
      | notBegun phase | committed phase | notCommitted phase | rolledBack phase | kept phase
      | lost phase => cases running.symm.trans phase

/-- What a coordinator is told that takes a reply. -/
inductive Told (s : Call α β) (r : Except ConnectionError Unit) : Prop where
  /-- The transaction was opened. -/
  | begun : s.phase = .beginning → r = .ok () → Working s s.items → Told s r
  /-- It was not, or the connection broke then. -/
  | notBegun : s.phase = .beginning → (r = .ok () → s.queue.refuses) → Cleared s s.items →
      s.store.published = [] → Told s r
  /-- It was committed. -/
  | committed {a : α} : s.phase = .committing a → r = .ok () → Cleared s s.items →
      s.store.published = s.effects → Told s r
  /-- It was not. -/
  | notCommitted {a : α} {e : ConnectionError} : s.phase = .committing a → r = .error e →
      Working s s.items → Told s r
  /-- It was not, and the connection broke. -/
  | broken {a : α} {e : ConnectionError} : s.phase = .committing a → r = .error e →
      Cleared s s.items → s.queue.refuses → s.store.published = [] → Told s r
  /-- The rollback was refused. -/
  | notRolledBack {o : UnitOutcome α} : s.phase = .rollingBack o → Working s s.items →
      s.queue.refuses → Told s r
  /-- It was rolled back. -/
  | rolledBack {o : UnitOutcome α} : s.phase = .rollingBack o → Cleared s s.items →
      s.store.published = [] → Told s r

theorem Inv.told (inv : Inv s) {r : Except ConnectionError Unit} (reply : s.reply = some r)
    (awaits : s.phase.awaits.isSome) : Told s r := by
  -- what the coordinator waits for is not in the queue any more
  have gone : ∀ i ∈ s.items, s.awaiting ≠ some i.id := by
    intro i mem is
    cases (inv.numbered.awaited i mem is).2.1.symm.trans reply
  have waiting : ∀ {p}, s.phase = p → p.awaits ≠ none := by
    rintro _ rfl none
    rw [none] at awaits
    cases awaits
  have going : s.phase ≠ .finished := fun finished => waiting finished rfl
  have same : ∀ {r'}, s.reply = some r' → r = r' :=
    fun other => Option.some.inj (reply.symm.trans other)
  cases inv.stage with
  | asked before i rollbacks later eq _ _ asks _ =>
      cases asks with
      | beginning _ is => exact absurd is (gone i (by simp [eq]))
      | dropped phase => exact absurd phase going
  | opened statements commit rollbacks later eq all holds uncommitted =>
      cases holds with
      | beginning phase ok => exact .begun phase (same ok) ⟨by simpa [eq] using all, uncommitted⟩
      | running phase => exact absurd rfl (waiting phase)
      | @committing _ i _ _ is => exact absurd is (gone i (by simp [eq]))
      | notCommitted phase error =>
          exact .notCommitted phase (same error) ⟨by simpa [eq] using all, uncommitted⟩
      | @rollingBack _ i _ _ is => exact absurd is (gone i (by simp [eq]))
      | notRolledBack phase _ refuses =>
          exact .notRolledBack phase ⟨by simpa [eq] using all, uncommitted⟩ refuses
      | finished phase => exact absurd phase going
  | settled kinds opener held result =>
      have cleared : Cleared s s.items := ⟨others_of_going going kinds, opener, held⟩
      cases result with
      | early phase => rcases phase with phase | phase <;> exact absurd rfl (waiting phase)
      | notBegun phase is broke published =>
          exact .notBegun phase (fun ok => broke ((same is).symm.trans ok)) cleared published
      | broken phase => exact absurd rfl (waiting phase)
      | committed phase ok published => exact .committed phase (same ok) cleared published
      | notCommitted phase error refuses published =>
          exact .broken phase (same error) cleared refuses published
      | rolledBack phase _ published => exact .rolledBack phase cleared published
      | kept phase | lost phase => exact absurd phase going

end Standing

/-! ### Statements of the coordinator -/

theorem stage_askBegin (phase : s.phase = .beginning) (cleared : Cleared s s.items)
    (unopened : Unopened s) : Stage (s.ask .opens) (s.ask .opens).items := by
  cases accepts : s.queue.refuses with
  | true =>
      rw [ask_refused accepts]
      exact cleared.stage rfl (.notBegun phase rfl nofun unopened.published)
  | false =>
      rw [ask_accepted accepts]
      exact .asked s.items _ [] [] (items_append s _) cleared.others rfl (.beginning phase rfl)
        (unopened.carry rfl rfl unopened.outcome)

theorem stage_askCommit {a : α} (phase : s.phase = .committing a) (working : Working s s.items) :
    Stage (s.ask .commits) (s.ask .commits).items := by
  have silent := working.2.outcome
  cases accepts : s.queue.refuses with
  | true =>
      rw [ask_refused accepts]
      exact working.stage rfl rfl silent (.notCommitted phase rfl)
  | false =>
      rw [ask_accepted accepts]
      exact .opened s.items (some _) [] [] (items_append s _) working.1
        (.committing phase rfl rfl) (working.2.carry rfl rfl silent)

theorem stage_askRollback {o : UnitOutcome α} (phase : s.phase = .rollingBack o)
    (working : Working s s.items) : Stage (s.ask .rollsBack) (s.ask .rollsBack).items := by
  have silent := working.2.outcome
  cases accepts : s.queue.refuses with
  | true =>
      rw [ask_refused accepts]
      exact working.stage rfl rfl silent (.notRolledBack phase rfl accepts)
  | false =>
      rw [ask_accepted accepts]
      exact .opened s.items none [_] [] (items_append s _) working.1
        (.rollingBack phase rfl rfl) (working.2.carry rfl rfl silent)

/-- After the connection broke, a statement is refused. -/
theorem stage_askRefused (cleared : Cleared s s.items) (refuses : s.queue.refuses)
    (published : s.store.published = []) {c : Control}
    (phase : (∃ a, s.phase = .committing a) ∨ ∃ o, s.phase = .rollingBack o) :
    Stage (s.ask c) (s.ask c).items := by
  rw [ask_refused refuses]
  refine cleared.stage rfl ?_
  rcases phase with ⟨a, phase⟩ | ⟨o, phase⟩
  · exact .notCommitted phase rfl refuses published
  · exact .rolledBack phase rfl published

/-- The caller gave up, and a rollback is left behind. -/
theorem stage_leaveRollback {t : Call α β} (stage : Stage s t.items) (leased : s.phase.isLeased)
    (finished : t.phase = .finished) (none : t.outcome = none) (store : t.store = s.store)
    (effects : t.effects = s.effects) :
    Stage (t.submit (.control .rollsBack) true) (t.submit (.control .rollsBack) true).items := by
  cases accepts : t.queue.refuses with
  | true =>
      rw [submit_refused accepts]
      have nothing : Rollbacks ([] : List (WorkItem (Op β))) := fun _ mem => by cases mem
      have next := stage.forsake leased (t := { t with fresh := t.fresh + 1 }) finished none store
        effects nothing (.refused accepts)
      rwa [List.append_nil] at next
  | false =>
      rw [submit_accepted accepts]
      show Stage _ (t.queue.current.toList ++ (t.queue.pending ++ [_]))
      rw [items_append]
      have backs : Rollbacks [(⟨t.fresh, .control .rollsBack, true, false⟩ : WorkItem (Op β))] :=
        fun i mem => by rw [List.mem_singleton.mp mem]
      have next := stage.forsake leased finished none store effects backs
        (.owing List.mem_cons_self rfl)
      exact next.like ⟨rfl, rfl, rfl, rfl, fun refuses => refuses⟩ rfl rfl

/-! ### Steps of the coordinator -/

theorem Numbered.goTo (numbered : Numbered s s.items) (phase : Transaction.Phase α)
    (owesRollback : Bool) (e : Transaction.Event α) :
    Numbered (s.goTo phase owesRollback e) s.items :=
  numbered.mono (List.Sublist.refl _) (Nat.le_refl _) (fun _ is => is) fun _ _ _ silent => silent

/-- Nothing is waited for any more. -/
theorem Numbered.free (numbered : Numbered s s.items) (s' : Call α β) (fresh : s'.fresh = s.fresh)
    (free : s'.awaiting = none) : Numbered s' s.items :=
  numbered.mono (List.Sublist.refl _) (Nat.le_of_eq fresh.symm)
    (fun _ is => by cases free.symm.trans is) fun _ _ is => by cases free.symm.trans is

namespace Inv

theorem ofAsk {c : Control} (numbered : Numbered s s.items)
    (stage : Stage (s.ask c) (s.ask c).items) (took : Transaction.Took s.phase s.taken s.outcome)
    (owes : s.coordinator.owesRollback = s.phase.isLeased) (awaits : s.phase.awaits.isSome) :
    Inv (s.ask c) where
  numbered := numbered.ask c
  stage := stage
  took := by
    show Transaction.Took (s.submit _ _).coordinator.phase (s.submit _ _).taken
      (s.submit _ _).outcome
    rw [coordinator_submit, taken_submit, outcome_submit]
    exact took
  owes := by
    show (s.submit _ _).coordinator.owesRollback = (s.submit _ _).coordinator.phase.isLeased
    rw [coordinator_submit]
    exact owes
  waits _ := by
    show (s.submit _ _).coordinator.phase.awaits.isSome
    rw [coordinator_submit]
    exact awaits

theorem awaiting_none (inv : Inv s) (silent : s.phase.awaits = none) : s.awaiting = none := by
  cases awaiting : s.awaiting with
  | none => rfl
  | some id =>
      have awaits := inv.waits (by rw [awaiting]; rfl)
      rw [silent] at awaits
      cases awaits

theorem ofRun (numbered : Numbered s s.items) (free : s.awaiting = none)
    (owes : s.coordinator.owesRollback = true)
    (took : Transaction.Took .beginning s.taken s.outcome)
    (stage : Stage (s.goTo .running s.coordinator.owesRollback .succeeded) s.items) :
    Inv (s.goTo .running s.coordinator.owesRollback .succeeded) where
  numbered := numbered.goTo _ _ _
  stage := stage
  took := took.run
  owes := owes
  waits is := by cases free ▸ is

theorem ofTell (numbered : Numbered s s.items) (free : s.awaiting = none)
    {e : Transaction.Event α} {o : UnitOutcome α}
    (took : Transaction.Took .finished (s.taken ++ [e]) (some o))
    (stage : Stage ((s.goTo .finished false e).tell o) s.items) :
    Inv ((s.goTo .finished false e).tell o) where
  numbered := numbered.free _ rfl free
  stage := stage
  took := took
  owes := rfl
  waits is := by cases free ▸ is

theorem start (inv : Inv s) (idle : s.phase = .idle) : Inv (s.conduct .start) := by
  obtain ⟨cleared, unopened⟩ := inv.early (by rw [idle]; rfl) (by rw [idle]; nofun)
  have free := inv.awaiting_none (by rw [idle]; rfl)
  rw [conduct_start idle]
  exact {
    numbered := inv.numbered.goTo _ _ _
    stage := cleared.stage rfl (.early (.inr rfl) unopened.effects unopened.published)
    took := (idle ▸ inv.took).start
    owes := inv.owes.trans (by rw [idle]; rfl)
    waits := fun is => by cases free ▸ is }

theorem leased (inv : Inv s) (acquiring : s.phase = .acquiring) : Inv (s.conduct .leased) := by
  obtain ⟨cleared, unopened⟩ := inv.early (by rw [acquiring]; rfl) (by rw [acquiring]; nofun)
  rw [conduct_leased acquiring]
  refine ofAsk (inv.numbered.goTo _ _ _) ?_ (acquiring ▸ inv.took).leased rfl rfl
  exact stage_askBegin rfl (cleared.carry rfl) (unopened.carry rfl rfl unopened.outcome)

theorem notLeased (inv : Inv s) (acquiring : s.phase = .acquiring) (e : ConnectionError) :
    Inv (s.conduct (.notLeased e)) := by
  obtain ⟨cleared, unopened⟩ := inv.early (by rw [acquiring]; rfl) (by rw [acquiring]; nofun)
  have owes : s.coordinator.owesRollback = false := inv.owes.trans (by rw [acquiring]; rfl)
  rw [conduct_notLeased acquiring, owes]
  exact ofTell inv.numbered (inv.awaiting_none (by rw [acquiring]; rfl))
    ((acquiring ▸ inv.took).notLeased e) (cleared.stage rfl (.lost rfl nofun unopened.published))

theorem unitDone (inv : Inv s) (running : s.phase = .running) (o : UnitOutcome α) :
    Inv (s.conduct (.unitDone o)) := by
  have took := running ▸ inv.took
  have owes : s.coordinator.owesRollback = true := inv.owes.trans (by rw [running]; rfl)
  have failed : ∀ {o : UnitOutcome α}, (∀ a, o ≠ .value a) → Inv (s.conduct (.unitDone o)) := by
    intro o other
    rw [conduct_unitDone running other]
    refine ofAsk (inv.numbered.goTo _ _ _) ?_ (took.rollBack other) owes rfl
    rcases inv.running running with working | ⟨cleared, refuses, published⟩
    · exact stage_askRollback rfl (working.carry rfl rfl working.2.outcome)
    · exact stage_askRefused (s := s.goTo _ _ _) (cleared.carry rfl) refuses published
        (.inr ⟨o, rfl⟩)
  cases o with
  | value a =>
      rw [conduct_value running]
      refine ofAsk (inv.numbered.goTo _ _ _) ?_ (took.commit a) owes rfl
      rcases inv.running running with working | ⟨cleared, refuses, published⟩
      · exact stage_askCommit rfl (working.carry rfl rfl working.2.outcome)
      · exact stage_askRefused (s := s.goTo _ _ _) (cleared.carry rfl) refuses published
          (.inl ⟨a, rfl⟩)
  | error e => exact failed nofun
  | panic message => exact failed nofun

theorem answer (inv : Inv s) {r : Except ConnectionError Unit} (waiting : s.awaiting.isSome)
    (reply : s.reply = some r) : Inv (s.answer r) := by
  have numbered : Numbered s.free s.free.items := inv.numbered.free _ rfl rfl
  rw [Call.answer]
  -- the reply has left the stage by now, so what it told is taken from the stage before
  cases inv.told reply (inv.waits waiting) with
  | begun phase ok working =>
      rw [ok, Transaction.Event.ofReply_ok, conduct_succeeded_beginning (s := s.free) phase]
      refine ofRun numbered rfl (inv.owes.trans (by rw [phase]; rfl)) (phase ▸ inv.took) ?_
      exact working.stage rfl rfl working.2.outcome (.running rfl)
  | notBegun phase broke cleared published =>
      cases r with
      | ok =>
          rw [Transaction.Event.ofReply_ok, conduct_succeeded_beginning (s := s.free) phase]
          refine ofRun numbered rfl (inv.owes.trans (by rw [phase]; rfl)) (phase ▸ inv.took) ?_
          exact cleared.stage rfl (.broken rfl (broke rfl) published)
      | error e =>
          rw [Transaction.Event.ofReply_error, conduct_failed_beginning (s := s.free) phase]
          exact ofTell numbered rfl ((phase ▸ inv.took).notBegun e)
            (cleared.stage rfl (.lost rfl nofun published))
  | @committed a phase ok cleared published =>
      rw [ok, Transaction.Event.ofReply_ok, conduct_succeeded_committing (s := s.free) phase]
      refine ofTell numbered rfl (phase ▸ inv.took).committed (cleared.stage rfl ?_)
      exact .kept rfl (fun _ is => ⟨a, (Option.some.inj is).symm⟩) published
  | @notCommitted a e phase error working =>
      rw [error, Transaction.Event.ofReply_error, conduct_failed_committing (s := s.free) phase]
      refine ofAsk (numbered.goTo _ _ _) ?_ ((phase ▸ inv.took).failed e)
        (inv.owes.trans (by rw [phase]; rfl)) rfl
      exact stage_askRollback rfl (working.carry rfl rfl working.2.outcome)
  | @broken a e phase error cleared refuses published =>
      rw [error, Transaction.Event.ofReply_error, conduct_failed_committing (s := s.free) phase]
      refine ofAsk (numbered.goTo _ _ _) ?_ ((phase ▸ inv.took).failed e)
        (inv.owes.trans (by rw [phase]; rfl)) rfl
      exact stage_askRefused (s := s.free.goTo _ _ _) (cleared.carry rfl) refuses published
        (.inr ⟨_, rfl⟩)
  | @notRolledBack o phase working refuses =>
      have took := phase ▸ inv.took
      rw [conduct_rollingBack (s := s.free) phase (Transaction.Event.ofReply_cases r)]
      refine ofTell numbered rfl (took.rolledBack _) ?_
      exact working.stage rfl rfl (fun a is => took.not_value a (Option.some.inj is))
        (.finished rfl nofun nofun nofun (.refused refuses))
  | @rolledBack o phase cleared published =>
      have took := phase ▸ inv.took
      rw [conduct_rollingBack (s := s.free) phase (Transaction.Event.ofReply_cases r)]
      refine ofTell numbered rfl (took.rolledBack _) (cleared.stage rfl ?_)
      exact .lost rfl (fun a is => took.not_value a (Option.some.inj is)) published

theorem drop (inv : Inv s) (active : s.phase.isActive) : Inv s.drop := by
  obtain ⟨f, same, items⟩ := items_leftQueue s
  have numbered : Numbered ({ s.free with queue := s.leftQueue } : Call α β) (s.items.map f) :=
    inv.numbered.map (fun i => (same i).2.1) rfl nofun nofun
  rw [← items] at numbered
  have none : s.outcome = none := inv.took.outcome_none fun finished => by
    rw [finished] at active
    cases active
  have took : Transaction.Took .finished (s.taken ++ [.dropped]) s.outcome :=
    none ▸ .dropped s.taken
  -- without its lease the call submitted nothing, and leaves nothing behind
  cases leased : s.phase.isLeased with
  | false =>
      have acquiring : s.phase = .acquiring := by
        cases is : s.phase <;> rw [is] at active leased <;> cases active <;> cases leased
      obtain ⟨cleared, unopened⟩ := inv.early leased (by rw [acquiring]; nofun)
      rw [Call.drop,
        conduct_dropped_acquiring (s := { s.free with queue := s.leftQueue }) acquiring]
      exact {
        numbered := numbered.goTo _ _ _
        stage := by
          refine .settled ?_ unopened.opener unopened.held
            (.lost rfl unopened.outcome unopened.published)
          intro i mem
          obtain ⟨j, old, rfl⟩ := List.mem_map.mp (items ▸ mem)
          exact .inl ((same j).1.trans (cleared.others j old))
        took := took
        owes := inv.owes.trans leased
        waits := nofun }
  | true =>
      rw [Call.drop, conduct_dropped (s := { s.free with queue := s.leftQueue }) leased
        (inv.owes.trans leased)]
      exact {
        numbered := (numbered.goTo _ _ _).submit _ _
        stage := by
          refine stage_leaveRollback (s := s) ?_ leased rfl none rfl rfl
          exact items ▸ inv.stage.map same
        took := by
          rw [phase, coordinator_submit, taken_submit, outcome_submit]
          exact took
        owes := by
          rw [phase, coordinator_submit]
          rfl
        waits := by
          rw [awaiting_submit]
          nofun }

/-! ### Steps of the others -/

/-- The queue changes, and the coordinator does not. -/
theorem ofQueue (inv : Inv s) {s' : Call α β} (coordinator : s'.coordinator = s.coordinator)
    (taken : s'.taken = s.taken) (outcome : s'.outcome = s.outcome)
    (awaiting : s'.awaiting = s.awaiting) (numbered : Numbered s' s'.items)
    (stage : Stage s' s'.items) : Inv s' where
  numbered := numbered
  stage := stage
  took := by
    rw [phase, coordinator, taken, outcome]
    exact inv.took
  owes := by
    rw [phase, coordinator]
    exact inv.owes
  waits := by
    rw [phase, coordinator, awaiting]
    exact inv.waits

theorem work (inv : Inv s) (running : s.phase = .running) (b : β) (detached : Bool) :
    Inv (s.submit (.statement b) detached) := by
  refine inv.ofQueue (by simp) (by simp) (by simp) (by simp) (inv.numbered.submit _ _) ?_
  cases accepts : s.queue.refuses with
  | true =>
      rw [submit_refused accepts]
      exact inv.stage.like ⟨rfl, rfl, rfl, rfl, fun refuses => refuses⟩ rfl rfl
  | false =>
      rw [submit_accepted accepts]
      have added := inv.stage.add (i := { id := s.fresh, work := .statement b, detached }) running
        accepts rfl
      rw [← items_append] at added
      exact added.like ⟨rfl, rfl, rfl, rfl, fun refuses => refuses⟩ rfl rfl

theorem submit (inv : Inv s) (unleased : s.phase.isLeased = false) (detached : Bool) :
    Inv (s.submit .foreign detached) := by
  refine inv.ofQueue (by simp) (by simp) (by simp) (by simp) (inv.numbered.submit _ _) ?_
  cases accepts : s.queue.refuses with
  | true =>
      rw [submit_refused accepts]
      exact inv.stage.like ⟨rfl, rfl, rfl, rfl, fun refuses => refuses⟩ rfl rfl
  | false =>
      rw [submit_accepted accepts]
      have added := inv.stage.join (i := { id := s.fresh, work := .foreign, detached }) unleased
        accepts rfl
      rw [← items_append] at added
      exact added.like ⟨rfl, rfl, rfl, rfl, fun refuses => refuses⟩ rfl rfl

theorem leave (inv : Inv s) {id : Nat} (other : s.awaiting ≠ some id) :
    Inv { s with queue := s.queue.leave id } := by
  have items := items_leave s id
  refine inv.ofQueue rfl rfl rfl rfl ?_ ?_
  · rw [items]
    refine inv.numbered.map (fun i => (WorkQueue.markAbandoned_same id i).2.1) rfl (fun _ is => ⟨is, rfl⟩) ?_
    intro i is
    exact if_neg fun same => other (is.trans (congrArg some same))
  · rw [items]
    exact (inv.stage.map (WorkQueue.markAbandoned_same id)).like
      ⟨rfl, rfl, rfl, rfl, fun refuses => refuses⟩ rfl rfl

/-- All that is left in the queue is cancelled. -/
theorem lose (inv : Inv s) {queue : WorkQueue (Op β)} (refuses : queue.refuses)
    (current : queue.current = none) (pending : queue.pending = []) :
    Inv (s.lose queue s.items) := by
  have none : (s.lose queue s.items).items = [] := by
    rw [items_of_idle (s := s.lose queue s.items) current]
    exact pending
  refine inv.ofQueue rfl rfl rfl rfl ?_ ?_
  · rw [none]
    exact ⟨List.nodup_nil, nofun, inv.numbered.awaiting_lt, nofun⟩
  · rw [none]
    exact inv.stage.lose inv.numbered refuses

theorem turn (inv : Inv s) : Inv s.turn := by
  have turned := s.turned
  generalize s.turn = s' at turned
  cases turned with
  | rest => exact inv
  | @skip i queue items givenUp refuses =>
      have numbered := items ▸ inv.numbered
      refine inv.ofQueue rfl rfl rfl rfl ?_ ?_
      · exact numbered.mono (List.sublist_cons_self _ _) (Nat.le_refl _) (fun _ is => is)
          fun _ _ _ silent => silent
      · exact ((items ▸ inv.stage).pass numbered givenUp).like ⟨rfl, rfl, rfl, rfl, refuses⟩ rfl rfl
  | start items refuses =>
      refine inv.ofQueue rfl rfl rfl rfl ?_ ?_
      · rw [items]
        exact inv.numbered.mono (List.Sublist.refl _) (Nat.le_refl _) (fun _ is => is)
          fun _ _ _ silent => silent
      · rw [items]
        exact inv.stage.like ⟨rfl, rfl, rfl, rfl, refuses⟩ rfl rfl
  | finish refuses current pending => exact inv.lose refuses current pending

theorem complete (inv : Inv s) {i : WorkItem (Op β)} (current : s.queue.current = some i)
    {r : Except ConnectionError Unit} {after : Store β} (runs : s.store.Runs i.work r after) :
    Inv (s.complete i r after) := by
  have items := items_of_current current
  have numbered := items ▸ inv.numbered
  refine inv.ofQueue rfl rfl rfl rfl ?_ ?_
  · exact numbered.complete r after
  · exact (items ▸ inv.stage).run numbered runs

theorem giveUp (inv : Inv s) {i : WorkItem (Op β)} (current : s.queue.current = some i)
    (givenUp : i.isGivenUp) : Inv (s.complete i (.error .cancelled) s.store) := by
  have items := items_of_current current
  have numbered := items ▸ inv.numbered
  refine inv.ofQueue rfl rfl rfl rfl ?_ ?_
  · exact numbered.complete _ _
  · have none : i.work.effect (.error .cancelled) = [] := by cases i.work <;> rfl
    exact ((items ▸ inv.stage).pass numbered givenUp).like
      (like_complete (numbered.awaiting_ne givenUp)) (by simp [Call.complete, Call.sendReply, none])
      rfl

theorem crash (inv : Inv s) {i : WorkItem (Op β)} (current : s.queue.current = some i) :
    Inv (s.crash i) := by
  have lost : Inv (s.lose s.queue.crash.1 s.items) := inv.lose (Bool.or_true _) rfl rfl
  rwa [items_of_current current] at lost

theorem close (inv : Inv s) : Inv { s with queue := s.queue.requestClose } := by
  refine inv.ofQueue rfl rfl rfl rfl ?_ ?_
  · exact inv.numbered.mono (List.Sublist.refl _) (Nat.le_refl _) (fun _ is => is)
      fun _ _ _ silent => silent
  · exact inv.stage.like ⟨rfl, rfl, rfl, rfl, fun _ => rfl⟩ rfl rfl

theorem step (inv : Inv s) (step : Step s s') : Inv s' := by
  cases step with
  | start idle => exact inv.start idle
  | leased acquiring => exact inv.leased acquiring
  | notLeased e acquiring => exact inv.notLeased acquiring e
  | answer r waiting reply => exact inv.answer waiting reply
  | work b detached running => exact inv.work running b detached
  | unitDone outcome running => exact inv.unitDone running outcome
  | drop active => exact inv.drop active
  | submit detached unleased => exact inv.submit unleased detached
  | leave id other => exact inv.leave other
  | turn => exact inv.turn
  | complete i r after current runs => exact inv.complete current runs
  | giveUp i current givenUp => exact inv.giveUp current givenUp
  | crash i current => exact inv.crash current
  | close => exact inv.close

theorem new (mode : IsolationMode) : Inv ({ coordinator := { mode } } : Call α β) where
  numbered := ⟨List.nodup_nil, nofun, nofun, nofun⟩
  stage := .settled nofun nofun rfl (.early (.inl rfl) rfl rfl)
  took := .idle
  owes := rfl
  waits := nofun

end Inv

theorem Reachable.inv (reachable : Reachable s) : Inv s := by
  obtain ⟨mode, steps⟩ := reachable
  induction steps with
  | refl => exact .new mode
  | tail _ step ih => exact ih.step step

end Call

end ConnectionPool
