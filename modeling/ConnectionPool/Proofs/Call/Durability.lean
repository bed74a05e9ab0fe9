import ConnectionPool.Proofs.Call.Invariant

/-!
# Results and durability agree

A call returns a value only if its unit of work did and all effects of it are committed.  If
it returns anything else, or panics, nothing is committed, and the error is that of the lease,
of the beginning, of the unit of work, or of the commit.  If the caller gives up, all or
nothing is committed once the queue has nothing of the call left.
-/

namespace ConnectionPool

namespace Call

variable {α β : Type} {s s' : Call α β}

/-! ## Calls that are over -/

/-- What can happen once a call is over. -/
inductive Aftermath (s : Call α β) : Call α β → Prop where
  /-- Others submit an operation. -/
  | submit (detached : Bool) : Aftermath s (s.submit .foreign detached)
  /-- The caller of an operation leaves. -/
  | leave (id : Nat) : Aftermath s { s with queue := s.queue.leave id }
  /-- The queue goes on. -/
  | turn : Aftermath s s.turn
  /-- The operation in flight is over, with or without its effect. -/
  | complete (i : WorkItem (Op β)) (r : Except ConnectionError Unit) (after : Store β) :
      s.queue.current = some i → s.store.Runs i.work r after ∨ after = s.store →
      Aftermath s (s.complete i r after)
  /-- The connection breaks. -/
  | crash (i : WorkItem (Op β)) : Aftermath s (s.crash i)
  /-- The connection is to be closed. -/
  | close : Aftermath s { s with queue := s.queue.requestClose }

theorem Step.aftermath (inv : Inv s) (step : Step s s') (finished : s.phase = .finished) :
    Aftermath s s' := by
  cases step with
  | start phase | leased phase | notLeased _ phase | work _ _ phase | unitDone _ phase =>
      cases finished.symm.trans phase
  | answer r waiting _ =>
      have awaits := inv.waits waiting
      rw [finished] at awaits
      cases awaits
  | drop active =>
      rw [finished] at active
      cases active
  | submit detached _ => exact .submit detached
  | leave id _ => exact .leave id
  | turn => exact .turn
  | complete i r after current runs => exact .complete i r after current (.inl runs)
  | giveUp i current _ => exact .complete i _ s.store current (.inr rfl)
  | crash i _ => exact .crash i
  | close => exact .close

/-- A call that is over stays so, and its outcome stays. -/
theorem Aftermath.finished (aftermath : Aftermath s s') :
    s'.coordinator = s.coordinator ∧ s'.outcome = s.outcome := by
  cases aftermath with
  | submit detached => exact ⟨coordinator_submit _ _, outcome_submit _ _⟩
  | turn =>
      rw [Call.turn]
      split <;> exact ⟨rfl, rfl⟩
  | leave _ | complete _ _ _ _ _ | crash _ | close => exact ⟨rfl, rfl⟩

/-- Nothing of the call is in the queue but rollbacks. -/
def Spent (l : List (WorkItem (Op β))) : Prop :=
  ∀ i ∈ l, i.work = .foreign ∨ i.work = .control .rollsBack

/-- Others have a turn only while nothing is held. -/
theorem Inv.held_of_foreign (inv : Inv s) {i : WorkItem (Op β)} {l : List (WorkItem (Op β))}
    (items : s.items = i :: l) (stranger : i.work = .foreign) : s.store.held = [] := by
  cases items ▸ inv.stage with
  | asked _ _ _ _ _ _ _ _ unopened => exact unopened.held
  | settled _ _ held _ => exact held
  | opened statements commit rollbacks later eq all holds _ =>
      cases holds.first all eq with
      | statement is _ _ => cases stranger.symm.trans is
      | commit holds => cases stranger.symm.trans holds.commits
      | rollback holds => cases stranger.symm.trans holds.rollsBack

/-- An operation that is run commits nothing of a call that is spent. -/
theorem Inv.published_of_spent (inv : Inv s) {i : WorkItem (Op β)} {l : List (WorkItem (Op β))}
    (items : s.items = i :: l) (spent : Spent s.items) {r : Except ConnectionError Unit}
    {after : Store β} (runs : s.store.Runs i.work r after) :
    after.published = s.store.published := by
  rcases spent i (items ▸ List.mem_cons_self) with stranger | rollsBack
  · have held := inv.held_of_foreign items stranger
    rw [stranger] at runs
    cases runs with
    | fails _ _ | keeps _ => rfl
    | foreign _ commits _ =>
        cases commits with
        | true => exact (congrArg _ held).trans (List.append_nil _)
        | false => rfl
  · rw [rollsBack] at runs
    cases runs with
    | fails _ _ | rollsBack _ => rfl

/-- A call that is spent stays so, and what is committed of it is final. -/
theorem Aftermath.spent (inv : Inv s) (aftermath : Aftermath s s') (spent : Spent s.items) :
    Spent s'.items ∧ s'.effects = s.effects ∧ s'.store.published = s.store.published := by
  cases aftermath with
  | submit detached =>
      cases accepts : s.queue.refuses with
      | true =>
          rw [submit_refused accepts]
          exact ⟨spent, rfl, rfl⟩
      | false =>
          rw [submit_accepted accepts]
          refine ⟨?_, rfl, rfl⟩
          show Spent (s.queue.current.toList ++ (s.queue.pending ++ [_]))
          rw [items_append]
          intro i mem
          rcases List.mem_append.mp mem with mem | mem
          · exact spent i mem
          · exact .inl (by rw [List.mem_singleton.mp mem])
  | leave id =>
      refine ⟨?_, rfl, rfl⟩
      rw [items_leave]
      exact forall_map_of_work (P := fun w => w = .foreign ∨ w = .control .rollsBack)
        (fun j => (WorkQueue.markAbandoned_same id j).1) spent
  | turn =>
      have turned := s.turned
      generalize s.turn = s' at turned
      cases turned with
      | rest => exact ⟨spent, rfl, rfl⟩
      | skip items _ _ => exact ⟨fun i mem => spent i (items ▸ .tail _ mem), rfl, rfl⟩
      | start items _ => exact ⟨items ▸ spent, rfl, rfl⟩
      | finish _ current pending =>
          refine ⟨fun i mem => ?_, rfl, rfl⟩
          rw [items_of_idle current] at mem
          cases pending ▸ mem
  | complete i r after current runs =>
      have items := items_of_current current
      have silent : i.work.effect r = [] := by
        rcases spent i (items ▸ List.mem_cons_self) with is | is <;> rw [is] <;> rfl
      refine ⟨fun j mem => spent j (items ▸ .tail _ mem), ?_, ?_⟩
      · exact (congrArg _ silent).trans (List.append_nil _)
      · rcases runs with runs | rfl
        · exact inv.published_of_spent items spent runs
        · rfl
  | crash i => exact ⟨nofun, rfl, rfl⟩
  | close => exact ⟨spent, rfl, rfl⟩

/-! ## Runs of calls that are over -/

theorem Steps.finished (reachable : Reachable s) (finished : s.phase = .finished)
    (steps : Steps s s') : s'.phase = .finished ∧ s'.outcome = s.outcome := by
  induction steps with
  | refl => exact ⟨finished, rfl⟩
  | @tail t u steps step ih =>
      obtain ⟨stays, outcome⟩ := ih
      obtain ⟨same, told⟩ := (step.aftermath (reachable.steps steps).inv stays).finished
      exact ⟨(congrArg _ same).trans stays, told.trans outcome⟩

theorem Steps.spent (reachable : Reachable s) (finished : s.phase = .finished)
    (spent : Spent s.items) (steps : Steps s s') :
    Spent s'.items ∧ s'.effects = s.effects ∧ s'.store.published = s.store.published := by
  -- what is left of the call are rollbacks, which commit nothing, and others hold nothing of it
  induction steps with
  | refl => exact ⟨spent, rfl, rfl⟩
  | @tail t u steps step ih =>
      obtain ⟨still, effects, published⟩ := ih
      have inv := (reachable.steps steps).inv
      have ended := (steps.finished reachable finished).1
      obtain ⟨spent, effects', published'⟩ := (step.aftermath inv ended).spent inv still
      exact ⟨spent, effects'.trans effects, published'.trans published⟩

/-! ## Durability -/

/-- What is committed of a call goes with what its caller is told. -/
structure Durable (s : Call α β) : Prop where
  /-- If it returned a value, its unit of work did, and all its effects are committed for
  good. -/
  value : ∀ a, s.outcome = some (.value a) → .unitDone (.value a) ∈ s.taken ∧
    ∀ s', Steps s s' → s'.effects = s.effects ∧ s'.store.published = s.effects
  /-- If it returned anything else, nothing is ever committed. -/
  failure : ∀ o, s.outcome = some o → (∀ a, o ≠ .value a) →
    ∀ s', Steps s s' → s'.store.published = []
  /-- An error is that of the lease, of the beginning, of the unit of work, or of the
  commit. -/
  source : ∀ o, s.outcome = some o → Transaction.Concludes s.taken o
  /-- All or nothing is committed, at any time. -/
  allOrNothing : s.store.published = s.effects ∨ s.store.published = []
  /-- Once the call is over and has nothing left in the queue, this is final, and its
  transaction is not open, unless the connection closes. -/
  drained : s.phase = .finished → Foreign s.items →
    (s.store.opener ≠ some .call ∨ s.queue.refuses) ∧
      ∀ s', Steps s s' → s'.effects = s.effects ∧ s'.store.published = s.store.published

theorem Inv.finished_of_outcome (inv : Inv s) {o : UnitOutcome α} (told : s.outcome = some o) :
    s.phase = .finished := by
  by_contra going
  cases (inv.took.outcome_none going).symm.trans told

theorem Inv.of_value (inv : Inv s) {a : α} (told : s.outcome = some (.value a)) :
    s.phase = .finished ∧ Spent s.items ∧ s.store.published = s.effects := by
  have finished := inv.finished_of_outcome told
  cases inv.stage with
  | asked _ _ _ _ _ _ _ _ unopened => exact absurd told (unopened.outcome a)
  | opened _ _ _ _ _ _ _ uncommitted => exact absurd told (uncommitted.outcome a)
  | settled kinds _ _ result =>
      refine ⟨finished, fun i mem => (kinds i mem).imp_right And.left, ?_⟩
      rcases result.of_finished finished with ⟨-, all⟩ | ⟨silent, -⟩
      · exact all
      · exact absurd told (silent a)

theorem Inv.of_failure (inv : Inv s) {o : UnitOutcome α} (told : s.outcome = some o)
    (failure : ∀ a, o ≠ .value a) : s.store.published = [] := by
  cases inv.stage with
  | asked _ _ _ _ _ _ _ _ unopened => exact unopened.published
  | opened _ _ _ _ _ _ _ uncommitted => exact uncommitted.published
  | settled _ _ _ result =>
      rcases result.of_finished (inv.finished_of_outcome told) with ⟨values, -⟩ | ⟨-, nothing⟩
      · obtain ⟨a, is⟩ := values o told
        exact absurd is (failure a)
      · exact nothing

/-- What is told is what the coordinator's events amount to. -/
theorem Inv.concludes (inv : Inv s) {o : UnitOutcome α} (told : s.outcome = some o) :
    Transaction.Concludes s.taken o := by
  have took := inv.took
  rw [told] at took
  exact took.concludes

theorem Inv.allOrNothing (inv : Inv s) :
    s.store.published = s.effects ∨ s.store.published = [] := by
  cases inv.stage with
  | asked _ _ _ _ _ _ _ _ unopened => exact .inr unopened.published
  | opened _ _ _ _ _ _ _ uncommitted => exact .inr uncommitted.published
  | settled _ _ _ result =>
      cases result with
      | committed _ _ all | kept _ _ all => exact .inl all
      | early _ _ nothing | notBegun _ _ _ nothing | broken _ _ nothing
      | notCommitted _ _ _ nothing | rolledBack _ _ nothing | lost _ _ nothing =>
          exact .inr nothing

/-- A call that is over and left nothing in the queue left no transaction open, unless work is
refused. -/
theorem Inv.opener_of_drained (inv : Inv s) (finished : s.phase = .finished)
    (drained : Foreign s.items) : s.store.opener ≠ some .call ∨ s.queue.refuses := by
  cases inv.stage with
  | asked _ _ _ _ _ _ _ _ unopened => exact .inl unopened.opener
  | settled _ opener _ _ => exact .inl opener
  | opened statements commit rollbacks later eq _ holds _ =>
      cases holds with
      | beginning phase | running phase | committing phase | notCommitted phase
      | rollingBack phase | notRolledBack phase => cases finished.symm.trans phase
      | finished _ _ backs _ forsaken =>
          cases forsaken with
          | @owing _ i mem _ =>
              cases (drained i (by simp [eq, mem])).symm.trans (backs i mem)
          | refused refuses => exact .inr refuses

/-- Whatever fails, breaks or is given up, what a call tells and what it commits agree. -/
theorem Reachable.durable (reachable : Reachable s) : Durable s := by
  have inv := reachable.inv
  refine ⟨?value, ?failure, fun o told => inv.concludes told, inv.allOrNothing, ?drained⟩
  case value =>
    intro a told
    obtain ⟨finished, spent, all⟩ := inv.of_value told
    refine ⟨(inv.concludes told).unitDone_mem, fun s' steps => ?_⟩
    obtain ⟨-, effects, published⟩ := steps.spent reachable finished spent
    exact ⟨effects, published.trans all⟩
  case failure =>
    intro o told failure s' steps
    obtain ⟨-, outcome⟩ := steps.finished reachable (inv.finished_of_outcome told)
    exact (reachable.steps steps).inv.of_failure (outcome.trans told) failure
  case drained =>
    intro finished drained
    refine ⟨inv.opener_of_drained finished drained, fun s' steps => ?_⟩
    obtain ⟨-, final⟩ := steps.spent reachable finished fun i mem => .inl (drained i mem)
    exact final

/-- The caller gives up while the commit is in flight, which then succeeds.  The rollback that
was left behind finds no transaction. -/
theorem durable_droppedCommitting : ∃ s : Call String Nat, Reachable s ∧ Durable s ∧
    s.phase = .finished ∧ s.items = [] ∧ s.effects = [7] ∧ s.store.published = [7] := by
  have start : Reachable ({ coordinator := { mode := .deferred } } : Call String Nat) :=
    ⟨.deferred, .refl⟩
  have begun := (((start.step (.start rfl)).step (.leased rfl)).step .turn).step
    (.complete _ (.ok ()) _ rfl (.opens rfl))
  have worked := (((begun.step (.answer (.ok ()) rfl rfl)).step (.work 7 false rfl)).step
    .turn).step (.complete _ (.ok ()) _ rfl (.statement 7))
  have committing := (worked.step (.unitDone (.value "done") rfl)).step .turn
  have committed := (committing.step (.drop rfl)).step
    (.complete _ (.ok ()) _ rfl (.commits rfl))
  have drained := (committed.step .turn).step
    (.complete _ (.error .cancelled) _ rfl (.fails .cancelled fun _ => rfl))
  exact ⟨_, drained, drained.durable, rfl, rfl, rfl, rfl⟩

end Call

end ConnectionPool
