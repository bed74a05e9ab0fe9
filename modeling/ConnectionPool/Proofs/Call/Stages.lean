import ConnectionPool.Proofs.Call.System
import ConnectionPool.Proofs.Keyed

/-!
# Stages of a call

A call has its transaction ahead of it, open, or behind it.  `Stage` says for each what is in
the queue, in which order, and what the store holds.

While the transaction is open, the statements of the unit of work come first in the queue,
then a commit, then rollbacks, then what others submitted.  So all effects are held when the
commit has its turn, and nobody else has his before the transaction has ended: a caller that
gave up left a rollback ahead of them that nobody can give up.
-/

namespace ConnectionPool

namespace Call

variable {α β : Type}

/-! ## Items -/

/-- Others submitted them. -/
def Foreign (l : List (WorkItem (Op β))) : Prop := ∀ i ∈ l, i.work = .foreign

/-- The unit of work submitted them. -/
def Statements (l : List (WorkItem (Op β))) : Prop := ∀ i ∈ l, ∃ b, i.work = .statement b

/-- They are rollbacks. -/
def Rollbacks (l : List (WorkItem (Op β))) : Prop := ∀ i ∈ l, i.work = .control .rollsBack

/-- The numbers of the operations in the queue. -/
structure Numbered (s : Call α β) (l : List (WorkItem (Op β))) : Prop where
  /-- They have different numbers. -/
  keyed : Keyed WorkItem.id l
  /-- Their numbers were given out. -/
  lt : ∀ i ∈ l, i.id < s.fresh
  /-- So was the one that the coordinator waits for. -/
  awaiting_lt : ∀ id, s.awaiting = some id → id < s.fresh
  /-- The coordinator waits for a statement of its own that was not replied to. -/
  awaited : ∀ i ∈ l, s.awaiting = some i.id →
    i.abandoned = false ∧ s.reply = none ∧ ∃ c, i.work = .control c

/-! ## Stages -/

/-- What became of a call whose transaction may still be open. -/
inductive Forsaken (s : Call α β) : List (WorkItem (Op β)) → List (WorkItem (Op β)) → Prop where
  /-- It left a rollback behind, ahead of what others submit. -/
  | owing {rollbacks later : List (WorkItem (Op β))} {i : WorkItem (Op β)} : i ∈ rollbacks →
      i.detached → Forsaken s rollbacks later
  /-- Work is refused. -/
  | refused {rollbacks : List (WorkItem (Op β))} : s.queue.refuses → Forsaken s rollbacks []

/-- Why the beginning is in the queue. -/
inductive Asks (s : Call α β) (i : WorkItem (Op β)) :
    List (WorkItem (Op β)) → List (WorkItem (Op β)) → Prop where
  /-- The coordinator waits for it. -/
  | beginning : s.phase = .beginning → s.awaiting = some i.id → Asks s i [] []
  /-- The caller gave up. -/
  | dropped {rollbacks later : List (WorkItem (Op β))} : s.phase = .finished →
      Rollbacks rollbacks → Foreign later → Forsaken s rollbacks later → Asks s i rollbacks later

/-- How the coordinator goes on while its transaction is open. -/
inductive Holds (s : Call α β) : Option (WorkItem (Op β)) → List (WorkItem (Op β)) →
    List (WorkItem (Op β)) → Prop where
  /-- It is told that the transaction was opened. -/
  | beginning : s.phase = .beginning → s.reply = some (.ok ()) → Holds s none [] []
  /-- The unit of work runs. -/
  | running : s.phase = .running → Holds s none [] []
  /-- It waits for the commit. -/
  | committing {a : α} {i : WorkItem (Op β)} : s.phase = .committing a →
      i.work = .control .commits → s.awaiting = some i.id → Holds s (some i) [] []
  /-- It is told that the commit failed. -/
  | notCommitted {a : α} {e : ConnectionError} : s.phase = .committing a →
      s.reply = some (.error e) → Holds s none [] []
  /-- It waits for the rollback. -/
  | rollingBack {o : UnitOutcome α} {i : WorkItem (Op β)} : s.phase = .rollingBack o →
      i.work = .control .rollsBack → s.awaiting = some i.id → Holds s none [i] []
  /-- It is told that the rollback was refused. -/
  | notRolledBack {o : UnitOutcome α} {e : ConnectionError} : s.phase = .rollingBack o →
      s.reply = some (.error e) → s.queue.refuses → Holds s none [] []
  /-- The call is over.  A commit is left only if the caller gave up. -/
  | finished {commit : Option (WorkItem (Op β))} {rollbacks later : List (WorkItem (Op β))} :
      s.phase = .finished → (∀ i ∈ commit, i.work = .control .commits ∧ s.outcome = none) →
      Rollbacks rollbacks → Foreign later → Forsaken s rollbacks later →
      Holds s commit rollbacks later

/-- What is committed when the transaction is not open. -/
inductive Result (s : Call α β) : Prop where
  /-- It was not asked for. -/
  | early : s.phase = .idle ∨ s.phase = .acquiring → s.effects = [] → s.store.published = [] →
      Result s
  /-- It was not opened, or the connection broke then. -/
  | notBegun {r : Except ConnectionError Unit} : s.phase = .beginning → s.reply = some r →
      (r = .ok () → s.queue.refuses) → s.store.published = [] → Result s
  /-- The connection broke. -/
  | broken : s.phase = .running → s.queue.refuses → s.store.published = [] → Result s
  /-- It was committed. -/
  | committed {a : α} : s.phase = .committing a → s.reply = some (.ok ()) →
      s.store.published = s.effects → Result s
  /-- The connection broke before the commit. -/
  | notCommitted {a : α} {e : ConnectionError} : s.phase = .committing a →
      s.reply = some (.error e) → s.queue.refuses → s.store.published = [] → Result s
  /-- It was rolled back. -/
  | rolledBack {o : UnitOutcome α} {r : Except ConnectionError Unit} :
      s.phase = .rollingBack o → s.reply = some r → s.store.published = [] → Result s
  /-- The call is over, and returned a value if anything. -/
  | kept : s.phase = .finished → (∀ o, s.outcome = some o → ∃ a, o = .value a) →
      s.store.published = s.effects → Result s
  /-- The call is over, and returned no value. -/
  | lost : s.phase = .finished → (∀ a, s.outcome ≠ some (.value a)) → s.store.published = [] →
      Result s

/-- The transaction was not opened yet. -/
structure Unopened (s : Call α β) : Prop where
  /-- The transaction that is open is another's. -/
  opener : s.store.opener ≠ some .call
  /-- Nothing is held. -/
  held : s.store.held = []
  /-- Nothing is published. -/
  published : s.store.published = []
  /-- The unit of work did nothing. -/
  effects : s.effects = []
  /-- The call returned no value. -/
  outcome : ∀ a, s.outcome ≠ some (.value a)

/-- The transaction is open. -/
structure Uncommitted (s : Call α β) : Prop where
  /-- The call opened it. -/
  opener : s.store.opener = some .call
  /-- It holds all that the unit of work did. -/
  held : s.store.held = s.effects
  /-- Nothing is published. -/
  published : s.store.published = []
  /-- The call returned no value. -/
  outcome : ∀ a, s.outcome ≠ some (.value a)

/-- Where a call stands, given the operations in the queue. -/
inductive Stage (s : Call α β) (l : List (WorkItem (Op β))) : Prop where
  /-- The beginning is in the queue. -/
  | asked (before : List (WorkItem (Op β))) (i : WorkItem (Op β))
      (rollbacks later : List (WorkItem (Op β))) :
      l = before ++ i :: (rollbacks ++ later) → Foreign before → i.work = .control .opens →
      Asks s i rollbacks later → Unopened s → Stage s l
  /-- The transaction is open. -/
  | opened (statements : List (WorkItem (Op β))) (commit : Option (WorkItem (Op β)))
      (rollbacks later : List (WorkItem (Op β))) :
      l = statements ++ (commit.toList ++ (rollbacks ++ later)) → Statements statements →
      Holds s commit rollbacks later → Uncommitted s → Stage s l
  /-- It is not. -/
  | settled : (∀ i ∈ l, i.work = .foreign ∨ i.work = .control .rollsBack ∧ s.phase = .finished) →
      s.store.opener ≠ some .call → s.store.held = [] → Result s → Stage s l

variable {s s' : Call α β} {i : WorkItem (Op β)} {l rollbacks later : List (WorkItem (Op β))}
  {commit : Option (WorkItem (Op β))} {r : Except ConnectionError Unit} {after : Store β}

theorem Unopened.carry (unopened : Unopened s) (store : s'.store = s.store)
    (effects : s'.effects = s.effects) (silent : ∀ a, s'.outcome ≠ some (.value a)) :
    Unopened s' where
  opener := store ▸ unopened.opener
  held := store ▸ unopened.held
  published := store ▸ unopened.published
  effects := effects.trans unopened.effects
  outcome := silent

theorem Uncommitted.carry (uncommitted : Uncommitted s) (store : s'.store = s.store)
    (effects : s'.effects = s.effects) (silent : ∀ a, s'.outcome ≠ some (.value a)) :
    Uncommitted s' where
  opener := store ▸ uncommitted.opener
  held := by rw [store, uncommitted.held, effects]
  published := store ▸ uncommitted.published
  outcome := silent

theorem settled_kinds (finished : s.phase = .finished) (backs : Rollbacks rollbacks)
    (others : Foreign later) : ∀ i ∈ rollbacks ++ later,
      i.work = .foreign ∨ i.work = .control .rollsBack ∧ s.phase = .finished := by
  intro i mem
  rcases List.mem_append.mp mem with mem | mem
  · exact .inr ⟨backs i mem, finished⟩
  · exact .inl (others i mem)

/-! ## Calls that are alike -/

/-- The coordinator stands as before, and work is refused if it was. -/
structure Like (s s' : Call α β) : Prop where
  /-- It is in the same phase. -/
  phase : s'.phase = s.phase
  /-- It waits for the same. -/
  awaiting : s'.awaiting = s.awaiting
  /-- It has the same reply. -/
  reply : s'.reply = s.reply
  /-- The same was returned. -/
  outcome : s'.outcome = s.outcome
  /-- Work is refused if it was. -/
  refuses : s.queue.refuses → s'.queue.refuses

theorem Forsaken.carry (forsaken : Forsaken s rollbacks later)
    (refuses : s.queue.refuses → s'.queue.refuses) : Forsaken s' rollbacks later := by
  cases forsaken with
  | owing mem detached => exact .owing mem detached
  | refused refused => exact .refused (refuses refused)

theorem Asks.like (asks : Asks s i rollbacks later) (like : Like s s') :
    Asks s' i rollbacks later := by
  cases asks with
  | beginning phase awaits =>
      exact .beginning (like.phase.trans phase) (like.awaiting.trans awaits)
  | dropped phase backs others forsaken =>
      exact .dropped (like.phase.trans phase) backs others (forsaken.carry like.refuses)

theorem Holds.like (holds : Holds s commit rollbacks later) (like : Like s s') :
    Holds s' commit rollbacks later := by
  cases holds with
  | beginning phase reply => exact .beginning (like.phase.trans phase) (like.reply.trans reply)
  | running phase => exact .running (like.phase.trans phase)
  | committing phase commits awaits =>
      exact .committing (like.phase.trans phase) commits (like.awaiting.trans awaits)
  | notCommitted phase reply =>
      exact .notCommitted (like.phase.trans phase) (like.reply.trans reply)
  | rollingBack phase rollsBack awaits =>
      exact .rollingBack (like.phase.trans phase) rollsBack (like.awaiting.trans awaits)
  | notRolledBack phase reply refuses =>
      exact .notRolledBack (like.phase.trans phase) (like.reply.trans reply) (like.refuses refuses)
  | finished phase commits backs others forsaken =>
      refine .finished (like.phase.trans phase) ?_ backs others (forsaken.carry like.refuses)
      exact fun i is => (commits i is).imp_right like.outcome.trans

theorem Result.like (result : Result s) (like : Like s s') (effects : s'.effects = s.effects)
    (published : s'.store.published = s.store.published) : Result s' := by
  cases result with
  | early phase none nothing =>
      exact .early (like.phase ▸ phase) (effects.trans none) (published.trans nothing)
  | notBegun phase reply broke nothing =>
      exact .notBegun (like.phase.trans phase) (like.reply.trans reply)
        (fun ok => like.refuses (broke ok)) (published.trans nothing)
  | broken phase refuses nothing =>
      exact .broken (like.phase.trans phase) (like.refuses refuses) (published.trans nothing)
  | committed phase reply all =>
      exact .committed (like.phase.trans phase) (like.reply.trans reply)
        (published.trans (all.trans effects.symm))
  | notCommitted phase reply refuses nothing =>
      exact .notCommitted (like.phase.trans phase) (like.reply.trans reply) (like.refuses refuses)
        (published.trans nothing)
  | rolledBack phase reply nothing =>
      exact .rolledBack (like.phase.trans phase) (like.reply.trans reply) (published.trans nothing)
  | kept phase values all =>
      exact .kept (like.phase.trans phase) (like.outcome ▸ values)
        (published.trans (all.trans effects.symm))
  | lost phase values nothing =>
      exact .lost (like.phase.trans phase) (like.outcome ▸ values) (published.trans nothing)

/-- A call that is over has kept all or lost all. -/
theorem Result.of_finished (result : Result s) (finished : s.phase = .finished) :
    ((∀ o, s.outcome = some o → ∃ a, o = .value a) ∧ s.store.published = s.effects) ∨
      ((∀ a, s.outcome ≠ some (.value a)) ∧ s.store.published = []) := by
  cases result with
  | early phase =>
      rcases phase with phase | phase <;> cases finished.symm.trans phase
  | notBegun phase | broken phase | committed phase | notCommitted phase | rolledBack phase =>
      cases finished.symm.trans phase
  | kept _ values all => exact .inl ⟨values, all⟩
  | lost _ values nothing => exact .inr ⟨values, nothing⟩

theorem Stage.like (stage : Stage s l) (like : Like s s') (effects : s'.effects = s.effects)
    (store : s'.store = s.store) : Stage s' l := by
  cases stage with
  | asked before i rollbacks later eq foreign opens asks unopened =>
      exact .asked before i rollbacks later eq foreign opens (asks.like like)
        (unopened.carry store effects (like.outcome ▸ unopened.outcome))
  | opened statements commit rollbacks later eq all holds uncommitted =>
      exact .opened statements commit rollbacks later eq all (holds.like like)
        (uncommitted.carry store effects (like.outcome ▸ uncommitted.outcome))
  | settled kinds away held result =>
      exact .settled (like.phase ▸ kinds) (store ▸ away) (store ▸ held)
        (result.like like effects (store ▸ rfl))

/-! ## Operations that are given up -/

/-- The coordinator does not wait for what is given up. -/
theorem Numbered.awaiting_ne (numbered : Numbered s (i :: l)) (givenUp : i.isGivenUp) :
    s.awaiting ≠ some i.id := by
  intro awaits
  have abandoned := (Bool.and_eq_true_iff.mp givenUp).1
  rw [(numbered.awaited i List.mem_cons_self awaits).1] at abandoned
  cases abandoned

/-- Nobody has a turn before the transaction ends that others submitted later. -/
theorem Holds.ends (holds : Holds s commit [] (i :: l)) : False := by
  cases holds with
  | finished _ _ _ _ forsaken =>
      cases forsaken with
      | owing mem => cases mem

theorem Holds.commits (holds : Holds s (some i) rollbacks later) :
    i.work = .control .commits := by
  cases holds with
  | committing _ commits _ => exact commits
  | finished _ commits _ _ _ => exact (commits i rfl).1

theorem Holds.rollsBack (holds : Holds s commit (i :: rollbacks) later) :
    i.work = .control .rollsBack := by
  cases holds with
  | rollingBack _ rollsBack _ => exact rollsBack
  | finished _ _ backs _ _ => exact backs i List.mem_cons_self

/-- What comes first in the queue while the transaction is open. -/
inductive Holds.First (s : Call α β) (i : WorkItem (Op β)) : List (WorkItem (Op β)) → Prop where
  /-- A statement of the unit of work. -/
  | statement {b : β} {statements rollbacks later : List (WorkItem (Op β))}
      {commit : Option (WorkItem (Op β))} : i.work = .statement b → Statements statements →
      Holds s commit rollbacks later →
      First s i (statements ++ (commit.toList ++ (rollbacks ++ later)))
  /-- The commit. -/
  | commit {rollbacks later : List (WorkItem (Op β))} : Holds s (some i) rollbacks later →
      First s i (rollbacks ++ later)
  /-- A rollback. -/
  | rollback {rollbacks later : List (WorkItem (Op β))} : Holds s none (i :: rollbacks) later →
      First s i (rollbacks ++ later)

theorem Holds.first (holds : Holds s commit rollbacks later)
    {statements : List (WorkItem (Op β))} (all : Statements statements)
    (eq : i :: l = statements ++ (commit.toList ++ (rollbacks ++ later))) : First s i l := by
  cases statements with
  | cons k statements =>
      obtain ⟨rfl, rfl⟩ := List.cons.inj eq
      obtain ⟨b, is⟩ := all i List.mem_cons_self
      exact .statement is (fun x mem => all x (.tail _ mem)) holds
  | nil =>
      cases commit with
      | some c =>
          obtain ⟨rfl, rfl⟩ := List.cons.inj eq
          show First s i (rollbacks ++ later)
          exact .commit holds
      | none =>
          cases rollbacks with
          | cons r rollbacks =>
              obtain ⟨rfl, rfl⟩ := List.cons.inj eq
              exact .rollback holds
          | nil =>
              cases later with
              | cons o later => exact holds.ends.elim
              | nil => cases eq

/-- A call that is forsaken stays so when a rollback is given up. -/
theorem Forsaken.pass (forsaken : Forsaken s (i :: rollbacks) later) (givenUp : i.isGivenUp) :
    Forsaken s rollbacks later := by
  cases forsaken with
  | owing mem detached =>
      rcases List.mem_cons.mp mem with rfl | mem
      · rw [WorkItem.isGivenUp, detached, Bool.not_true, Bool.and_false] at givenUp
        cases givenUp
      · exact .owing mem detached
  | refused refuses => exact .refused refuses

/-- The first operation is given up. -/
theorem Stage.pass (stage : Stage s (i :: l)) (numbered : Numbered s (i :: l))
    (givenUp : i.isGivenUp) : Stage s l := by
  have ignored := numbered.awaiting_ne givenUp
  cases stage with
  | asked before j rollbacks later eq foreign opens asks unopened =>
      cases before with
      | cons k before =>
          obtain ⟨rfl, rfl⟩ := List.cons.inj eq
          exact .asked before j rollbacks later rfl (fun x mem => foreign x (.tail _ mem)) opens
            asks unopened
      | nil =>
          obtain ⟨rfl, rfl⟩ := List.cons.inj eq
          cases asks with
          | beginning _ awaits => exact absurd awaits ignored
          | dropped finished backs others _ =>
              exact .settled (settled_kinds finished backs others) unopened.opener unopened.held
                (.lost finished unopened.outcome unopened.published)
  | opened statements commit rollbacks later eq all holds uncommitted =>
      cases holds.first all eq with
      | statement _ all holds => exact .opened _ _ _ _ rfl all holds uncommitted
      | @commit rollbacks later holds =>
          cases holds with
          | committing _ _ awaits => exact absurd awaits ignored
          | finished finished _ backs others forsaken =>
              exact .opened [] none rollbacks later rfl nofun
                (.finished finished nofun backs others forsaken) uncommitted
      | @rollback rollbacks later holds =>
          cases holds with
          | rollingBack _ _ awaits => exact absurd awaits ignored
          | finished finished _ backs others forsaken =>
              exact .opened [] none rollbacks later rfl nofun
                (.finished finished nofun (fun x mem => backs x (.tail _ mem)) others
                  (forsaken.pass givenUp)) uncommitted
  | settled kinds away held result =>
      exact .settled (fun x mem => kinds x (.tail _ mem)) away held result

/-! ## Operations that run -/

/-- The coordinator does not wait for what others do. -/
theorem Numbered.ignores (numbered : Numbered s (i :: l))
    (other : ∀ c, i.work ≠ .control c) : s.awaiting ≠ some i.id := by
  intro awaits
  obtain ⟨-, -, c, is⟩ := numbered.awaited i List.mem_cons_self awaits
  exact other c is

theorem reply_complete_of_awaits (awaits : s.awaiting = some i.id) :
    (s.complete i r after).reply = some r := by
  simp [complete, sendReply, awaits]

/-- Nobody else takes notice of a reply. -/
theorem like_complete (ignored : s.awaiting ≠ some i.id) : Like s (s.complete i r after) where
  phase := rfl
  awaiting := rfl
  reply := by simp [complete, sendReply, ignored]
  outcome := rfl
  refuses refuses := refuses

end Call

/-- What others do publishes nothing of the call while nothing is held. -/
theorem Store.Runs.away {β : Type} {s after : Store β} {op : Op β}
    {r : Except ConnectionError Unit} (runs : s.Runs op r after)
    (stranger : op = .foreign ∨ op = .control .rollsBack) (away : s.opener ≠ some .call)
    (held : s.held = []) :
    after.opener ≠ some .call ∧ after.held = [] ∧ after.published = s.published := by
  cases runs with
  | fails _ _ | keeps _ => exact ⟨away, held, rfl⟩
  | foreign _ commits other =>
      refine ⟨other, rfl, ?_⟩
      cases commits with
      | true => exact (congrArg _ held).trans (List.append_nil _)
      | false => rfl
  | rollsBack _ => exact ⟨nofun, rfl, rfl⟩
  | opens _ | commits _ | statement _ => simp at stranger

theorem Op.effect_of_ne {β : Type} {op : Op β} (r : Except ConnectionError Unit)
    (other : ∀ b, op ≠ .statement b) : op.effect r = [] := by
  cases op with
  | statement b => exact absurd rfl (other b)
  | control _ | foreign => rfl

namespace Call

variable {s : Call α β} {i : WorkItem (Op β)} {l rollbacks later : List (WorkItem (Op β))}
  {commit : Option (WorkItem (Op β))} {r : Except ConnectionError Unit} {after : Store β}

theorem Stage.runBegin (opens : i.work = .control .opens) (asks : Asks s i rollbacks later)
    (unopened : Unopened s) (runs : s.store.Runs i.work r after) :
    Stage (s.complete i r after) (rollbacks ++ later) := by
  rw [opens] at runs
  have silent : (s.complete i r after).effects = [] := by
    show s.effects ++ i.work.effect r = []
    rw [opens, unopened.effects]
    rfl
  cases runs with
  | fails e _ =>
      have published : (s.complete i (.error e) s.store).store.published = [] := unopened.published
      cases asks with
      | beginning phase awaits =>
          exact .settled nofun unopened.opener unopened.held
            (.notBegun phase (reply_complete_of_awaits awaits) nofun published)
      | dropped finished backs others _ =>
          exact .settled (settled_kinds finished backs others) unopened.opener unopened.held
            (.lost finished unopened.outcome published)
  | opens _ =>
      have uncommitted :
          Uncommitted (s.complete i (.ok ()) { s.store with opener := some .call }) :=
        ⟨rfl, unopened.held.trans silent.symm, unopened.published, unopened.outcome⟩
      cases asks with
      | beginning phase awaits =>
          exact .opened [] none [] [] rfl nofun
            (.beginning phase (reply_complete_of_awaits awaits)) uncommitted
      | @dropped rollbacks later finished backs others forsaken =>
          exact .opened [] none rollbacks later rfl nofun
            (.finished finished nofun backs others (forsaken.carry fun refuses => refuses))
            uncommitted

theorem Uncommitted.runStatement {b : β} (is : i.work = .statement b) (uncommitted : Uncommitted s)
    (runs : s.store.Runs i.work r after) : Uncommitted (s.complete i r after) := by
  rw [is] at runs
  cases runs with
  | fails e _ =>
      refine ⟨uncommitted.opener, ?_, uncommitted.published, uncommitted.outcome⟩
      show s.store.held = s.effects ++ i.work.effect (.error e)
      rw [is, uncommitted.held]
      exact (List.append_nil _).symm
  | statement _ =>
      have open_ : s.store.opener.isSome := by rw [uncommitted.opener]; rfl
      have taken : s.store.take b = { s.store with held := s.store.held ++ [b] } := if_pos open_
      refine ⟨?_, ?_, ?_, uncommitted.outcome⟩
      · show (s.store.take b).opener = _
        rw [taken, uncommitted.opener]
      · show (s.store.take b).held = s.effects ++ i.work.effect (.ok ())
        rw [taken, is, uncommitted.held]
        rfl
      · show (s.store.take b).published = _
        rw [taken, uncommitted.published]

theorem Stage.runCommit (commits : i.work = .control .commits)
    (holds : Holds s (some i) rollbacks later) (uncommitted : Uncommitted s)
    (runs : s.store.Runs i.work r after) :
    Stage (s.complete i r after) (rollbacks ++ later) := by
  rw [commits] at runs
  have silent : (s.complete i r after).effects = s.effects := by
    show s.effects ++ i.work.effect r = s.effects
    rw [commits]
    exact List.append_nil _
  cases runs with
  | fails e _ =>
      have still : Uncommitted (s.complete i (.error e) s.store) :=
        uncommitted.carry rfl silent uncommitted.outcome
      cases holds with
      | committing phase _ awaits =>
          exact .opened [] none [] [] rfl nofun
            (.notCommitted phase (reply_complete_of_awaits awaits)) still
      | @finished _ rollbacks later finished _ backs others forsaken =>
          exact .opened [] none rollbacks later rfl nofun
            (.finished finished nofun backs others (forsaken.carry fun refuses => refuses)) still
  | commits _ =>
      have published : s.store.published ++ s.store.held =
          (s.complete i (.ok ()) ⟨none, [], s.store.published ++ s.store.held⟩).effects := by
        rw [silent, uncommitted.published, uncommitted.held, List.nil_append]
      cases holds with
      | committing phase _ awaits =>
          exact .settled nofun nofun rfl
            (.committed phase (reply_complete_of_awaits awaits) published)
      | finished finished none backs others _ =>
          refine .settled (settled_kinds finished backs others) nofun rfl
            (.kept finished ?_ published)
          intro o is
          cases (none i rfl).2.symm.trans is

theorem Stage.runRollback (rollsBack : i.work = .control .rollsBack)
    (holds : Holds s none (i :: rollbacks) later) (uncommitted : Uncommitted s)
    (runs : s.store.Runs i.work r after) :
    Stage (s.complete i r after) (rollbacks ++ later) := by
  rw [rollsBack] at runs
  cases runs with
  | fails e outside =>
      -- it is inside of the transaction
      cases uncommitted.opener.symm.trans (outside rfl)
  | rollsBack _ =>
      cases holds with
      | rollingBack phase _ awaits =>
          exact .settled nofun nofun rfl
            (.rolledBack phase (reply_complete_of_awaits awaits) uncommitted.published)
      | finished finished _ backs others _ =>
          exact .settled (settled_kinds finished (fun x mem => backs x (.tail _ mem)) others) nofun
            rfl (.lost finished uncommitted.outcome uncommitted.published)

/-- The first operation runs. -/
theorem Stage.run (stage : Stage s (i :: l)) (numbered : Numbered s (i :: l))
    (runs : s.store.Runs i.work r after) : Stage (s.complete i r after) l := by
  cases stage with
  | asked before j rollbacks later eq foreign opens asks unopened =>
      cases before with
      | cons k before =>
          obtain ⟨rfl, rfl⟩ := List.cons.inj eq
          have stranger := foreign i List.mem_cons_self
          have like : Like s (s.complete i r after) :=
            like_complete (numbered.ignores (by simp [stranger]))
          obtain ⟨away, held, published⟩ := runs.away (.inl stranger) unopened.opener unopened.held
          refine .asked before j rollbacks later rfl (fun x mem => foreign x (.tail _ mem)) opens
            (asks.like like) ⟨away, held, published.trans unopened.published, ?_, unopened.outcome⟩
          show s.effects ++ i.work.effect r = []
          rw [unopened.effects, stranger]
          rfl
      | nil =>
          obtain ⟨rfl, rfl⟩ := List.cons.inj eq
          exact Stage.runBegin opens asks unopened runs
  | opened statements commit rollbacks later eq all holds uncommitted =>
      cases holds.first all eq with
      | statement is all holds =>
          have like : Like s (s.complete i r after) :=
            like_complete (numbered.ignores (by simp [is]))
          exact .opened _ _ _ _ rfl all (holds.like like) (uncommitted.runStatement is runs)
      | commit holds => exact Stage.runCommit holds.commits holds uncommitted runs
      | rollback holds => exact Stage.runRollback holds.rollsBack holds uncommitted runs
  | settled kinds away held result =>
      have kind := kinds i List.mem_cons_self
      obtain ⟨away', held', published⟩ := runs.away (kind.imp_right And.left) away held
      have silent : (s.complete i r after).effects = s.effects := by
        show s.effects ++ i.work.effect r = s.effects
        rw [Op.effect_of_ne r (by rcases kind with is | ⟨is, -⟩ <;> simp [is]), List.append_nil]
      refine .settled (fun x mem => kinds x (.tail _ mem)) away' held' ?_
      -- a rollback that was left behind is in the queue only when the call is over
      rcases kind with stranger | ⟨-, finished⟩
      · have like : Like s (s.complete i r after) :=
          like_complete (numbered.ignores (by simp [stranger]))
        exact result.like like silent published
      · rcases result.of_finished finished with ⟨values, all⟩ | ⟨values, nothing⟩
        · exact .kept finished values (published.trans (all.trans silent.symm))
        · exact .lost finished values (published.trans nothing)

/-! ## Operations that are lost -/

/-- The connection is closed, and what is left in the queue is cancelled. -/
def lose (s : Call α β) (queue : WorkQueue (Op β)) (l : List (WorkItem (Op β))) : Call α β :=
  { s with queue, store := s.store.close }.sendReply l (.error .cancelled)

variable {queue : WorkQueue (Op β)}

theorem reply_lose_of_awaits (mem : i ∈ l) (awaits : s.awaiting = some i.id) :
    (s.lose queue l).reply = some (.error .cancelled) := by
  have any : (l.any fun j => s.awaiting == some j.id) = true :=
    List.any_eq_true.mpr ⟨i, mem, beq_iff_eq.mpr awaits⟩
  exact if_pos any

/-- A reply that was sent stays. -/
theorem Numbered.reply_lose (numbered : Numbered s l) (replied : s.reply = some r) :
    (s.lose queue l).reply = some r := by
  have none : ¬(l.any fun j => s.awaiting == some j.id) = true := by
    intro any
    obtain ⟨j, mem, awaits⟩ := List.any_eq_true.mp any
    cases (numbered.awaited j mem (beq_iff_eq.mp awaits)).2.1.symm.trans replied
  exact (if_neg none).trans replied

theorem Stage.lose (stage : Stage s l) (numbered : Numbered s l) (refuses : queue.refuses) :
    Stage (s.lose queue l) [] := by
  refine .settled nofun nofun rfl ?_
  cases stage with
  | asked before i rollbacks later eq _ _ asks unopened =>
      cases asks with
      | beginning phase awaits =>
          exact .notBegun phase (reply_lose_of_awaits (i := i) (by simp [eq]) awaits) nofun
            unopened.published
      | dropped finished _ _ _ => exact .lost finished unopened.outcome unopened.published
  | opened statements commit rollbacks later eq _ holds uncommitted =>
      have published := uncommitted.published
      cases holds with
      | beginning phase reply =>
          exact .notBegun phase (numbered.reply_lose reply) (fun _ => refuses) published
      | running phase => exact .broken phase refuses published
      | @committing a i phase _ awaits =>
          exact .notCommitted phase (reply_lose_of_awaits (i := i) (by simp [eq]) awaits) refuses
            published
      | notCommitted phase reply =>
          exact .notCommitted phase (numbered.reply_lose reply) refuses published
      | @rollingBack o i phase _ awaits =>
          exact .rolledBack phase (reply_lose_of_awaits (i := i) (by simp [eq]) awaits) published
      | notRolledBack phase reply _ =>
          exact .rolledBack phase (numbered.reply_lose reply) published
      | finished finished _ _ _ _ => exact .lost finished uncommitted.outcome published
  | settled _ _ _ result =>
      cases result with
      | early phase none nothing => exact .early phase none nothing
      | notBegun phase reply _ nothing =>
          exact .notBegun phase (numbered.reply_lose reply) (fun _ => refuses) nothing
      | broken phase _ nothing => exact .broken phase refuses nothing
      | committed phase reply all => exact .committed phase (numbered.reply_lose reply) all
      | notCommitted phase reply _ nothing =>
          exact .notCommitted phase (numbered.reply_lose reply) refuses nothing
      | rolledBack phase reply nothing =>
          exact .rolledBack phase (numbered.reply_lose reply) nothing
      | kept phase values all => exact .kept phase values all
      | lost phase values nothing => exact .lost phase values nothing

/-! ## Operations that are added or left -/

/-- Others add an operation while the coordinator has no lease. -/
theorem Stage.join (stage : Stage s l) (unleased : s.phase.isLeased = false)
    (accepts : s.queue.refuses = false) (stranger : i.work = .foreign) : Stage s (l ++ [i]) := by
  have last : ∀ {l}, Foreign l → Foreign (l ++ [i]) := by
    intro l others j mem
    rcases List.mem_append.mp mem with mem | mem
    · exact others j mem
    · rw [List.mem_singleton.mp mem, stranger]
  have owes : ∀ {rollbacks later}, Forsaken s rollbacks later →
      Forsaken s rollbacks (later ++ [i]) := by
    intro rollbacks later forsaken
    cases forsaken with
    | owing mem detached => exact .owing mem detached
    | refused refuses => cases accepts.symm.trans refuses
  cases stage with
  | asked before j rollbacks later eq foreign opens asks unopened =>
      cases asks with
      | beginning phase _ =>
          rw [phase] at unleased
          cases unleased
      | dropped finished backs others forsaken =>
          exact .asked before j rollbacks (later ++ [i]) (by simp [eq]) foreign opens
            (.dropped finished backs (last others) (owes forsaken)) unopened
  | opened statements commit rollbacks later eq all holds uncommitted =>
      cases holds with
      | finished finished commits backs others forsaken =>
          exact .opened statements commit rollbacks (later ++ [i]) (by simp [eq]) all
            (.finished finished commits backs (last others) (owes forsaken)) uncommitted
      | beginning phase | running phase | committing phase | notCommitted phase
      | rollingBack phase | notRolledBack phase =>
          rw [phase] at unleased
          cases unleased
  | settled kinds away held result =>
      refine .settled ?_ away held result
      intro j mem
      rcases List.mem_append.mp mem with mem | mem
      · exact kinds j mem
      · exact .inl (List.mem_singleton.mp mem ▸ stranger)

theorem Stage.add (stage : Stage s l) (running : s.phase = .running)
    (accepts : s.queue.refuses = false) {b : β} (is : i.work = .statement b) :
    Stage s (l ++ [i]) := by
  cases stage with
  | asked before j rollbacks later eq foreign opens asks unopened =>
      cases asks with
      | beginning phase | dropped phase => cases running.symm.trans phase
  | opened statements commit rollbacks later eq all holds uncommitted =>
      cases holds with
      | running _ =>
          refine .opened (statements ++ [i]) none [] [] (by simp [eq]) ?_ (.running running)
            uncommitted
          intro j mem
          rcases List.mem_append.mp mem with mem | mem
          · exact all j mem
          · exact ⟨b, List.mem_singleton.mp mem ▸ is⟩
      | beginning phase | committing phase | notCommitted phase | rollingBack phase
      | notRolledBack phase | finished phase => cases running.symm.trans phase
  | settled kinds away held result =>
      cases result with
      | broken _ refuses => cases accepts.symm.trans refuses
      | early phase => rcases phase with phase | phase <;> cases running.symm.trans phase
      | notBegun phase | committed phase | notCommitted phase | rolledBack phase | kept phase
      | lost phase => cases running.symm.trans phase

section Mark

variable {f : WorkItem (Op β) → WorkItem (Op β)}

theorem forall_map_of_work {P : Op β → Prop} (same : ∀ i, (f i).work = i.work)
    (all : ∀ i ∈ l, P i.work) : ∀ j ∈ l.map f, P j.work := by
  intro j mem
  obtain ⟨i, old, rfl⟩ := List.mem_map.mp mem
  exact same i ▸ all i old

theorem Foreign.map (others : Foreign l) (same : ∀ i, (f i).work = i.work) :
    Foreign (l.map f) :=
  forall_map_of_work (P := (· = .foreign)) same others

theorem Rollbacks.map (backs : Rollbacks l) (same : ∀ i, (f i).work = i.work) :
    Rollbacks (l.map f) :=
  forall_map_of_work (P := (· = .control .rollsBack)) same backs

theorem Forsaken.map (forsaken : Forsaken s rollbacks later)
    (same : ∀ i, (f i).detached = i.detached) :
    Forsaken s (rollbacks.map f) (later.map f) := by
  cases forsaken with
  | owing mem detached => exact .owing (List.mem_map_of_mem mem) ((same _).trans detached)
  | refused refuses => exact .refused refuses

theorem Stage.map (stage : Stage s l)
    (same : ∀ i, (f i).work = i.work ∧ (f i).id = i.id ∧ (f i).detached = i.detached) :
    Stage s (l.map f) := by
  have work := fun i => (same i).1
  have detached := fun i => (same i).2.2
  cases stage with
  | asked before i rollbacks later eq foreign opens asks unopened =>
      refine .asked (before.map f) (f i) (rollbacks.map f) (later.map f) (by simp [eq])
        (foreign.map work) ((work i).trans opens) ?_ unopened
      cases asks with
      | beginning phase awaits => exact .beginning phase ((same i).2.1 ▸ awaits)
      | dropped finished backs others forsaken =>
          exact .dropped finished (backs.map work) (others.map work) (forsaken.map detached)
  | opened statements commit rollbacks later eq all holds uncommitted =>
      have mapped : l.map f = statements.map f ++
          ((commit.map f).toList ++ (rollbacks.map f ++ later.map f)) := by
        cases commit <;> simp [eq]
      refine .opened _ _ _ _ mapped ?_ ?_ uncommitted
      · exact forall_map_of_work (P := fun w => ∃ b, w = .statement b) work all
      · cases holds with
        | beginning phase reply => exact .beginning phase reply
        | running phase => exact .running phase
        | committing phase commits awaits =>
            exact .committing phase ((same _).1.trans commits)
              (awaits.trans (congrArg some (same _).2.1.symm))
        | notCommitted phase reply => exact .notCommitted phase reply
        | rollingBack phase rollsBack awaits =>
            exact .rollingBack phase ((same _).1.trans rollsBack)
              (awaits.trans (congrArg some (same _).2.1.symm))
        | notRolledBack phase reply refuses => exact .notRolledBack phase reply refuses
        | finished finished commits backs others forsaken =>
            refine .finished finished ?_ (backs.map work) (others.map work)
              (forsaken.map detached)
            intro j is
            obtain ⟨i, old, rfl⟩ := Option.map_eq_some_iff.mp is
            exact (commits i old).imp_left (same i).1.trans
  | settled kinds away held result =>
      have marked := forall_map_of_work
        (P := fun w => w = .foreign ∨ w = .control .rollsBack ∧ s.phase = .finished) work kinds
      exact .settled marked away held result

end Mark

/-! ## The caller gives up -/

/-- A call is dropped with its lease.  It leaves a rollback behind, unless work is refused. -/
theorem Stage.forsake (stage : Stage s l) (leased : s.phase.isLeased) {t : Call α β}
    (finished : t.phase = .finished) (none : t.outcome = none) (store : t.store = s.store)
    (effects : t.effects = s.effects) {more : List (WorkItem (Op β))} (backs : Rollbacks more)
    (forsaken : Forsaken t more []) : Stage t (l ++ more) := by
  have silent : ∀ a, t.outcome ≠ some (.value a) := by simp [none]
  cases stage with
  | asked before i rollbacks later eq foreign opens asks unopened =>
      cases asks with
      | beginning _ _ =>
          exact .asked before i more [] (by simp [eq]) foreign opens
            (.dropped finished backs nofun forsaken) (unopened.carry store effects silent)
      | dropped phase =>
          rw [phase] at leased
          cases leased
  | opened statements commit rollbacks later eq all holds uncommitted =>
      have still : Uncommitted t := uncommitted.carry store effects silent
      cases holds with
      | beginning _ _ | running _ | notCommitted _ _ | notRolledBack _ _ _ =>
          exact .opened statements .none more [] (by simp [eq]) all
            (.finished finished nofun backs nofun forsaken) still
      | @committing a c _ commits _ =>
          refine .opened statements (some c) more [] (by simp [eq]) all
            (.finished finished ?_ backs nofun forsaken) still
          rintro _ ⟨⟩
          exact ⟨commits, none⟩
      | @rollingBack o i _ rollsBack _ =>
          refine .opened statements .none (i :: more) [] (by simp [eq]) all
            (.finished finished nofun ?_ nofun ?_) still
          · intro j mem
            rcases List.mem_cons.mp mem with rfl | mem
            · exact rollsBack
            · exact backs j mem
          · cases forsaken with
            | owing mem detached => exact .owing (.tail _ mem) detached
            | refused refuses => exact .refused refuses
      | finished phase =>
          rw [phase] at leased
          cases leased
  | settled kinds opener held result =>
      refine .settled ?_ (store ▸ opener) (store ▸ held) ?_
      · intro i mem
        rcases List.mem_append.mp mem with mem | mem
        · exact (kinds i mem).imp_right fun rollsBack => ⟨rollsBack.1, finished⟩
        · exact .inr ⟨backs i mem, finished⟩
      · cases result with
        | early phase => rcases phase with phase | phase <;> rw [phase] at leased <;> cases leased
        | kept phase | lost phase =>
            rw [phase] at leased
            cases leased
        -- the commit was done before the caller could take the reply
        | committed _ _ all =>
            exact .kept finished (by simp [none]) (by rw [store, effects, all])
        | notBegun _ _ _ nothing => exact .lost finished silent (store ▸ nothing)
        | broken _ _ nothing => exact .lost finished silent (store ▸ nothing)
        | notCommitted _ _ _ nothing => exact .lost finished silent (store ▸ nothing)
        | rolledBack _ _ nothing => exact .lost finished silent (store ▸ nothing)

end Call

end ConnectionPool
