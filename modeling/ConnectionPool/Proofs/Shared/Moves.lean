import ConnectionPool.Proofs.Shared.System

/-!
# Moves of a transaction

Whatever happens on a shared connection, a transaction changes only by its own steps.
`Party.Moves` lists them, each with the phase it starts from and the marks it leaves in the
history, and `Step.moves` says that every step of anybody is one of them for one party and
nothing for the others.
-/

namespace ConnectionPool

namespace Transaction.Phase

variable {α : Type}

/-- The coordinator has its lease. -/
def isLeased : Transaction.Phase α → Bool
  | beginning | running | committing _ | rollingBack _ => true
  | idle | acquiring | finished => false

theorem isActive_of_isLeased {phase : Transaction.Phase α} (leased : phase.isLeased) :
    phase.isActive := by
  cases phase with
  | idle | acquiring | finished => cases leased
  | beginning | running | committing _ | rollingBack _ => rfl

/-- The statement that the coordinator waits for. -/
def awaits : Transaction.Phase α → Option Control
  | beginning => some .opens
  | committing _ => some .commits
  | rollingBack _ => some .rollsBack
  | idle | acquiring | running | finished => none

end Transaction.Phase

/-! ## Steps of a coordinator

One lemma for each phase and event in which a coordinator does something. -/

namespace Transaction

variable {α : Type} {tx : Transaction α}

theorem step_start (is : tx.phase = .idle) :
    tx.step .start = ({ tx with phase := .acquiring },
      [.trace .idle .acquiringConnection, .acquire]) := by
  obtain ⟨mode, phase, owes⟩ := tx
  cases is
  rfl

theorem step_leased (is : tx.phase = .acquiring) :
    tx.step .leased = ({ tx with phase := .beginning, owesRollback := true },
      [.submit tx.mode.beginStatement]) := by
  obtain ⟨mode, phase, owes⟩ := tx
  cases is
  rfl

theorem step_notLeased (is : tx.phase = .acquiring) (e : ConnectionError) :
    tx.step (.notLeased e) =
      ({ tx with phase := .finished }, [.conclude (.error (.connection e))]) := by
  obtain ⟨mode, phase, owes⟩ := tx
  cases is
  rfl

theorem step_dropped_acquiring (is : tx.phase = .acquiring) :
    tx.step .dropped = ({ tx with phase := .finished }, []) := by
  obtain ⟨mode, phase, owes⟩ := tx
  cases is
  rfl

theorem step_begun (is : tx.phase = .beginning) :
    tx.step .succeeded = ({ tx with phase := .running },
      [.trace .acquiringConnection .began, .trace .began .running, .runUnit]) := by
  obtain ⟨mode, phase, owes⟩ := tx
  cases is
  rfl

theorem step_notBegun (is : tx.phase = .beginning) (e : ConnectionError) :
    tx.step (.failed e) = tx.finish (.error (.connection e)) := by
  obtain ⟨mode, phase, owes⟩ := tx
  cases is
  rfl

theorem step_value (is : tx.phase = .running) (a : α) :
    tx.step (.unitDone (.value a)) = ({ tx with phase := .committing a },
      [.trace .running .committing, .submit commitStatement]) := by
  obtain ⟨mode, phase, owes⟩ := tx
  cases is
  rfl

theorem step_failed (is : tx.phase = .running) {outcome : UnitOutcome α}
    (failed : ∀ a, outcome ≠ .value a) : tx.step (.unitDone outcome) = tx.rollBack outcome := by
  obtain ⟨mode, phase, owes⟩ := tx
  cases is
  cases outcome with
  | value a => exact absurd rfl (failed a)
  | error e => rfl
  | panic message => rfl

theorem step_committed {a : α} (is : tx.phase = .committing a) :
    tx.step .succeeded = tx.finish (.value a) := by
  obtain ⟨mode, phase, owes⟩ := tx
  cases is
  rfl

theorem step_notCommitted {a : α} (is : tx.phase = .committing a) (e : ConnectionError) :
    tx.step (.failed e) = tx.rollBack (.error (.connection e)) := by
  obtain ⟨mode, phase, owes⟩ := tx
  cases is
  rfl

theorem step_rolledBack {outcome : UnitOutcome α} (is : tx.phase = .rollingBack outcome) :
    tx.step .succeeded = tx.finish outcome := by
  obtain ⟨mode, phase, owes⟩ := tx
  cases is
  rfl

theorem step_notRolledBack {outcome : UnitOutcome α} (is : tx.phase = .rollingBack outcome)
    (e : ConnectionError) : tx.step (.failed e) =
      ((tx.finish outcome).1, .noteRollbackFailed :: (tx.finish outcome).2) := by
  obtain ⟨mode, phase, owes⟩ := tx
  cases is
  rfl

/-- A coordinator that waits for nothing takes no notice of a reply. -/
theorem step_of_awaits_none (silent : tx.phase.awaits = none) (ok : Bool)
    (e : ConnectionError) : tx.step (if ok then .succeeded else .failed e) = (tx, []) := by
  obtain ⟨mode, phase, owes⟩ := tx
  cases phase with
  | beginning => cases silent
  | committing _ => cases silent
  | rollingBack _ => cases silent
  | idle => cases ok <;> rfl
  | finished => cases ok <;> rfl
  | acquiring => cases ok <;> rfl
  | running => cases ok <;> rfl

/-- With its lease, what a dropped coordinator does depends on whether it owes a rollback,
and on nothing else. -/
theorem step_dropped (leased : tx.phase.isLeased) :
    tx.step .dropped = ({ tx with phase := .finished, owesRollback := false },
      (if tx.owesRollback then
        [.noteDropped tx.phase.state, .detach rollbackStatement] else [])
        ++ [.release, .trace tx.phase.state .released]) := by
  obtain ⟨mode, phase, owes⟩ := tx
  cases phase with
  | idle => cases leased
  | acquiring => cases leased
  | finished => cases leased
  | beginning => rfl
  | running => rfl
  | committing _ => rfl
  | rollingBack _ => rfl

end Transaction

/-! ## Moves -/

/-- A party goes on to a phase and leaves some marks. -/
def Party.goTo {α : Type} (p : Party α) (phase : Transaction.Phase α) (owesRollback : Bool)
    (awaiting : Option (Nat × Control)) (marks : List Mark) : Party α where
  coordinator := { p.coordinator with phase, owesRollback }
  awaiting := awaiting
  history := p.history ++ marks

/-- A move of a party, given whether operations are accepted and the next free number. -/
inductive Party.Moves {α : Type} (t : Nat) (accepts : Bool) (fresh : Nat) (p : Party α) :
    Party α → Prop where
  /-- It is started. -/
  | start : p.coordinator.phase = .idle → Moves t accepts fresh p
      (p.goTo .acquiring p.coordinator.owesRollback p.awaiting [.state .acquiringConnection])
  /-- It gets its lease and submits the beginning. -/
  | begin : p.coordinator.phase = .acquiring → Moves t accepts fresh p
      (p.goTo .beginning true (some (fresh, .opens))
        [.leased, .submitted fresh ⟨.coordinator t, .opens⟩ false accepts])
  /-- It gets no lease. -/
  | notLeased : p.coordinator.phase = .acquiring → Moves t accepts fresh p
      (p.goTo .finished p.coordinator.owesRollback p.awaiting [])
  /-- The beginning succeeded. -/
  | run {id : Nat} {c : Control} : p.coordinator.phase = .beginning → p.awaiting = some (id, c) →
      Moves t accepts fresh p (p.goTo .running p.coordinator.owesRollback none
        [.answered id c true, .state .began, .state .running])
  /-- The beginning failed. -/
  | notBegun {id : Nat} {c : Control} :
      p.coordinator.phase = .beginning → p.awaiting = some (id, c) →
      Moves t accepts fresh p (p.goTo .finished false none
        [.answered id c false, .released, .state .released])
  /-- Its unit of work submits an operation. -/
  | work (c : Control) (detached : Bool) : p.coordinator.phase = .running →
      Moves t accepts fresh p (p.goTo .running p.coordinator.owesRollback p.awaiting
        [.submitted fresh ⟨.work t, c⟩ detached accepts])
  /-- Its unit of work ended with a value. -/
  | commit (a : α) : p.coordinator.phase = .running → Moves t accepts fresh p
      (p.goTo (.committing a) p.coordinator.owesRollback (some (fresh, .commits))
        [.unitEnded true, .state .committing,
          .submitted fresh ⟨.coordinator t, .commits⟩ false accepts])
  /-- Its unit of work failed or panicked. -/
  | rollBack (outcome : UnitOutcome α) : p.coordinator.phase = .running → Moves t accepts fresh p
      (p.goTo (.rollingBack outcome) p.coordinator.owesRollback (some (fresh, .rollsBack))
        [.unitEnded false, .state .rollingBack,
          .submitted fresh ⟨.coordinator t, .rollsBack⟩ false accepts])
  /-- The commit succeeded. -/
  | committed {a : α} {id : Nat} {c : Control} :
      p.coordinator.phase = .committing a → p.awaiting = some (id, c) →
      Moves t accepts fresh p (p.goTo .finished false none
        [.answered id c true, .released, .state .released])
  /-- The commit failed. -/
  | notCommitted {a : α} {id : Nat} {c : Control} (outcome : UnitOutcome α) :
      p.coordinator.phase = .committing a → p.awaiting = some (id, c) →
      Moves t accepts fresh p
        (p.goTo (.rollingBack outcome) p.coordinator.owesRollback (some (fresh, .rollsBack))
          [.answered id c false, .state .rollingBack,
            .submitted fresh ⟨.coordinator t, .rollsBack⟩ false accepts])
  /-- The rollback is over. -/
  | rolledBack {outcome : UnitOutcome α} {id : Nat} {c : Control} (ok : Bool) :
      p.coordinator.phase = .rollingBack outcome → p.awaiting = some (id, c) →
      Moves t accepts fresh p (p.goTo .finished false none
        [.answered id c ok, .released, .state .released])
  /-- It takes a reply that it did not wait for. -/
  | stray {id : Nat} {c : Control} (ok : Bool) : p.coordinator.phase.awaits = none →
      p.awaiting = some (id, c) → Moves t accepts fresh p
      (p.goTo p.coordinator.phase p.coordinator.owesRollback none [.answered id c ok])
  /-- It is dropped before it has its lease. -/
  | dropEarly : p.coordinator.phase = .acquiring → Moves t accepts fresh p
      (p.goTo .finished p.coordinator.owesRollback none [.dropped])
  /-- It is dropped and owes a rollback. -/
  | dropOwing : p.coordinator.phase.isLeased → p.coordinator.owesRollback = true →
      Moves t accepts fresh p (p.goTo .finished false none
        [.dropped, .submitted fresh ⟨.coordinator t, .rollsBack⟩ true accepts, .released,
          .state .released])
  /-- It is dropped and owes nothing. -/
  | dropClear : p.coordinator.phase.isLeased → p.coordinator.owesRollback = false →
      Moves t accepts fresh p (p.goTo .finished false none [.dropped, .released, .state .released])

/-- A party that is over stays so, and does nothing if it waits for nothing. -/
theorem Party.Moves.of_finished {α : Type} {t : Nat} {accepts : Bool} {fresh : Nat}
    {p p' : Party α} (m : Party.Moves t accepts fresh p p')
    (finished : p.coordinator.phase = .finished) :
    p'.coordinator.phase = .finished ∧ (p.awaiting = none → p' = p) := by
  cases m with
  | stray _ _ waits =>
      refine ⟨finished, fun none => ?_⟩
      rw [none] at waits
      cases waits
  | start phase | begin phase | notLeased phase | run phase _ | notBegun phase _
  | work _ _ phase | commit _ phase | rollBack _ phase | committed phase _
  | notCommitted _ phase _ | rolledBack _ phase _ | dropEarly phase =>
      rw [finished] at phase
      cases phase
  | dropOwing leased _ | dropClear leased _ =>
      rw [finished] at leased
      cases leased

namespace Shared

variable {α : Type} {s s' : Shared α} {t u : Nat}

theorem phase_eq : s.phase t = (s.party t).coordinator.phase := rfl

@[simp] theorem party_modify_same (f : Party α → Party α) :
    (s.modify t f).party t = f (s.party t) := if_pos rfl

theorem party_modify_ne (f : Party α → Party α) (ne : u ≠ t) :
    (s.modify t f).party u = s.party u := if_neg ne

@[simp] theorem party_enqueue (r : Request) (detached : Bool) :
    (s.enqueue r detached).party = s.party := by
  rw [enqueue]
  split <;> rfl

@[simp] theorem queue_modify (f : Party α → Party α) : (s.modify t f).queue = s.queue := rfl

@[simp] theorem fresh_modify (f : Party α → Party α) : (s.modify t f).fresh = s.fresh := rfl

@[simp] theorem refuses_leftQueue : (s.leftQueue t).refuses = s.queue.refuses := by
  rw [leftQueue]
  split <;> rfl

theorem party_perform_ne (ne : u ≠ t) (a : Transaction.Action α) :
    (perform t s a).party u = s.party u := by
  cases a with
  | trace _ _ => simp only [perform, note, party_modify_ne _ ne]
  | submit _ => simp only [perform, submitFor, note, party_modify_ne _ ne, party_enqueue]
  | detach _ => simp only [perform, submitFor, note, party_modify_ne _ ne, party_enqueue]
  | release => simp only [perform, note, party_modify_ne _ ne]
  | acquire => rfl
  | runUnit => rfl
  | noteRollbackFailed => rfl
  | noteDropped _ => rfl
  | conclude _ => rfl

/-- What each action of a coordinator keeps, its step keeps. -/
theorem conduct_induction {P : Shared α → Prop} (t : Nat) (e : Transaction.Event α)
    (step : ∀ coordinator, P (s.modify t fun p => { p with coordinator }))
    (act : ∀ s' a, P s' → P (perform t s' a)) : P (s.conduct t e) :=
  List.foldlRecOn ((s.party t).coordinator.step e).2 (perform t) (step _)
    fun s' kept a _ => act s' a kept

theorem party_conduct_ne (ne : u ≠ t) (e : Transaction.Event α) :
    (s.conduct t e).party u = s.party u :=
  conduct_induction (P := fun s' => s'.party u = s.party u) t e (fun _ => party_modify_ne _ ne)
    fun _ a same => (party_perform_ne ne a).trans same

/-! ### Steps of one party -/

theorem start_moves (idle : s.phase t = .idle) :
    Party.Moves t (!s.queue.refuses) s.fresh (s.party t) ((s.conduct t .start).party t) := by
  rw [phase_eq] at idle
  have moved : (s.conduct t .start).party t = (s.party t).goTo .acquiring
      (s.party t).coordinator.owesRollback (s.party t).awaiting
      [.state .acquiringConnection] := by
    simp [conduct, Transaction.step_start idle, perform, note, Party.goTo]
  exact moved ▸ .start idle

theorem leased_moves (acquiring : s.phase t = .acquiring) :
    Party.Moves t (!s.queue.refuses) s.fresh (s.party t)
      (((s.note t .leased).conduct t .leased).party t) := by
  rw [phase_eq] at acquiring
  have moved : ((s.note t .leased).conduct t .leased).party t = (s.party t).goTo .beginning
      true (some (s.fresh, .opens))
      [.leased, .submitted s.fresh ⟨.coordinator t, .opens⟩ false (!s.queue.refuses)] := by
    simp [conduct, Transaction.step_leased acquiring, perform, note, Party.goTo, submitFor,
      Control.ofStatement_begin]
  exact moved ▸ .begin acquiring

theorem notLeased_moves (acquiring : s.phase t = .acquiring) (e : ConnectionError) :
    Party.Moves t (!s.queue.refuses) s.fresh (s.party t)
      ((s.conduct t (.notLeased e)).party t) := by
  rw [phase_eq] at acquiring
  have moved : (s.conduct t (.notLeased e)).party t = (s.party t).goTo .finished
      (s.party t).coordinator.owesRollback (s.party t).awaiting [] := by
    simp [conduct, Transaction.step_notLeased acquiring, perform, Party.goTo]
  exact moved ▸ .notLeased acquiring

theorem work_moves (running : s.phase t = .running) (c : Control) (detached : Bool) :
    Party.Moves t (!s.queue.refuses) s.fresh (s.party t)
      ((s.submitFor t ⟨.work t, c⟩ detached).party t) := by
  rw [phase_eq] at running
  have moved : (s.submitFor t ⟨.work t, c⟩ detached).party t = (s.party t).goTo .running
      (s.party t).coordinator.owesRollback (s.party t).awaiting
      [.submitted s.fresh ⟨.work t, c⟩ detached (!s.queue.refuses)] := by
    simp [note, Party.goTo, submitFor, ← running]
  exact moved ▸ .work c detached running

/-- Once its unit of work ended with a value, a transaction commits. -/
theorem party_unitDone_value (running : s.phase t = .running) (a : α) :
    ((s.note t (.unitEnded true)).conduct t (.unitDone (.value a))).party t =
      (s.party t).goTo (.committing a) (s.party t).coordinator.owesRollback
        (some (s.fresh, .commits)) [.unitEnded true, .state .committing,
          .submitted s.fresh ⟨.coordinator t, .commits⟩ false (!s.queue.refuses)] := by
  rw [phase_eq] at running
  simp [conduct, Transaction.step_value running, perform, note, Party.goTo, submitFor,
    Control.ofStatement_commit]

/-- Once its unit of work failed or panicked, it rolls back. -/
theorem party_unitDone_failed (running : s.phase t = .running) (outcome : UnitOutcome α)
    (failed : outcome.isValue = false) :
    ((s.note t (.unitEnded false)).conduct t (.unitDone outcome)).party t =
      (s.party t).goTo (.rollingBack outcome) (s.party t).coordinator.owesRollback
        (some (s.fresh, .rollsBack)) [.unitEnded false, .state .rollingBack,
          .submitted s.fresh ⟨.coordinator t, .rollsBack⟩ false (!s.queue.refuses)] := by
  rw [phase_eq] at running
  have other : ∀ a, outcome ≠ .value a := fun a eq => by
    rw [eq] at failed
    cases failed
  simp [conduct, Transaction.step_failed running other, Transaction.rollBack, perform, note,
    Party.goTo, submitFor, Control.ofStatement_rollback]

theorem unitDone_moves (running : s.phase t = .running) (outcome : UnitOutcome α) :
    Party.Moves t (!s.queue.refuses) s.fresh (s.party t)
      (((s.note t (.unitEnded outcome.isValue)).conduct t (.unitDone outcome)).party t) := by
  cases outcome with
  | value a => exact party_unitDone_value running a ▸ .commit a running
  | error e => exact party_unitDone_failed running (.error e) rfl ▸ .rollBack _ running
  | panic message =>
      exact party_unitDone_failed running (.panic message) rfl ▸ .rollBack _ running

section Answers

variable (id : Nat) (c : Control)

/-- Once the beginning succeeded, the unit of work runs. -/
theorem party_answer_begun (phase : s.phase t = .beginning) (e : ConnectionError) :
    (s.answer t id c true e).party t =
      (s.party t).goTo .running (s.party t).coordinator.owesRollback none
        [.answered id c true, .state .began, .state .running] := by
  rw [phase_eq] at phase
  simp [answer, conduct, Transaction.step_begun phase, perform, note, Party.goTo]

/-- Once it failed, the transaction is over. -/
theorem party_answer_notBegun (phase : s.phase t = .beginning) (e : ConnectionError) :
    (s.answer t id c false e).party t = (s.party t).goTo .finished false none
      [.answered id c false, .released, .state .released] := by
  rw [phase_eq] at phase
  simp [answer, conduct, Transaction.step_notBegun phase, Transaction.finish, perform, note,
    Party.goTo]

/-- Once the commit succeeded, it is over. -/
theorem party_answer_committed {a : α} (phase : s.phase t = .committing a) (e : ConnectionError) :
    (s.answer t id c true e).party t = (s.party t).goTo .finished false none
      [.answered id c true, .released, .state .released] := by
  rw [phase_eq] at phase
  simp [answer, conduct, Transaction.step_committed phase, Transaction.finish, perform, note,
    Party.goTo]

/-- Once it failed, the transaction rolls back. -/
theorem party_answer_notCommitted {a : α} (phase : s.phase t = .committing a)
    (e : ConnectionError) : (s.answer t id c false e).party t =
      (s.party t).goTo (.rollingBack (.error (.connection e)))
        (s.party t).coordinator.owesRollback (some (s.fresh, .rollsBack))
        [.answered id c false, .state .rollingBack,
          .submitted s.fresh ⟨.coordinator t, .rollsBack⟩ false (!s.queue.refuses)] := by
  rw [phase_eq] at phase
  simp [answer, conduct, Transaction.step_notCommitted phase, Transaction.rollBack, perform, note,
    Party.goTo, submitFor, Control.ofStatement_rollback]

/-- Once the rollback succeeded or failed, it is over. -/
theorem party_answer_rolledBack {outcome : UnitOutcome α} (phase : s.phase t = .rollingBack outcome)
    (ok : Bool) (e : ConnectionError) : (s.answer t id c ok e).party t =
      (s.party t).goTo .finished false none [.answered id c ok, .released, .state .released] := by
  rw [phase_eq] at phase
  cases ok with
  | true =>
      simp [answer, conduct, Transaction.step_rolledBack phase, Transaction.finish, perform, note,
        Party.goTo]
  | false =>
      simp [answer, conduct, Transaction.step_notRolledBack phase, Transaction.finish, perform,
        note, Party.goTo]

theorem answer_moves {id : Nat} {c : Control} (awaits : (s.party t).awaiting = some (id, c))
    (ok : Bool) (e : ConnectionError) :
    Party.Moves t (!s.queue.refuses) s.fresh (s.party t) ((s.answer t id c ok e).party t) := by
  cases phase : (s.party t).coordinator.phase with
  | beginning =>
      cases ok with
      | true => exact party_answer_begun id c phase e ▸ .run phase awaits
      | false => exact party_answer_notBegun id c phase e ▸ .notBegun phase awaits
  | committing a =>
      cases ok with
      | true => exact party_answer_committed id c phase e ▸ .committed phase awaits
      | false => exact party_answer_notCommitted id c phase e ▸ .notCommitted _ phase awaits
  | rollingBack outcome =>
      exact party_answer_rolledBack id c phase ok e ▸ .rolledBack ok phase awaits
  | idle | acquiring | running | finished =>
      have silent : (s.party t).coordinator.phase.awaits = none := by rw [phase]; rfl
      have moved : (s.answer t id c ok e).party t = (s.party t).goTo
          (s.party t).coordinator.phase (s.party t).coordinator.owesRollback none
          [.answered id c ok] := by
        simp [answer, conduct, Transaction.step_of_awaits_none silent, note, Party.goTo]
      exact moved ▸ .stray ok silent awaits

end Answers

/-- Dropped before it has its lease, a transaction leaves nothing behind. -/
theorem party_drop_early (acquiring : s.phase t = .acquiring) : (s.drop t).party t =
    (s.party t).goTo .finished (s.party t).coordinator.owesRollback none [.dropped] := by
  rw [phase_eq] at acquiring
  simp [drop, conduct, Transaction.step_dropped_acquiring acquiring, note, Party.goTo]

/-- Dropped while it owes a rollback, a transaction leaves one behind. -/
theorem party_drop_owing (leased : (s.phase t).isLeased)
    (owes : (s.party t).coordinator.owesRollback = true) :
    (s.drop t).party t = (s.party t).goTo .finished false none [.dropped,
      .submitted s.fresh ⟨.coordinator t, .rollsBack⟩ true (!s.queue.refuses), .released,
      .state .released] := by
  rw [phase_eq] at leased
  simp [drop, conduct, Transaction.step_dropped leased, owes, perform, note, Party.goTo, submitFor,
    Control.ofStatement_rollback]

theorem drop_moves (active : (s.phase t).isActive) :
    Party.Moves t (!s.queue.refuses) s.fresh (s.party t) ((s.drop t).party t) := by
  rw [phase_eq] at active
  by_cases acquiring : (s.party t).coordinator.phase = .acquiring
  · exact party_drop_early acquiring ▸ .dropEarly acquiring
  · have isLeased : (s.party t).coordinator.phase.isLeased := by
      cases phase : (s.party t).coordinator.phase with
      | idle => rw [phase] at active; cases active
      | finished => rw [phase] at active; cases active
      | acquiring => exact absurd phase acquiring
      | beginning | running | committing _ | rollingBack _ => rfl
    cases owes : (s.party t).coordinator.owesRollback with
    | true => exact party_drop_owing isLeased owes ▸ .dropOwing isLeased owes
    | false =>
        have moved : (s.drop t).party t =
            (s.party t).goTo .finished false none [.dropped, .released, .state .released] := by
          simp [drop, conduct, Transaction.step_dropped isLeased, owes, perform, note, Party.goTo]
        exact moved ▸ .dropClear isLeased owes

/-- Every step is a move of one party, or nothing to any. -/
theorem Step.moves (h : Step s s') : s'.party = s.party ∨
    ∃ t, (∀ u, u ≠ t → s'.party u = s.party u) ∧
      Party.Moves t (!s.queue.refuses) s.fresh (s.party t) (s'.party t) := by
  cases h with
  | start t idle => exact .inr ⟨t, fun u ne => party_conduct_ne ne _, start_moves idle⟩
  | leased t acquiring =>
      exact .inr ⟨t, fun u ne => (party_conduct_ne ne _).trans (party_modify_ne _ ne),
        leased_moves acquiring⟩
  | notLeased t e acquiring =>
      exact .inr ⟨t, fun u ne => party_conduct_ne ne _, notLeased_moves acquiring e⟩
  | answer t id c ok e awaits _ =>
      refine .inr ⟨t, fun u ne => ?_, answer_moves awaits ok e⟩
      rw [Shared.answer, party_conduct_ne ne, note, party_modify_ne _ ne, party_modify_ne _ ne]
  | work t c detached running =>
      refine .inr ⟨t, fun u ne => ?_, work_moves running c detached⟩
      rw [submitFor, note, party_modify_ne _ ne, party_enqueue]
  | unitDone t outcome running =>
      exact .inr ⟨t, fun u ne => (party_conduct_ne ne _).trans (party_modify_ne _ ne),
        unitDone_moves running outcome⟩
  | drop t active =>
      refine .inr ⟨t, fun u ne => ?_, drop_moves active⟩
      rw [Shared.drop, party_conduct_ne ne, note, party_modify_ne _ ne, party_modify_ne _ ne]
  | submit c detached => exact .inl (party_enqueue _ _)
  | leave id _ => exact .inl rfl
  | turn =>
      refine .inl ?_
      rw [Shared.turn]
      split <;> rfl
  | complete i ok after _ _ => exact .inl rfl
  | crash i _ => exact .inl rfl
  | requestClose => exact .inl rfl

/-- What holds of a new party and is kept by its moves, holds of every party that is
reached. -/
theorem Reachable.party_induction {P : Nat → Party α → Prop} (h : Reachable s)
    (new : ∀ t mode, P t { coordinator := { mode } })
    (moves : ∀ t accepts fresh p p', P t p → Party.Moves t accepts fresh p p' → P t p')
    (t : Nat) : P t (s.party t) := by
  obtain ⟨mode, steps⟩ := h
  induction steps with
  | refl => exact new t (mode t)
  | tail _ step ih =>
      rcases step.moves with same | ⟨u, others, moved⟩
      · rw [same]
        exact ih
      · by_cases eq : t = u
        · subst eq
          exact moves t _ _ _ _ ih moved
        · rw [others t eq]
          exact ih

end Shared

end ConnectionPool
