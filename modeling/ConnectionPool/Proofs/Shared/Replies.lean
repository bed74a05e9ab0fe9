import ConnectionPool.Proofs.Shared.Log
import ConnectionPool.Proofs.Shared.Prompt

/-!
# Statements and their replies

What a coordinator waits for, and what it saw the reply to, it submitted (`Party.Asked`).
The reply is there, or the statement is in the queue and will not be skipped (`Attended`):
one that is refused is replied to at once, one that is cancelled when the queue ends, and
nobody but the coordinator itself leaves it.

So none waits in vain.  The queue has a run in which no transaction moves and the reply
comes (`Reachable.exists_replied`), and each reply leads a transaction on, to its release
in the end (`Reachable.canRelease`).
-/

namespace ConnectionPool

variable {α : Type}

/-! ## Statements and their replies -/

/-- What a party waits for, or saw the reply to, its coordinator submitted. -/
structure Party.Asked (t : Nat) (p : Party α) : Prop where
  /-- It submitted what it waits for. -/
  awaited : ∀ id c, p.awaiting = some (id, c) →
    ∃ accepted, .submitted id ⟨.coordinator t, c⟩ false accepted ∈ p.history
  /-- It submitted what it saw the reply to. -/
  seen : ∀ id c ok, .answered id c ok ∈ p.history →
    ∃ accepted, .submitted id ⟨.coordinator t, c⟩ false accepted ∈ p.history

namespace Party.Asked

variable {t : Nat} {p p' : Party α}

theorem new (t : Nat) (mode : IsolationMode) : Asked t ({ coordinator := { mode } } : Party α) where
  awaited _ _ := nofun
  seen _ _ _ := nofun

/-- A party goes on to wait for what it submits then, and takes the reply it waited for. -/
theorem goTo (h : Asked t p) {phase : Transaction.Phase α} {owes : Bool}
    {awaiting : Option (Nat × Control)} {marks : List Mark}
    (waits : ∀ id c, awaiting = some (id, c) → p.awaiting = some (id, c) ∨
      ∃ accepted, .submitted id ⟨.coordinator t, c⟩ false accepted ∈ marks)
    (takes : ∀ id c ok, .answered id c ok ∈ marks → p.awaiting = some (id, c)) :
    Asked t (p.goTo phase owes awaiting marks) := by
  have kept : ∀ {id c}, (∃ accepted, Mark.submitted id ⟨.coordinator t, c⟩ false accepted ∈
      p.history) → ∃ accepted, .submitted id ⟨.coordinator t, c⟩ false accepted ∈
        p.history ++ marks :=
    fun ⟨accepted, mem⟩ => ⟨accepted, List.mem_append_left _ mem⟩
  constructor
  · intro id c eq
    rcases waits id c eq with old | ⟨accepted, mem⟩
    · exact kept (h.awaited id c old)
    · exact ⟨accepted, List.mem_append_right _ mem⟩
  · intro id c ok mem
    rcases List.mem_append.mp mem with mem | mem
    · exact kept (h.seen id c ok mem)
    · exact kept (h.awaited id c (takes id c ok mem))

theorem moves (h : Asked t p) {accepts : Bool} {fresh : Nat}
    (m : Party.Moves t accepts fresh p p') : Asked t p' := by
  cases m with
  | start _ => exact h.goTo (fun _ _ => .inl) (by simp)
  | begin _ => exact h.goTo (by rintro id c ⟨⟩; exact .inr ⟨accepts, by simp⟩) (by simp)
  | notLeased _ => exact h.goTo (fun _ _ => .inl) (by simp)
  | run _ waits => exact h.goTo nofun (by simp [waits])
  | notBegun _ waits => exact h.goTo nofun (by simp [waits])
  | work c detached _ => exact h.goTo (fun _ _ => .inl) (by simp)
  | commit a _ => exact h.goTo (by rintro id c ⟨⟩; exact .inr ⟨accepts, by simp⟩) (by simp)
  | rollBack outcome _ =>
      exact h.goTo (by rintro id c ⟨⟩; exact .inr ⟨accepts, by simp⟩) (by simp)
  | committed _ waits => exact h.goTo nofun (by simp [waits])
  | notCommitted outcome _ waits =>
      exact h.goTo (by rintro id c ⟨⟩; exact .inr ⟨accepts, by simp⟩) (by simp [waits])
  | rolledBack ok _ waits => exact h.goTo nofun (by simp +contextual [waits])
  | stray ok _ waits => exact h.goTo nofun (by simp +contextual [waits])
  | dropEarly _ => exact h.goTo nofun (by simp)
  | dropOwing _ _ => exact h.goTo nofun (by simp)
  | dropClear _ _ => exact h.goTo nofun (by simp)

end Party.Asked

namespace Shared

variable {s : Shared α} {t : Nat}

theorem Reachable.asked (h : Reachable s) (t : Nat) : Party.Asked t (s.party t) :=
  h.party_induction Party.Asked.new (fun _ _ _ _ _ h m => h.moves m) t

/-- What a transaction submitted is in the log, or work is refused. -/
theorem Logged.of_submitted (h : Logged s) {r : Request} (mem : r ∈ requestsOf (s.history t)) :
    s.queue.refuses ∨ ∃ i ∈ s.log, i.work = r := by
  obtain ⟨m, mem, request⟩ := List.mem_filterMap.mp mem
  cases m with
  | submitted id r' detached accepted =>
      cases request
      cases accepted with
      | true =>
          have in_log : (⟨id, r, detached, false⟩ : WorkItem Request) ∈ s.logOf t := by
            rw [h.logged]
            exact List.mem_filterMap.mpr ⟨_, mem, rfl⟩
          exact .inr ⟨_, (List.mem_filter.mp in_log).1, rfl⟩
      | false => exact .inl (h.refused t id r detached mem)
  | state _ | leased | answered _ _ _ | unitEnded _ | released | dropped => cases request

/-- The coordinator of a transaction that has begun does not see the beginning fail. -/
theorem Reachable.beginning_seen (h : Reachable s) {i : WorkItem Request} (mem : i ∈ s.log)
    (begins : i.work = ⟨.coordinator t, .opens⟩) (succeeded : (i.id, true) ∈ s.replies) :
    ∀ id, .answered id .opens false ∉ s.history t := by
  intro id seen
  have logged := h.logged
  have submitted : .submitted i.id i.work i.detached true ∈ s.history t :=
    logged.submitted mem (by rw [begins]; rfl)
  rw [begins] at submitted
  obtain ⟨accepted, asked⟩ := (h.asked t).seen id _ _ seen
  obtain ⟨m, once⟩ := (h.onCourse t).course.begin_unique
  have same : Mark.submitted id ⟨.coordinator t, .opens⟩ false accepted =
      .submitted i.id ⟨.coordinator t, .opens⟩ i.detached true :=
    (once _ asked rfl).trans (once _ submitted rfl).symm
  have failed : (i.id, false) ∈ s.replies :=
    (Mark.submitted.inj same).1 ▸ logged.replied t _ _ _ seen
  cases logged.reply_unique failed succeeded

end Shared

/-! ## What is waited for -/

/-- An operation may fail and leave all as it is. -/
theorem Control.allows_failed (c : Control) (a : Author) (before : Option Author) :
    c.allows a before before false := by
  cases c with
  | opens | keeps => exact beq_self_eq_true before
  | commits | rollsBack => exact Bool.or_eq_true_iff.mpr (.inl (beq_self_eq_true before))
  | unknown =>
      exact Bool.or_eq_true_iff.mpr (.inl
        (Bool.or_eq_true_iff.mpr (.inl (beq_self_eq_true before))))

namespace Shared

variable {s s' : Shared α} {t id : Nat} {c : Control} {r : Request}

/-- The reply to an operation is there, or it is in the queue and will not be skipped. -/
def Attends (s : Shared α) (id : Nat) (r : Request) : Prop :=
  (∃ ok, (id, ok) ∈ s.replies) ∨ ∃ i ∈ s.queued, i.id = id ∧ i.work = r ∧ i.isGivenUp = false

/-- Coordinators wait for what is attended to. -/
structure Attended (s : Shared α) : Prop where
  /-- What each of them waits for is. -/
  attends : ∀ t id c, (s.party t).awaiting = some (id, c) → s.Attends id ⟨.coordinator t, c⟩
  /-- Nothing is left in a queue that has ended. -/
  empty : s.queue.ended → s.queued = []

/-- Operations leave the queue with a reply only. -/
theorem Attends.mono (h : s.Attends id r) (replies : ∀ reply ∈ s.replies, reply ∈ s'.replies)
    (queued : ∀ i ∈ s.queued, i.work = r → i.isGivenUp = false →
      i ∈ s'.queued ∨ ∃ ok, (i.id, ok) ∈ s'.replies) : s'.Attends id r := by
  rcases h with ⟨ok, replied⟩ | ⟨i, mem, rfl, work, going⟩
  · exact .inl ⟨ok, replies _ replied⟩
  · rcases queued i mem work going with mem | replied
    · exact .inr ⟨i, mem, rfl, work, going⟩
    · exact .inl replied

theorem Attends.enqueue (h : s.Attends id r) (r' : Request) (detached : Bool) :
    (s.enqueue r' detached).Attends id r := by
  refine h.mono (fun _ => Logged.replies_enqueue r' detached) fun i mem _ _ => .inl ?_
  cases accepts : s.queue.refuses with
  | true =>
      rw [Logged.enqueue_refused accepts]
      exact mem
  | false =>
      rw [Logged.enqueue_accepted accepts, queued, ← List.append_assoc]
      exact List.mem_append_left _ mem

/-- What is submitted is attended to, also if it is refused. -/
theorem Attends.submitted (s : Shared α) (r : Request) : (s.enqueue r false).Attends s.fresh r := by
  cases accepts : s.queue.refuses with
  | true =>
      rw [Logged.enqueue_refused accepts]
      exact .inl ⟨false, List.mem_append_right _ List.mem_cons_self⟩
  | false =>
      rw [Logged.enqueue_accepted accepts]
      refine .inr ⟨⟨s.fresh, r, false, false⟩, ?_, rfl, rfl, rfl⟩
      exact List.mem_append_right _ (List.mem_append_right _ List.mem_cons_self)

/-- The caller of another operation leaves. -/
theorem Attends.leave (h : s.Attends id r) {n : Nat}
    (other : ∀ i ∈ s.queued, i.id = n → i.work ≠ r) :
    ({ s with queue := s.queue.leave n } : Shared α).Attends id r := by
  refine h.mono (fun _ mem => mem) fun i mem work _ => .inl ?_
  have unmarked : WorkQueue.markAbandoned n i = i := if_neg fun is => other i mem is work
  rw [queued_leave, ← unmarked]
  exact List.mem_map_of_mem mem

namespace Attended

theorem new (mode : Nat → IsolationMode) : Attended (new mode : Shared α) where
  attends _ _ _ := nofun
  empty _ := rfl

/-- Nobody waits for something new. -/
theorem modify (h : Attended s) (f : Party α → Party α)
    (waits : ∀ p, (f p).awaiting = p.awaiting ∨ (f p).awaiting = none) :
    Attended (s.modify t f) where
  attends := by
    intro u id c awaits
    by_cases is : u = t
    · subst is
      rw [party_modify_same] at awaits
      rcases waits (s.party u) with same | none
      · exact h.attends u id c (same ▸ awaits)
      · rw [none] at awaits
        cases awaits
    · rw [party_modify_ne f is] at awaits
      exact h.attends u id c awaits
  empty := h.empty

theorem note (h : Attended s) (m : Mark) : Attended (s.note t m) := h.modify _ fun _ => .inl rfl

theorem enqueue (h : Attended s) (r : Request) (detached : Bool) :
    Attended (s.enqueue r detached) where
  attends := by
    intro u id c awaits
    rw [party_enqueue] at awaits
    exact (h.attends u id c awaits).enqueue r detached
  empty := by
    cases accepts : s.queue.refuses with
    | true =>
        rw [Logged.enqueue_refused accepts]
        exact h.empty
    | false =>
        rw [Logged.enqueue_accepted accepts]
        intro ended
        have going : s.queue.ended = false := (Bool.or_eq_false_iff.mp accepts).2
        cases going.symm.trans ended

theorem submitFor (h : Attended s) (r : Request) (detached : Bool) :
    Attended (s.submitFor t r detached) := (h.enqueue r detached).note _

/-- Whoever waited before, one more waits for what it submits. -/
theorem submit (h : Attended s) (c : Control) :
    Attended ((s.submitFor t ⟨.coordinator t, c⟩ false).modify t fun p =>
      { p with awaiting := some (s.fresh, c) }) where
  attends := by
    intro u id c' awaits
    by_cases is : u = t
    · subst is
      rw [party_modify_same] at awaits
      cases awaits
      exact Attends.submitted s ⟨.coordinator u, c⟩
    · rw [party_modify_ne _ is] at awaits
      exact (h.submitFor _ false).attends u id c' awaits
  empty := (h.submitFor (t := t) ⟨.coordinator t, c⟩ false).empty

theorem perform (h : Attended s) (t : Nat) (a : Transaction.Action α) :
    Attended (Shared.perform t s a) := by
  cases a with
  | trace _ _ => exact h.note _
  | submit sql => exact h.submit (Control.ofStatement sql)
  | detach _ => exact h.submitFor _ true
  | release => exact h.note _
  | acquire | runUnit | noteRollbackFailed | noteDropped _ | conclude _ => exact h

theorem conduct (h : Attended s) (t : Nat) (e : Transaction.Event α) : Attended (s.conduct t e) :=
  conduct_induction (P := Attended) t e (fun _ => h.modify _ fun _ => .inl rfl)
    fun _ a kept => kept.perform t a

/-- A coordinator leaves what it waits for, which no other does. -/
theorem leftQueue (h : Attended s) (queued : Queued s) (t : Nat) :
    Attended ({ s with queue := s.leftQueue t }.modify t fun p => { p with awaiting := none }) where
  attends := by
    intro u id c awaits
    by_cases is : u = t
    · subst is
      rw [party_modify_same] at awaits
      cases awaits
    · rw [party_modify_ne _ is] at awaits
      have attends := h.attends u id c awaits
      show ({ s with queue := s.leftQueue t } : Shared α).Attends id ⟨.coordinator u, c⟩
      rw [Shared.leftQueue]
      cases own : (s.party t).awaiting with
      | none => exact attends
      | some awaited =>
          obtain ⟨n, c'⟩ := awaited
          refine attends.leave fun i mem number work => is ?_
          rcases h.attends t n c' own with ⟨ok, replied⟩ | ⟨j, mem', number', work', _⟩
          · exact absurd (number ▸ replied) (queued.not_replied mem ok)
          · rw [← queued.eq_of_id mem mem' (number.trans number'.symm), work] at work'
            exact Author.coordinator.inj (congrArg Request.author work')
  empty := by
    show (s.leftQueue t).ended → _
    intro ended
    have same : (s.leftQueue t).ended = s.queue.ended := by
      rw [Shared.leftQueue]
      split <;> rfl
    have nothing := h.empty (same ▸ ended)
    show ({ s with queue := s.leftQueue t } : Shared α).queued = []
    rw [Shared.leftQueue]
    split
    · rw [queued_leave, nothing]
      rfl
    · exact nothing

theorem turn (h : Attended s) : Attended s.turn := by
  have turned := s.turned
  generalize s.turn = s' at turned ⊢
  cases turned with
  | rest => exact h
  | @skip i rest pending idle left =>
      have queued : s.queued = i :: rest := by rw [Shared.queued, idle, pending]; rfl
      refine ⟨fun u id c awaits => ?_, fun ended => ?_⟩
      · refine (h.attends u id c awaits).mono (fun _ mem => mem) fun j mem _ going => .inl ?_
        rcases List.mem_cons.mp (queued ▸ mem) with rfl | mem
        · cases left.symm.trans going
        · rw [Shared.queued, idle]
          exact mem
      · cases queued.symm.trans (h.empty ended)
  | @start i rest pending idle _ =>
      have queued : s.queued = i :: rest := by rw [Shared.queued, idle, pending]; rfl
      refine ⟨fun u id c awaits => ?_, fun ended => ?_⟩
      · refine (h.attends u id c awaits).mono (fun _ mem => mem) fun j mem _ _ => .inl ?_
        rw [queued] at mem
        exact mem
      · cases queued.symm.trans (h.empty ended)
  | finish idle =>
      have queued : s.queued = s.queue.pending := by rw [Shared.queued, idle]; rfl
      refine ⟨fun u id c awaits => ?_, fun _ => by rw [Shared.queued, idle]; rfl⟩
      refine (h.attends u id c awaits).mono (fun _ mem => List.mem_append_left _ mem)
        fun j mem _ _ => .inr ⟨false, List.mem_append_right _ ?_⟩
      exact List.mem_map.mpr ⟨j, queued ▸ mem, rfl⟩

theorem step (h : Attended s) (logged : Logged s) (step : Step s s') : Attended s' := by
  cases step with
  | start t _ | notLeased t e _ => exact h.conduct t _
  | leased t _ | unitDone t outcome _ => exact (h.note _).conduct t _
  | answer t id c ok e _ _ =>
      exact ((h.modify (t := t) (fun p => { p with awaiting := none }) fun _ => .inr rfl).note
        (.answered id c ok)).conduct t _
  | work t c detached _ => exact h.submitFor _ detached
  | drop t _ => exact ((h.leftQueue logged.toQueued t).note .dropped).conduct t _
  | submit c detached => exact h.enqueue _ detached
  | leave n others =>
      refine ⟨fun u id c awaits => ?_, fun ended => by rw [queued_leave, h.empty ended]; rfl⟩
      refine (h.attends u id c awaits).leave fun i mem number work => ?_
      have in_queue : i ∈ s.queue.pending ++ s.queue.current.toList := by
        rw [queued] at mem
        exact List.mem_append.mpr (List.mem_append.mp mem).symm
      exact others i in_queue number u (congrArg Request.author work)
  | turn => exact h.turn
  | complete i ok after current _ =>
      have queued : s.queued = i :: s.queue.pending := by rw [Shared.queued, current]; rfl
      refine ⟨fun u id c awaits => ?_, fun ended => ?_⟩
      · refine (h.attends u id c awaits).mono (fun _ mem => List.mem_append_left _ mem)
          fun j mem _ _ => ?_
        rcases List.mem_cons.mp (queued ▸ mem) with rfl | mem
        · exact .inr ⟨ok, List.mem_append_right _ List.mem_cons_self⟩
        · exact .inl mem
      · cases queued.symm.trans (h.empty ended)
  | crash i current =>
      have queued : s.queued = i :: s.queue.pending := by rw [Shared.queued, current]; rfl
      refine ⟨fun u id c awaits => ?_, fun _ => rfl⟩
      refine (h.attends u id c awaits).mono (fun _ mem => List.mem_append_left _ mem)
        fun j mem _ _ => .inr ⟨false, List.mem_append_right _ ?_⟩
      exact List.mem_map.mpr ⟨j, queued ▸ mem, rfl⟩
  | requestClose => exact ⟨h.attends, h.empty⟩

end Attended

theorem Reachable.attended (h : Reachable s) : Attended s := by
  obtain ⟨mode, steps⟩ := h
  induction steps with
  | refl => exact .new mode
  | tail steps step ih => exact ih.step (Reachable.logged ⟨mode, steps⟩) step

/-! ## Runs that go on -/

/-- A queue with operations in it can go on, with no move of a transaction. -/
theorem Attended.exists_served (h : Attended s) (waiting : s.queued ≠ []) :
    ∃ s', Steps s s' ∧ s'.party = s.party ∧ s'.queued.length < s.queued.length := by
  have going : s.queue.ended = false := Bool.eq_false_iff.mpr fun ended => waiting (h.empty ended)
  cases current : s.queue.current with
  | some i =>
      refine ⟨s.complete i false s.holder, Steps.refl.tail (.complete i _ _ current
        (Control.allows_failed ..)), rfl, ?_⟩
      rw [Shared.queued, Shared.queued, current]
      exact Nat.lt_succ_self _
  | none =>
      have queued : s.queued = s.queue.pending := by rw [Shared.queued, current]; rfl
      rw [queued] at waiting ⊢
      cases closing : s.queue.closing with
      | true =>
          have finished := turn_finish current closing going
          refine ⟨s.turn, Steps.refl.tail .turn, by rw [finished], ?_⟩
          rw [finished]
          exact List.length_pos_of_ne_nil waiting
      | false =>
          have accepts : s.queue.refuses = false := Bool.or_eq_false_iff.mpr ⟨closing, going⟩
          obtain ⟨i, rest, pending⟩ := List.exists_cons_of_ne_nil waiting
          rw [pending]
          cases left : i.isGivenUp with
          | true =>
              have skipped := turn_skip current accepts pending left
              refine ⟨s.turn, Steps.refl.tail .turn, by rw [skipped], ?_⟩
              rw [skipped]
              exact Nat.lt_succ_self _
          | false =>
              have taken := turn_start current accepts pending left
              refine ⟨s.turn.complete i false s.holder, (Steps.refl.tail .turn).tail
                (.complete i _ _ (by rw [taken]) ?_), by rw [taken]; rfl, ?_⟩
              · rw [taken]
                exact Control.allows_failed ..
              · rw [taken]
                exact Nat.lt_succ_self _

/-- What a coordinator waits for can be replied to, with no move of a transaction. -/
theorem Reachable.exists_replied (h : Reachable s) (awaits : (s.party t).awaiting = some (id, c)) :
    ∃ s' ok, Steps s s' ∧ s'.party = s.party ∧ (id, ok) ∈ s'.replies := by
  induction n : s.queued.length using Nat.strongRecOn generalizing s with
  | _ n ih =>
      rcases h.attended.attends t id c awaits with ⟨ok, replied⟩ | ⟨i, mem, _⟩
      · exact ⟨s, ok, .refl, rfl, replied⟩
      · obtain ⟨s₁, steps, same, fewer⟩ := h.attended.exists_served (List.ne_nil_of_mem mem)
        obtain ⟨s₂, ok, steps', same', replied⟩ :=
          ih _ (n ▸ fewer) (h.steps steps) (by rw [same]; exact awaits) rfl
        exact ⟨s₂, ok, steps.trans steps', same'.trans same, replied⟩

/-- A run leads to the release of a transaction, which is not dropped. -/
def CanRelease (s : Shared α) (t : Nat) : Prop :=
  ∃ s', Steps s s' ∧ .released ∈ s'.history t ∧ .dropped ∉ s'.history t

theorem CanRelease.of_steps (steps : Steps s s') (h : s'.CanRelease t) : s.CanRelease t := by
  obtain ⟨s'', more, released⟩ := h
  exact ⟨s'', steps.trans more, released⟩

/-- A transaction that waits for a statement takes the reply to it. -/
theorem Reachable.exists_answer (h : Reachable s) (waits : (s.phase t).awaits = some c) :
    ∃ s₁ id ok, Steps s s₁ ∧ s₁.party = s.party ∧ Steps s (s₁.answer t id c ok .cancelled) := by
  have of_phase := (h.onCourse t).awaits
  rw [← phase_eq, waits] at of_phase
  obtain ⟨⟨id, c'⟩, awaits, rfl⟩ := Option.map_eq_some_iff.mp of_phase
  obtain ⟨s₁, ok, steps, same, replied⟩ := h.exists_replied awaits
  exact ⟨s₁, id, ok, steps, same,
    steps.tail (.answer t id c' ok .cancelled (by rw [same]; exact awaits) replied)⟩

section Released

variable {a : α} {outcome : UnitOutcome α}

/-- What a transaction did when it goes on to a phase. -/
theorem history_goTo {p : Party α} {phase : Transaction.Phase α} {owes : Bool}
    {awaiting : Option (Nat × Control)} {marks : List Mark}
    (moved : s'.party t = p.goTo phase owes awaiting marks) :
    s'.history t = p.history ++ marks := by
  rw [history, moved]
  rfl

theorem phase_goTo {p : Party α} {phase : Transaction.Phase α} {owes : Bool}
    {awaiting : Option (Nat × Control)} {marks : List Mark}
    (moved : s'.party t = p.goTo phase owes awaiting marks) : s'.phase t = phase := by
  rw [phase_eq, moved]
  rfl

/-- A transaction that rolls back is released, whatever comes of the rollback. -/
theorem Reachable.canRelease_rollingBack (h : Reachable s)
    (phase : s.phase t = .rollingBack outcome) (going : .dropped ∉ s.history t) :
    s.CanRelease t := by
  obtain ⟨s₁, id, ok, _, same, steps⟩ := h.exists_answer (t := t) (by rw [phase]; rfl)
  have phase₁ : s₁.phase t = .rollingBack outcome := by rw [phase_eq, same]; exact phase
  have history := history_goTo (party_answer_rolledBack id .rollsBack phase₁ ok .cancelled)
  rw [same, ← Shared.history] at history
  exact ⟨_, steps, by simp [history], by simp [history, going]⟩

/-- A transaction that commits is released, or it rolls back first. -/
theorem Reachable.canRelease_committing (h : Reachable s) (phase : s.phase t = .committing a)
    (going : .dropped ∉ s.history t) : s.CanRelease t := by
  obtain ⟨s₁, id, ok, _, same, steps⟩ := h.exists_answer (t := t) (by rw [phase]; rfl)
  have phase₁ : s₁.phase t = .committing a := by rw [phase_eq, same]; exact phase
  cases ok with
  | true =>
      have history := history_goTo (party_answer_committed id .commits phase₁ .cancelled)
      rw [same, ← Shared.history] at history
      exact ⟨_, steps, by simp [history], by simp [history, going]⟩
  | false =>
      have moved := party_answer_notCommitted id .commits phase₁ .cancelled
      have history := history_goTo moved
      rw [same, ← Shared.history] at history
      exact ((h.steps steps).canRelease_rollingBack (phase_goTo moved)
        (by simp [history, going])).of_steps steps

/-- When its unit of work ends, it rolls back at the latest. -/
theorem Reachable.canRelease_running (h : Reachable s) (phase : s.phase t = .running)
    (going : .dropped ∉ s.history t) : s.CanRelease t := by
  have steps := Steps.refl.tail (.unitDone t (.panic "") phase)
  have moved := party_unitDone_failed phase (.panic "") rfl
  have history := history_goTo moved
  rw [← Shared.history] at history
  exact ((h.steps steps).canRelease_rollingBack (phase_goTo moved)
    (by simp [UnitOutcome.isValue, history, going])).of_steps steps

/-- A transaction that waits for its beginning is released, or its unit of work runs first. -/
theorem Reachable.canRelease_beginning (h : Reachable s) (phase : s.phase t = .beginning)
    (going : .dropped ∉ s.history t) : s.CanRelease t := by
  obtain ⟨s₁, id, ok, _, same, steps⟩ := h.exists_answer (t := t) (by rw [phase]; rfl)
  have phase₁ : s₁.phase t = .beginning := by rw [phase_eq, same]; exact phase
  cases ok with
  | false =>
      have history := history_goTo (party_answer_notBegun id .opens phase₁ .cancelled)
      rw [same, ← Shared.history] at history
      exact ⟨_, steps, by simp [history], by simp [history, going]⟩
  | true =>
      have moved := party_answer_begun id .opens phase₁ .cancelled
      have history := history_goTo moved
      rw [same, ← Shared.history] at history
      exact ((h.steps steps).canRelease_running (phase_goTo moved)
        (by simp [history, going])).of_steps steps

/-- Wherever a transaction is with its lease, a run leads to its release. -/
theorem Reachable.canRelease (h : Reachable s) (leased : (s.phase t).isLeased)
    (going : .dropped ∉ s.history t) : s.CanRelease t := by
  cases phase : s.phase t with
  | beginning => exact h.canRelease_beginning phase going
  | running => exact h.canRelease_running phase going
  | committing a => exact h.canRelease_committing phase going
  | rollingBack outcome => exact h.canRelease_rollingBack phase going
  | idle | acquiring | finished =>
      rw [phase] at leased
      cases leased

end Released

end Shared

end ConnectionPool
