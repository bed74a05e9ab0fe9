import ConnectionPool.Proofs.Shared.Ownership

/-!
# What waits on a shared connection

Facts about the operations in the queue, seen from the transactions.  What a coordinator
has there it submitted (`Reachable.submitted`).  It is the beginning, as long as the
transaction waits for it or has been dropped (`Reachable.beginning`), or a statement that
is to end the transaction (`Reachable.own_control`).

While work is accepted, a coordinator that takes a step adds operations of its own behind
all others and that is all (`Appends`).  Nothing that was accepted is forgotten, and a
queue that refuses work does so for good: it is closing, or an operation broke it
(`Step.closes`).
-/

namespace ConnectionPool

/-! ## The beginning -/

/-- A beginning that was submitted, and not seen to succeed or fail, is waited for, unless
the transaction was dropped. -/
theorem Course.unanswered {α : Type} {t : Nat} {phase : Transaction.Phase α} {h : List Mark}
    (course : Course t phase h) (unanswered : ∀ id ok, .answered id .opens ok ∉ h)
    (begins : ⟨.coordinator t, .opens⟩ ∈ requestsOf h) :
    phase = .beginning ∨ (phase = .finished ∧ .dropped ∈ h) := by
  -- a move from another phase, that submits something else, does not lead there
  have goes_on {last : Transaction.Phase α} {h marks : List Mark}
      (ih : (∀ id ok, .answered id .opens ok ∉ h) → ⟨.coordinator t, .opens⟩ ∈ requestsOf h →
        last = .beginning ∨ (last = .finished ∧ .dropped ∈ h))
      (going : last ≠ .beginning ∧ last ≠ .finished)
      (unanswered : ∀ id ok, .answered id .opens ok ∉ h ++ marks)
      (begins : ⟨.coordinator t, .opens⟩ ∈ requestsOf (h ++ marks))
      (other : ⟨.coordinator t, .opens⟩ ∉ requestsOf marks) : False := by
    rw [requestsOf_append] at begins
    have before := (List.mem_append.mp begins).resolve_right other
    rcases ih (fun id ok mem => unanswered id ok (List.mem_append_left _ mem)) before with
      beginning | ⟨finished, -⟩
    · exact going.1 beginning
    · exact going.2 finished
  induction course with
  | idle => cases begins
  | begin _ _ _ _ => exact .inl rfl
  | run id _ _ => exact absurd (List.mem_append_right _ List.mem_cons_self) (unanswered id true)
  | start _ ih | work _ _ _ _ _ ih | commit _ _ _ _ ih | rollBack _ _ _ _ ih
  | notCommitted _ _ _ _ _ ih =>
      exact (goes_on ih (by simp) unanswered begins (by simp [requestsOf, Mark.request?])).elim
  | @finished last h tail active _ ending ih =>
      cases ending with
      | notLeased | committed _ _ | rolledBack _ _ _ =>
          exact (goes_on ih (by simp) unanswered begins
            (by simp [requestsOf, Mark.request?])).elim
      | notBegun id =>
          exact absurd (List.mem_append_right _ List.mem_cons_self) (unanswered id false)
      | dropEarly | drop _ _ _ => exact .inr ⟨rfl, List.mem_append_right _ List.mem_cons_self⟩

/-- What a party waits for it waited for before, or submits now. -/
theorem Party.Moves.awaiting {α : Type} {t : Nat} {accepts : Bool} {fresh : Nat} {p p' : Party α}
    (m : Party.Moves t accepts fresh p p') {id : Nat} {c : Control}
    (awaits : p'.awaiting = some (id, c)) : p.awaiting = some (id, c) ∨ id = fresh := by
  cases m with
  | start _ | notLeased _ | work _ _ _ => exact .inl awaits
  | begin _ | commit _ _ | rollBack _ _ | notCommitted _ _ _ =>
      cases awaits
      exact .inr rfl
  | run _ _ | notBegun _ _ | committed _ _ | rolledBack _ _ _ | stray _ _ _ | dropEarly _
  | dropOwing _ _ | dropClear _ _ => cases awaits

namespace Shared

variable {α : Type} {s s' : Shared α} {t : Nat}

/-- What a transaction has in the queue it submitted. -/
theorem Reachable.submitted (h : Reachable s) {i : WorkItem Request} (mem : i ∈ s.queued)
    (own : i.work.author.party? = some t) :
    .submitted i.id i.work i.detached true ∈ s.history t := by
  obtain ⟨j, in_log, id, work, detached⟩ := h.logged.items i (List.mem_append_left _ mem)
  rw [← id, ← work, ← detached]
  exact h.logged.submitted in_log (work ▸ own)

/-- What was accepted has a number that was given out. -/
theorem Logged.submitted_lt (h : Logged s) {id : Nat} {r : Request} {detached : Bool}
    (submitted : .submitted id r detached true ∈ s.history t) : id < s.fresh := by
  have in_log : (⟨id, r, detached, false⟩ : WorkItem Request) ∈ s.logOf t := by
    rw [h.logged]
    exact List.mem_filterMap.mpr ⟨_, submitted, rfl⟩
  exact h.id_lt _ (List.mem_filter.mp in_log).1

/-- The beginning that a transaction saw succeed or fail was the one it submitted. -/
theorem Reachable.begin_id (h : Reachable s) {i : WorkItem Request} (mem : i ∈ s.queued)
    (begins : i.work = ⟨.coordinator t, .opens⟩) {id : Nat} {accepted : Bool}
    (asked : .submitted id ⟨.coordinator t, .opens⟩ false accepted ∈ s.history t) : id = i.id := by
  have submitted := h.submitted (t := t) mem (by rw [begins]; rfl)
  rw [begins] at submitted
  obtain ⟨m, once⟩ := (h.onCourse t).course.begin_unique
  exact (Mark.submitted.inj ((once _ asked rfl).trans (once _ submitted rfl).symm)).1

/-- While the beginning is in the queue the transaction waits for it, or was dropped. -/
theorem Reachable.beginning (h : Reachable s) {i : WorkItem Request} (mem : i ∈ s.queued)
    (begins : i.work = ⟨.coordinator t, .opens⟩) :
    (s.phase t = .beginning ∧ (s.party t).awaiting = some (i.id, .opens)) ∨
      (s.phase t = .finished ∧ .dropped ∈ s.history t) := by
  have submitted := h.submitted (t := t) mem (by rw [begins]; rfl)
  have asked : ⟨.coordinator t, .opens⟩ ∈ requestsOf (s.history t) :=
    List.mem_filterMap.mpr ⟨_, submitted, congrArg some begins⟩
  have unanswered : ∀ id ok, .answered id .opens ok ∉ s.history t := by
    intro id ok seen
    obtain ⟨accepted, asked⟩ := (h.asked t).seen id _ ok seen
    have replied := h.logged.replied t id _ ok seen
    rw [h.begin_id mem begins asked] at replied
    exact h.logged.not_replied mem ok replied
  refine ((h.onCourse t).course.unanswered unanswered asked).imp_left fun phase => ⟨phase, ?_⟩
  have waits := (h.onCourse t).awaits
  rw [← phase_eq, phase] at waits
  obtain ⟨⟨id, c⟩, awaits, rfl⟩ := Option.map_eq_some_iff.mp waits
  obtain ⟨accepted, asked⟩ := (h.asked t).awaited id _ awaits
  rw [awaits, ← h.begin_id mem begins asked]

/-- The operation that a transaction waits for is its own, while work is accepted. -/
theorem Reachable.awaited (h : Reachable s) (accepts : s.queue.refuses = false) {id : Nat}
    {c : Control} (awaits : (s.party t).awaiting = some (id, c)) {i : WorkItem Request}
    (mem : i ∈ s.queued) (is : i.id = id) : i.work = ⟨.coordinator t, c⟩ := by
  obtain ⟨j, in_log, same, work, -⟩ := h.logged.items i (List.mem_append_left _ mem)
  rw [← work, h.logged.ids.eq_of_mem in_log (h.awaited_mem accepts awaits) (same.trans is)]

/-- What a coordinator has in the queue is its beginning, or to end the transaction. -/
theorem Reachable.own_control (h : Reachable s) {i : WorkItem Request} (mem : i ∈ s.queued)
    (own : i.work.author = .coordinator t) :
    i.work.control = .opens ∨ i.work.control.isTerminal := by
  have asked : i.work ∈ requestsOf (s.history t) :=
    List.mem_filterMap.mpr ⟨_, h.submitted mem (by rw [own]; rfl), rfl⟩
  rcases (h.onCourse t).course.inOrder with none | ⟨works, terms, all, all', eq⟩
  · rw [Shared.history, none] at asked
    cases asked
  · rw [Shared.history, eq] at asked
    rcases List.mem_cons.mp asked with begins | rest
    · exact .inl (by rw [begins])
    · rcases List.mem_append.mp rest with work | terminal
      · cases own.symm.trans (all _ work)
      · exact .inr (all' _ terminal).2

/-- A transaction that is over does nothing more. -/
theorem Step.party_finished (h : Step s s') (reachable : Reachable s)
    (finished : s.phase t = .finished) : s'.party t = s.party t := by
  rcases h.moves with same | ⟨u, others, moves⟩
  · rw [same]
  · by_cases eq : t = u
    · subst eq
      have waits := (reachable.onCourse t).awaits
      rw [← phase_eq, finished] at waits
      exact (moves.of_finished finished).2 (Option.map_eq_none_iff.mp waits)
    · exact others t eq

theorem Steps.party_finished (steps : Steps s s') (reachable : Reachable s)
    (finished : s.phase t = .finished) : s'.party t = s.party t := by
  induction steps with
  | refl => rfl
  | tail before step ih =>
      exact (step.party_finished (reachable.steps before) (by rw [phase, ih]; exact finished)).trans
        ih

/-! ## Operations that are added -/

/-- Some operations are added to the queue, none of them given up, and nothing is replied. -/
structure Appends (s s' : Shared α) (more : List (WorkItem Request)) : Prop
    extends Adds s s' more where
  /-- No reply is new. -/
  replies : s'.replies = s.replies
  /-- All that is added waits for its turn. -/
  waits : ∀ i ∈ more, i.isGivenUp = false

namespace Appends

variable {more more' : List (WorkItem Request)}

theorem refl (s : Shared α) : Appends s s [] := ⟨.refl s, rfl, nofun⟩

theorem trans {s'' : Shared α} (h : Appends s s' more) (h' : Appends s' s'' more') :
    Appends s s'' (more ++ more') where
  toAdds := h.toAdds.trans h'.toAdds
  replies := h'.replies.trans h.replies
  waits := fun i mem => (List.mem_append.mp mem).elim (h.waits i) (h'.waits i)

theorem modify (s : Shared α) (t : Nat) (f : Party α → Party α) : Appends s (s.modify t f) [] :=
  ⟨.modify s t f, rfl, nofun⟩

theorem note (s : Shared α) (t : Nat) (m : Mark) : Appends s (s.note t m) [] := modify s t _

theorem refuses (h : Appends s s' more) : s'.queue.refuses = s.queue.refuses := by
  rw [h.queue]
  rfl

theorem queued (h : Appends s s' more) : s'.queued = s.queued ++ more := by
  rw [Shared.queued, h.queue, ← List.append_assoc]
  rfl

theorem enqueue (accepts : s.queue.refuses = false) (r : Request) (detached : Bool) :
    Appends s (s.enqueue r detached) [⟨s.fresh, r, detached, false⟩] := by
  rw [Logged.enqueue_accepted accepts]
  exact ⟨⟨rfl, rfl, rfl⟩, rfl, by simp [WorkItem.isGivenUp]⟩

theorem submitFor (accepts : s.queue.refuses = false) (t : Nat) (r : Request) (detached : Bool) :
    Appends s (s.submitFor t r detached) [⟨s.fresh, r, detached, false⟩] :=
  (enqueue accepts r detached).trans (.note _ t _)

theorem perform (accepts : s.queue.refuses = false) (t : Nat) (a : Transaction.Action α) :
    ∃ more, Appends s (Shared.perform t s a) more ∧
      ∀ i ∈ more, i.work.author = .coordinator t := by
  cases a with
  | trace _ target => exact ⟨[], .note s t (.state target), nofun⟩
  | submit sql =>
      have appends := (submitFor accepts t ⟨.coordinator t, Control.ofStatement sql⟩ false).trans
        (.modify _ t fun p => { p with awaiting := some (s.fresh, Control.ofStatement sql) })
      exact ⟨_, appends, by simp⟩
  | detach sql => exact ⟨_, submitFor accepts t _ true, by simp⟩
  | release => exact ⟨[], .note s t .released, nofun⟩
  | acquire | runUnit | noteRollbackFailed | noteDropped _ | conclude _ =>
      exact ⟨[], .refl s, nofun⟩

/-- A coordinator adds operations of its own, if any. -/
theorem conduct (accepts : s.queue.refuses = false) (t : Nat) (e : Transaction.Event α) :
    ∃ more, Appends s (s.conduct t e) more ∧ ∀ i ∈ more, i.work.author = .coordinator t := by
  refine conduct_induction (P := fun s' => ∃ more, Appends s s' more ∧
    ∀ i ∈ more, i.work.author = .coordinator t) t e (fun _ => ⟨[], modify s t _, nofun⟩) ?_
  rintro s' a ⟨more, appends, own⟩
  obtain ⟨more', appends', own'⟩ := perform (appends.refuses.trans accepts) t a
  refine ⟨more ++ more', appends.trans appends', fun i mem => ?_⟩
  exact (List.mem_append.mp mem).elim (own i) (own' i)

end Appends

/-- A coordinator that takes a step was not dropped if it was not before. -/
theorem history_conduct (s : Shared α) (t : Nat) (e : Transaction.Event α) :
    .dropped ∈ (s.conduct t e).history t → .dropped ∈ s.history t := by
  refine conduct_induction (s := s)
    (P := fun s' => .dropped ∈ s'.history t → .dropped ∈ s.history t) t e
    (fun _ => by simp [Shared.history]) fun s' a before mem => before ?_
  cases a with
  | trace _ _ | submit _ | detach _ | release =>
      simpa [perform, submitFor, note, Shared.history] using mem
  | acquire | runUnit | noteRollbackFailed | noteDropped _ | conclude _ => exact mem

/-! ## How a queue ends -/

/-- How far a queue is with its closing. -/
structure Closes (s s' : Shared α) : Prop where
  /-- Closing is not taken back. -/
  closing : s.queue.closing → s'.queue.closing
  /-- The end is not taken back. -/
  ended : s.queue.ended → s'.queue.ended
  /-- A queue ends since it is closing or since an operation broke it. -/
  cause : s'.queue.ended → s.queue.ended ∨ s.queue.closing ∨ ∃ i, s' = s.crash i

theorem Closes.of_eq (closing : s'.queue.closing = s.queue.closing)
    (ended : s'.queue.ended = s.queue.ended) : Closes s s' :=
  ⟨fun is => closing.trans is, fun is => ended.trans is, fun is => .inl (ended.symm.trans is)⟩

theorem Closes.turn (s : Shared α) : Closes s s.turn := by
  rw [Shared.turn, WorkQueue.turn]
  by_cases busy : s.queue.ended || s.queue.current.isSome
  · rw [if_pos busy]
    exact .of_eq rfl rfl
  · rw [if_neg busy]
    by_cases closing : s.queue.closing
    · rw [if_pos closing]
      exact ⟨id, fun _ => rfl, fun _ => .inr (.inl closing)⟩
    · rw [if_neg closing]
      cases s.queue.pending with
      | nil => exact .of_eq rfl rfl
      | cons i rest => by_cases left : i.isGivenUp <;> simp only [left] <;> exact .of_eq rfl rfl

theorem Step.closes (h : Step s s') : Closes s s' := by
  have conducted {before : Shared α} (t : Nat) (e : Transaction.Event α)
      (closing : before.queue.closing = s.queue.closing)
      (ended : before.queue.ended = s.queue.ended) : Closes s (before.conduct t e) := by
    obtain ⟨more, adds, -⟩ := Adds.conduct before t e
    exact .of_eq (by rw [adds.queue]; exact closing) (by rw [adds.queue]; exact ended)
  cases h with
  | start t _ => exact conducted t _ rfl rfl
  | leased t _ => exact conducted t _ rfl rfl
  | notLeased t e _ => exact conducted t _ rfl rfl
  | answer t id c ok e _ _ => exact conducted t _ rfl rfl
  | unitDone t outcome _ => exact conducted t _ rfl rfl
  | drop t _ =>
      refine conducted t _ ?_ ?_
      · show (s.leftQueue t).closing = s.queue.closing
        rw [leftQueue]
        split <;> rfl
      · show (s.leftQueue t).ended = s.queue.ended
        rw [leftQueue]
        split <;> rfl
  | work t c detached _ =>
      obtain ⟨more, adds, -⟩ := Adds.submitFor s t ⟨.work t, c⟩ detached
      exact .of_eq (by rw [adds.queue]) (by rw [adds.queue])
  | submit c detached =>
      obtain ⟨more, adds, -⟩ := Adds.enqueue s ⟨.other, c⟩ detached
      exact .of_eq (by rw [adds.queue]) (by rw [adds.queue])
  | turn => exact .turn s
  | leave _ _ | complete _ _ _ _ _ => exact .of_eq rfl rfl
  | crash i _ => exact ⟨id, fun _ => rfl, fun _ => .inr (.inr ⟨i, rfl⟩)⟩
  | requestClose => exact ⟨fun _ => rfl, id, .inl⟩

/-- Work that is refused stays so. -/
theorem Step.refuses (h : Step s s') (refuses : s.queue.refuses) : s'.queue.refuses :=
  (Bool.or_eq_true _ _).mpr (((Bool.or_eq_true _ _).mp refuses).imp h.closes.closing h.closes.ended)

/-- Nothing that was accepted is forgotten. -/
theorem Step.log_subset (h : Step s s') : s.log ⊆ s'.log := by
  have enqueued (s : Shared α) (r : Request) (detached : Bool) :
      s.log ⊆ (s.enqueue r detached).log := by
    cases accepts : s.queue.refuses with
    | true =>
        rw [Logged.enqueue_refused accepts]
        exact List.Subset.refl _
    | false =>
        rw [Logged.enqueue_accepted accepts]
        exact List.subset_append_left _ _
  have conducted (s : Shared α) (t : Nat) (e : Transaction.Event α) :
      s.log ⊆ (s.conduct t e).log := by
    refine conduct_induction (P := fun s' => s.log ⊆ s'.log) t e (fun _ => List.Subset.refl _)
      fun s' a kept => List.Subset.trans kept ?_
    cases a with
    | submit _ | detach _ => exact enqueued s' _ _
    | trace _ _ | release | acquire | runUnit | noteRollbackFailed | noteDropped _ | conclude _ =>
        exact List.Subset.refl _
  cases h with
  | start t _ => exact conducted s t _
  | leased t _ => exact conducted (s.note t .leased) t _
  | notLeased t e _ => exact conducted s t _
  | answer t id c ok e _ _ => exact conducted ((s.modify t _).note t _) t _
  | unitDone t outcome _ => exact conducted (s.note t (.unitEnded outcome.isValue)) t _
  | drop t _ => exact conducted (({ s with queue := s.leftQueue t }.modify t _).note t .dropped) t _
  | work t c detached _ => exact enqueued s _ _
  | submit c detached => exact enqueued s _ _
  | turn =>
      have turned := s.turned
      generalize s.turn = s' at turned ⊢
      cases turned <;> exact List.Subset.refl _
  | leave _ _ | complete _ _ _ _ _ | crash _ _ | requestClose => exact List.Subset.refl _

end Shared

end ConnectionPool
