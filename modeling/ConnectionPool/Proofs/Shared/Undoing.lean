import ConnectionPool.Proofs.Shared.Effects

/-!
# The rollback that a dropped transaction leaves behind

A transaction that is dropped with its lease leaves a rollback behind, which nobody waits
for and nobody can give up.  It rolls back whatever is open when its turn comes.  If that
is its own transaction when it is dropped, and nothing ahead of it in the queue may end
that (`Shared.Clean`), then it is when the turn comes: `Shared.Fate` says where the
rollback can be, and is kept by every step of anybody.
-/

namespace ConnectionPool

/-- The operation is what a transaction left behind when it was dropped. -/
def WorkItem.undoes (t : Nat) (i : WorkItem Request) : Bool :=
  i.detached && i.work.author == .coordinator t

namespace WorkItem

variable {t : Nat} {i j : WorkItem Request}

theorem Marked.undoes (h : Marked i j) : j.undoes t = i.undoes t := by
  rw [WorkItem.undoes, WorkItem.undoes, h.work, h.detached]

theorem not_isGivenUp_of_undoes (h : i.undoes t) : i.isGivenUp = false := by
  have detached : i.detached := ((Bool.and_eq_true _ _).mp h).1
  rw [isGivenUp, detached]
  exact Bool.and_false _

theorem undoes_eq_false (h : i.work.author ≠ .coordinator t) : i.undoes t = false := by
  rw [WorkItem.undoes, beq_eq_false_iff_ne.mpr h]
  exact Bool.and_false _

end WorkItem

/-- An operation that may end no transaction leaves an open one as it is. -/
theorem Control.allows_harmless {c : Control} {a holder : Author} {ok : Bool}
    {after : Option Author} (harmless : c.mayEnd = false)
    (allowed : c.allows a (some holder) after ok) : after = some holder := by
  cases c with
  | opens =>
      cases ok with
      | true => cases allowed
      | false => exact eq_of_beq allowed
  | keeps => exact eq_of_beq allowed
  | commits | rollsBack | unknown => cases harmless

/-- What a transaction left behind is in the queue, and all that is ahead of it is given
up or ends nothing. -/
inductive Shielded (t : Nat) : List (WorkItem Request) → Prop where
  /-- Nothing is ahead of it. -/
  | here {i : WorkItem Request} {rest : List (WorkItem Request)} : i.undoes t →
      (∀ j ∈ rest, j.undoes t = false) → Shielded t (i :: rest)
  /-- Something is. -/
  | behind {i : WorkItem Request} {rest : List (WorkItem Request)} : i.undoes t = false →
      (i.isGivenUp ∨ i.work.control.mayEnd = false) → Shielded t rest → Shielded t (i :: rest)

namespace Shielded

variable {t : Nat} {l : List (WorkItem Request)}

theorem map (h : Shielded t l) {mark : WorkItem Request → WorkItem Request}
    (marks : ∀ i, WorkItem.Marked i (mark i)) : Shielded t (l.map mark) := by
  induction h with
  | @here i rest undoes others =>
      refine .here ((marks i).undoes.trans undoes) fun j mem => ?_
      obtain ⟨k, hk, rfl⟩ := List.mem_map.mp mem
      exact (marks k).undoes.trans (others k hk)
  | @behind i rest other harmless _ ih =>
      refine .behind ((marks i).undoes.trans other) ?_ ih
      exact harmless.imp (marks i).givenUp fun ends => by rw [(marks i).work, ends]

theorem append (h : Shielded t l) {more : List (WorkItem Request)}
    (others : ∀ i ∈ more, i.undoes t = false) : Shielded t (l ++ more) := by
  induction h with
  | here undoes none =>
      exact .here undoes fun j mem => (List.mem_append.mp mem).elim (none j) (others j)
  | behind other harmless _ ih => exact .behind other harmless ih

/-- It is put behind operations that are given up or end nothing. -/
theorem concat {i : WorkItem Request} (undoes : i.undoes t)
    (ahead : ∀ j ∈ l, j.undoes t = false ∧ (j.isGivenUp ∨ j.work.control.mayEnd = false)) :
    Shielded t (l ++ [i]) := by
  induction l with
  | nil => exact .here undoes nofun
  | cons j rest ih =>
      obtain ⟨other, harmless⟩ := ahead j List.mem_cons_self
      exact .behind other harmless (ih fun k mem => ahead k (List.mem_cons_of_mem j mem))

end Shielded

namespace Shared

variable {α : Type} {s s' : Shared α} {t : Nat}

/-- The transaction that is open was opened by a transaction or its unit of work. -/
def HeldBy (s : Shared α) (t : Nat) : Prop := ∃ a, s.holder = some a ∧ a.party? = some t

/-- What a transaction left behind ended none but its own. -/
def EndsOwn (s : Shared α) (t : Nat) : Prop :=
  ∀ e ∈ s.ends, e.2.undoes t → e.1.party? = some t

/-- Where it can be that a transaction left behind. -/
inductive Fate (t : Nat) (s : Shared α) : Prop where
  /-- It waits, and its own transaction stays open until its turn. -/
  | waits : s.HeldBy t →
      (∀ i ∈ s.queue.current, i.undoes t = false ∧ i.work.control.mayEnd = false) →
      Shielded t s.queue.pending → Fate t s
  /-- It is in flight, and its own transaction is open. -/
  | runs {i : WorkItem Request} : s.HeldBy t → s.queue.current = some i → i.undoes t →
      (∀ j ∈ s.queue.pending, j.undoes t = false) → Fate t s
  /-- It is over. -/
  | gone : (∀ i ∈ s.queue.current, i.undoes t = false) →
      (∀ j ∈ s.queue.pending, j.undoes t = false) → Fate t s

namespace Fate

theorem asked (h : Fate t s) {mark : WorkItem Request → WorkItem Request}
    {more : List (WorkItem Request)} (marks : ∀ i, WorkItem.Marked i (mark i))
    (pending : s'.queue.pending = s.queue.pending.map mark ++ more)
    (current : s'.queue.current = s.queue.current.map mark)
    (others : ∀ i ∈ more, i.undoes t = false) (holder : s'.holder = s.holder) : Fate t s' := by
  have none_pending (none : ∀ j ∈ s.queue.pending, j.undoes t = false) :
      ∀ j ∈ s'.queue.pending, j.undoes t = false := by
    intro j mem
    rw [pending] at mem
    rcases List.mem_append.mp mem with mem | mem
    · obtain ⟨k, hk, rfl⟩ := List.mem_map.mp mem
      exact (marks k).undoes.trans (none k hk)
    · exact others j mem
  have from_current : ∀ i ∈ s'.queue.current, ∃ j ∈ s.queue.current, WorkItem.Marked j i := by
    intro i mem
    rw [current] at mem
    obtain ⟨j, is, rfl⟩ := Option.map_eq_some_iff.mp mem
    exact ⟨j, is, marks j⟩
  have held (own : s.HeldBy t) : s'.HeldBy t := by
    rw [HeldBy, holder]
    exact own
  cases h with
  | waits own harmless shielded =>
      refine .waits (held own) ?_ ?_
      · intro i mem
        obtain ⟨j, mem, marked⟩ := from_current i mem
        rw [marked.undoes, marked.work]
        exact harmless j mem
      · rw [pending]
        exact (shielded.map marks).append others
  | @runs i own is undoes none =>
      refine .runs (held own) ?_ ((marks i).undoes.trans undoes) (none_pending none)
      rw [current, is]
      rfl
  | gone none none' =>
      refine .gone ?_ (none_pending none')
      intro i mem
      obtain ⟨j, mem, marked⟩ := from_current i mem
      exact marked.undoes.trans (none j mem)

theorem turned (h : Fate t s) (turned : Turned s s') : Fate t s' := by
  cases turned with
  | rest => exact h
  | @skip i rest pending idle givenUp =>
      cases h with
      | waits own harmless shielded =>
          rw [pending] at shielded
          cases shielded with
          | here undoes _ =>
              rw [WorkItem.not_isGivenUp_of_undoes undoes] at givenUp
              cases givenUp
          | behind _ _ shielded => exact .waits own harmless shielded
      | runs _ is _ _ =>
          rw [idle] at is
          cases is
      | gone none none' =>
          exact .gone none fun j mem => none' j (pending ▸ List.mem_cons_of_mem i mem)
  | @start i rest pending idle not_givenUp =>
      cases h with
      | waits own _ shielded =>
          rw [pending] at shielded
          cases shielded with
          | here undoes others => exact .runs own rfl undoes others
          | behind other harmless shielded =>
              refine .waits own ?_ shielded
              rintro _ ⟨⟩
              exact ⟨other, harmless.resolve_left (Bool.eq_false_iff.mp not_givenUp)⟩
      | runs _ is _ _ =>
          rw [idle] at is
          cases is
      | gone none none' =>
          rw [pending] at none'
          refine .gone ?_ fun j mem => none' j (List.mem_cons_of_mem i mem)
          rintro _ ⟨⟩
          exact none' i List.mem_cons_self
  | finish idle => exact .gone (fun i mem => by rw [idle] at mem; cases mem) nofun

theorem completed (h : Fate t s) (own : s.EndsOwn t) {i : WorkItem Request} {ok : Bool}
    {after : Option Author} (current : s.queue.current = some i)
    (allowed : i.work.control.allows i.work.author s.holder after ok) :
    (s.complete i ok after).EndsOwn t ∧ Fate t (s.complete i ok after) := by
  -- only what the operation in flight ended is new
  have ends (new : ∀ a, s.holder = some a → i.undoes t → a.party? = some t) :
      (s.complete i ok after).EndsOwn t := by
    intro e mem undoes
    rcases List.mem_append.mp mem with mem | mem
    · exact own e mem undoes
    · obtain ⟨before, eq⟩ := mem_ended mem
      exact new e.1 before (eq ▸ undoes)
  cases h with
  | waits held harmless shielded =>
      obtain ⟨a, holder, party⟩ := held
      have keeps : after = some a := by
        rw [holder] at allowed
        exact Control.allows_harmless (harmless i current).2 allowed
      refine ⟨ends fun a' is _ => ?_, .waits ⟨a, keeps, party⟩ nofun shielded⟩
      rw [← Option.some.inj (holder.symm.trans is)]
      exact party
  | runs held is undoes none =>
      obtain ⟨a, holder, party⟩ := held
      refine ⟨ends fun a' is _ => ?_, .gone nofun none⟩
      rw [← Option.some.inj (holder.symm.trans is)]
      exact party
  | gone none none' =>
      refine ⟨ends fun a _ undoes => ?_, .gone nofun none'⟩
      rw [none i current] at undoes
      cases undoes

theorem step (h : Fate t s) (own : s.EndsOwn t) (finished : s.phase t = .finished)
    (effect : Effect s s') : s'.EndsOwn t ∧ Fate t s' := by
  cases effect with
  | asked mark more marks pending current others holder ends =>
      refine ⟨by rw [EndsOwn, ends]; exact own, h.asked marks pending current ?_ holder⟩
      exact fun i mem => WorkItem.undoes_eq_false (others t finished i mem)
  | turned turned =>
      refine ⟨?_, h.turned turned⟩
      cases turned <;> exact own
  | completed i ok after current allowed eq =>
      rw [eq]
      exact h.completed own current allowed
  | crashed i eq =>
      rw [eq]
      exact ⟨own, .gone nofun nofun⟩

end Fate

/-! ## Runs -/

/-- A transaction that is over stays so. -/
theorem Step.finished (h : Step s s') (finished : s.phase t = .finished) :
    s'.phase t = .finished := by
  rcases h.moves with same | ⟨u, others, moves⟩
  · rw [phase, same]
    exact finished
  · by_cases eq : t = u
    · subst eq
      exact (moves.of_finished finished).1
    · rw [phase_eq, others t eq]
      exact finished

theorem Fate.steps (h : Fate t s) (reachable : Reachable s) (own : s.EndsOwn t)
    (finished : s.phase t = .finished) (steps : Steps s s') : s'.EndsOwn t := by
  have all : s'.EndsOwn t ∧ Fate t s' ∧ s'.phase t = .finished := by
    induction steps with
    | refl => exact ⟨own, h, finished⟩
    | tail before step ih =>
        obtain ⟨own, fate, finished⟩ := ih
        obtain ⟨own', fate'⟩ := fate.step own finished (step.effect (reachable.steps before))
        exact ⟨own', fate', step.finished finished⟩
  exact all.1

/-- While a transaction is not over, it has left nothing behind. -/
theorem Reachable.none_undoes (h : Reachable s) (going : s.phase t ≠ .finished) :
    ∀ i ∈ s.handled, i.undoes t = false := by
  intro i mem
  obtain ⟨j, in_log, _, work, detached⟩ := h.logged.items i mem
  rw [← Bool.not_eq_true]
  intro undoes
  rw [WorkItem.undoes, ← work, ← detached, Bool.and_eq_true, beq_iff_eq] at undoes
  have submitted := h.logged.submitted (t := t) in_log (by rw [undoes.2]; rfl)
  rw [undoes.1] at submitted
  have ongoing := (h.onCourse t).course.ongoing going
  refine ongoing.not_detached j.id j.work.control true ?_
  rw [← undoes.2]
  exact submitted

end Shared

end ConnectionPool
