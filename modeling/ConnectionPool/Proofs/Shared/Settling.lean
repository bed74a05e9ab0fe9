import ConnectionPool.Engine.Session
import ConnectionPool.Proofs.Shared.Waiting

/-!
# What a transaction leaves open

When a transaction is over, what it opened is over as well, or a rollback that it left
behind is still to be served.  `Shared.Tidy` says so, and for the time before it says when
its transaction may be open.  It is kept by every step of anybody (`Tidy.step`), as long
as the connection accepts work.

Of the engine this takes one thing, which `Shared.RollsBack` states: a rollback that runs
to its end leaves no transaction open, whether it succeeds or fails since none is open
(`Engine.Seat.inTransaction_rollback`).  So once all is served that was submitted before
some time, nothing is open that was opened by a transaction which was over by then
(`Tidy.settled`).
-/

namespace ConnectionPool

/-- An operation leaves a transaction open if that was open before, and it does not end it,
or if it opens it. -/
theorem Control.allows_some {c : Control} {a b : Author} {before : Option Author} {ok : Bool}
    (allowed : c.allows a before (some b) ok) :
    (before = some b ∧ (c.isTerminal → ok = false)) ∨
      (b = a ∧ ((c = .opens ∧ ok = true) ∨ c = .unknown)) := by
  cases c with
  | opens =>
      cases ok with
      | true =>
          have opened := eq_of_beq ((Bool.and_eq_true _ _).mp allowed).2
          exact .inr ⟨Option.some.inj opened, .inl ⟨rfl, rfl⟩⟩
      | false => exact .inl ⟨(eq_of_beq allowed).symm, nofun⟩
  | commits | rollsBack =>
      cases ok with
      | true => exact absurd ((Bool.and_eq_true _ _).mp allowed).2 nofun
      | false =>
          refine .inl ⟨?_, fun _ => rfl⟩
          rcases (Bool.or_eq_true _ _).mp allowed with kept | none
          · exact (eq_of_beq kept).symm
          · cases none
  | keeps => exact .inl ⟨(eq_of_beq allowed).symm, nofun⟩
  | unknown =>
      rcases (Bool.or_eq_true _ _).mp allowed with old | opened
      · rcases (Bool.or_eq_true _ _).mp old with kept | none
        · exact .inl ⟨(eq_of_beq kept).symm, nofun⟩
        · cases none
      · exact .inr ⟨Option.some.inj (eq_of_beq opened), .inr rfl⟩

/-- A rollback leaves no transaction open, also when it fails. -/
theorem Engine.Seat.inTransaction_rollback (s : Engine.Seat) :
    s.rollback.1.session.inTransaction = false := by
  rw [rollback]
  cases is : s.session.inTransaction with
  | true => rfl
  | false => exact is

namespace Shared

variable {α : Type} {s s' : Shared α} {t : Nat}

/-! ## What a transaction may leave -/

/-- A rollback of a transaction that nobody gave up leaves none open when it is over. -/
def RollsBack (s s' : Shared α) : Prop :=
  ∀ i ∈ s.queue.current, ∀ t, i.work = ⟨.coordinator t, .rollsBack⟩ → i.isGivenUp = false →
    s'.queue.current = none → s'.holder = none

/-- What a transaction left behind is in the queue, and its beginning is not behind it. -/
def Undoing (s : Shared α) (t : Nat) : Prop :=
  ∃ before i after, s.queued = before ++ i :: after ∧ i.detached ∧
    i.work = ⟨.coordinator t, .rollsBack⟩ ∧ ∀ j ∈ after, j.work ≠ ⟨.coordinator t, .opens⟩

/-- What a transaction opened may be open. -/
inductive MayHold (s : Shared α) (t : Nat) : Prop where
  /-- The beginning succeeded. -/
  | begun {id : Nat} {c : Control} : s.phase t = .beginning →
      (s.party t).awaiting = some (id, c) → (id, true) ∈ s.replies → MayHold s t
  /-- The unit of work runs. -/
  | running : s.phase t = .running → MayHold s t
  /-- The commit has not succeeded. -/
  | committing {a : α} {id : Nat} {c : Control} : s.phase t = .committing a →
      (s.party t).awaiting = some (id, c) → (id, true) ∉ s.replies → MayHold s t
  /-- The rollback is not over. -/
  | rollingBack {outcome : UnitOutcome α} {id : Nat} {c : Control} :
      s.phase t = .rollingBack outcome → (s.party t).awaiting = some (id, c) →
      (∀ ok, (id, ok) ∉ s.replies) → MayHold s t
  /-- It left a rollback behind. -/
  | undoing : s.phase t = .finished → s.Undoing t → MayHold s t

/-! ### What others do -/

/-- Others than a transaction add operations, or leave some. -/
structure Aside (t : Nat) (s s' : Shared α) : Prop where
  /-- The same transaction is open. -/
  holder : s'.holder = s.holder
  /-- No reply is new. -/
  replies : s'.replies = s.replies
  /-- What is the transaction's own in the queue stays as it is. -/
  queued : ∃ (mark : WorkItem Request → WorkItem Request) (more : List (WorkItem Request)),
    s'.queued = s.queued.map mark ++ more ∧ (∀ i, (mark i).work = i.work) ∧
      (∀ i ∈ s.queued, i.work.author = .coordinator t → mark i = i) ∧
      ∀ i ∈ more, i.work.author ≠ .coordinator t

theorem Aside.appends {more : List (WorkItem Request)} (appends : Appends s s' more)
    (others : ∀ i ∈ more, i.work.author ≠ .coordinator t) : Aside t s s' where
  holder := appends.holder
  replies := appends.replies
  queued := ⟨id, more, by rw [List.map_id, appends.queued], fun _ => rfl, fun _ _ _ => rfl, others⟩

theorem Aside.trans {s'' : Shared α} (h : Aside t s s') (h' : Aside t s' s'') : Aside t s s'' where
  holder := h'.holder.trans h.holder
  replies := h'.replies.trans h.replies
  queued := by
    obtain ⟨mark, more, queued, works, own, others⟩ := h.queued
    obtain ⟨mark', more', queued', works', own', others'⟩ := h'.queued
    refine ⟨mark' ∘ mark, more.map mark' ++ more', ?_, ?_, ?_, ?_⟩
    · rw [queued', queued, List.map_append, List.map_map, List.append_assoc]
    · exact fun i => (works' _).trans (works i)
    · intro i mem author
      have kept := own i mem author
      have mem' : i ∈ s'.queued := queued ▸ List.mem_append_left _ (kept ▸ List.mem_map_of_mem mem)
      rw [Function.comp_apply, kept, own' i mem' author]
    · intro i mem
      rcases List.mem_append.mp mem with mem | mem
      · obtain ⟨j, hj, rfl⟩ := List.mem_map.mp mem
        rw [works']
        exact others j hj
      · exact others' i mem

/-- The caller of an operation leaves, which is not the transaction's own. -/
theorem Aside.leave {n : Nat}
    (others : ∀ i ∈ s.queued, i.id = n → i.work.author ≠ .coordinator t) :
    Aside t s { s with queue := s.queue.leave n } where
  holder := rfl
  replies := rfl
  queued := by
    exact ⟨WorkQueue.markAbandoned n, [], by rw [List.append_nil, queued_leave],
      fun i => (WorkItem.Marked.markAbandoned n i).work,
      fun i mem author => if_neg fun is => others i mem is author, nofun⟩

/-- Another transaction leaves what it waits for. -/
theorem Aside.leftQueue (h : Reachable s) (accepts : s.queue.refuses = false) {u : Nat}
    (ne : t ≠ u) : Aside t s { s with queue := s.leftQueue u } := by
  rw [Shared.leftQueue]
  cases awaits : (s.party u).awaiting with
  | none => exact .appends (.refl s) (by simp)
  | some awaited =>
      obtain ⟨id, c⟩ := awaited
      refine .leave fun i mem is own => ne ?_
      rw [h.awaited accepts awaits mem is] at own
      exact (Author.coordinator.inj own).symm

/-- When the first operation leaves the queue, what was left behind is still there, or it was
that. -/
theorem Undoing.tail (h : s.Undoing t) {i : WorkItem Request} {rest : List (WorkItem Request)}
    (queued : s.queued = i :: rest) (queued' : s'.queued = rest) : s'.Undoing t ∨
      (i.detached ∧ i.work = ⟨.coordinator t, .rollsBack⟩ ∧
        ∀ j ∈ rest, j.work ≠ ⟨.coordinator t, .opens⟩) := by
  obtain ⟨before, j, after, eq, detached, work, begun⟩ := h
  rw [queued] at eq
  cases before with
  | nil =>
      obtain ⟨rfl, rfl⟩ := List.cons.inj eq
      exact .inr ⟨detached, work, begun⟩
  | cons k before =>
      obtain ⟨rfl, rfl⟩ := List.cons.inj eq
      exact .inl ⟨before, j, after, queued', detached, work, begun⟩

/-- So it is when the operation in flight is over. -/
theorem Undoing.completed (h : s.Undoing t) {i : WorkItem Request} {ok : Bool}
    {after : Option Author} (current : s.queue.current = some i)
    (rollsBack : RollsBack s (s.complete i ok after)) : (s.complete i ok after).Undoing t ∨
      (i.work = ⟨.coordinator t, .rollsBack⟩ ∧ after = none ∧
        ∀ j ∈ s.queue.pending, j.work ≠ ⟨.coordinator t, .opens⟩) := by
  have queued : s.queued = i :: s.queue.pending := by rw [Shared.queued, current]; rfl
  have left : (s.complete i ok after).Undoing t ∨ _ := h.tail queued rfl
  rcases left with undoing | ⟨detached, work, begun⟩
  · exact .inl undoing
  · have ended := rollsBack i current t work (by simp [WorkItem.isGivenUp, detached]) rfl
    exact .inr ⟨work, ended, begun⟩

theorem Undoing.aside (h : s.Undoing t) (aside : Aside t s s') : s'.Undoing t := by
  obtain ⟨before, i, after, eq, detached, work, begun⟩ := h
  obtain ⟨mark, more, queued, works, own, others⟩ := aside.queued
  have kept : mark i = i := own i (by rw [eq]; simp) (by rw [work])
  refine ⟨before.map mark, i, after.map mark ++ more, ?_, detached, work, ?_⟩
  · rw [queued, eq, List.map_append, List.map_cons, kept, List.append_assoc, List.cons_append]
  · intro j mem
    rcases List.mem_append.mp mem with mem | mem
    · obtain ⟨k, hk, rfl⟩ := List.mem_map.mp mem
      rw [works]
      exact begun k hk
    · exact fun is => others j mem (by rw [is])

/-! ### What the transaction does -/

theorem MayHold.mono (h : s.MayHold t) (party : s'.party t = s.party t)
    (replies : s'.replies = s.replies) (undoing : s.Undoing t → s'.Undoing t) : s'.MayHold t := by
  have phase : s'.phase t = s.phase t := by rw [phase_eq, party, ← phase_eq]
  cases h with
  | begun is awaits replied => exact .begun (phase.trans is) (party ▸ awaits) (replies ▸ replied)
  | running is => exact .running (phase.trans is)
  | committing is awaits not => exact .committing (phase.trans is) (party ▸ awaits) (replies ▸ not)
  | rollingBack is awaits not =>
      exact .rollingBack (phase.trans is) (party ▸ awaits) (replies ▸ not)
  | undoing is left => exact .undoing (phase.trans is) (undoing left)

section MayHold

variable {id : Nat} {c : Control}

theorem MayHold.leased_or_finished (h : s.MayHold t) :
    (s.phase t).isLeased ∨ s.phase t = .finished := by
  cases h with
  | begun is _ _ | running is | committing is _ _ | rollingBack is _ _ => exact .inl (is ▸ rfl)
  | undoing is _ => exact .inr is

theorem MayHold.replied (h : s.MayHold t) (phase : s.phase t = .beginning)
    (awaits : (s.party t).awaiting = some (id, c)) : (id, true) ∈ s.replies := by
  cases h with
  | begun _ awaits' replied =>
      cases awaits.symm.trans awaits'
      exact replied
  | running is | committing is _ _ | rollingBack is _ _ | undoing is _ =>
      rw [phase] at is
      cases is

theorem MayHold.not_committed (h : s.MayHold t) {a : α} (phase : s.phase t = .committing a)
    (awaits : (s.party t).awaiting = some (id, c)) : (id, true) ∉ s.replies := by
  cases h with
  | committing _ awaits' not =>
      cases awaits.symm.trans awaits'
      exact not
  | begun is _ _ | running is | rollingBack is _ _ | undoing is _ =>
      rw [phase] at is
      cases is

theorem MayHold.not_rolledBack (h : s.MayHold t) {outcome : UnitOutcome α}
    (phase : s.phase t = .rollingBack outcome) (awaits : (s.party t).awaiting = some (id, c))
    (ok : Bool) : (id, ok) ∉ s.replies := by
  cases h with
  | rollingBack _ awaits' not =>
      cases awaits.symm.trans awaits'
      exact not ok
  | begun is _ _ | running is | committing is _ _ | undoing is _ =>
      rw [phase] at is
      cases is

end MayHold

/-- What a transaction that goes on opened may be open after its step if it may before. -/
theorem MayHold.moves (may : s.MayHold t) (reachable : Reachable s) (reachable' : Reachable s')
    (replies : s'.replies = s.replies) (going : .dropped ∉ s'.history t)
    (m : Party.Moves t (!s.queue.refuses) s.fresh (s.party t) (s'.party t)) : s'.MayHold t := by
  have replied : ∀ {id c ok}, .answered id c ok ∈ s'.history t → (id, ok) ∈ s.replies :=
    fun seen => replies ▸ reachable'.logged.replied t _ _ _ seen
  have new : ∀ ok, (s.fresh, ok) ∉ s'.replies := by
    intro ok mem
    rw [replies] at mem
    have number : s.fresh ∈ s.numbers := List.mem_append_right _ (List.mem_map_of_mem mem)
    exact Nat.lt_irrefl _ (reachable.logged.number_lt s.fresh number)
  have early {phase : Transaction.Phase α} (is : s.phase t = phase) (not : phase.isLeased = false)
      (going : phase ≠ .finished) : False := by
    rcases may.leased_or_finished with leased | finished
    · rw [is, not] at leased
      cases leased
    · exact going (is.symm.trans finished)
  -- what it was told is in its history, so each move is possible with one reply only
  rw [Shared.history] at going replied
  generalize party : s'.party t = p at m going replied
  have is {phase : Transaction.Phase α} (eq : p.coordinator.phase = phase) :
      s'.phase t = phase := by
    rw [phase_eq, party]
    exact eq
  cases m with
  | start phase | begin phase | notLeased phase => exact (early phase rfl (by simp)).elim
  | run _ _ => exact .running (is rfl)
  | notBegun phase awaits =>
      have failed := replied (List.mem_append_right _ List.mem_cons_self)
      cases reachable.logged.reply_unique failed (may.replied phase awaits)
  | work _ _ _ => exact .running (is rfl)
  | commit a _ => exact .committing (is rfl) (congrArg Party.awaiting party) (new true)
  | rollBack outcome _ => exact .rollingBack (is rfl) (congrArg Party.awaiting party) new
  | committed phase awaits =>
      have succeeded := replied (List.mem_append_right _ List.mem_cons_self)
      exact absurd succeeded (may.not_committed phase awaits)
  | notCommitted outcome _ _ => exact .rollingBack (is rfl) (congrArg Party.awaiting party) new
  | rolledBack ok phase awaits =>
      have ended := replied (List.mem_append_right _ List.mem_cons_self)
      exact absurd ended (may.not_rolledBack phase awaits ok)
  | stray ok silent awaits =>
      have waits := (reachable.onCourse t).awaits_eq awaits
      rw [silent] at waits
      cases waits
  | dropEarly _ | dropOwing _ _ | dropClear _ _ =>
      exact absurd (List.mem_append_right _ List.mem_cons_self) going

/-! ## Steps -/

/-- What a transaction opened is over when it is, or will be. -/
structure Tidy (s : Shared α) (t : Nat) : Prop where
  /-- What it opened is open at its time only. -/
  holds : s.holder = some (.coordinator t) → s.MayHold t
  /-- When it is over, what it may still open will be rolled back. -/
  begins : s.phase t = .finished → ∀ i ∈ s.queued, i.work = ⟨.coordinator t, .opens⟩ → s.Undoing t
  /-- What it waits for was not given up. -/
  waits : ∀ id c, (s.party t).awaiting = some (id, c) →
    ∀ i ∈ s.queued, i.id = id → i.isGivenUp = false

namespace Tidy

theorem new (mode : Nat → IsolationMode) (t : Nat) : Tidy (new mode : Shared α) t where
  holds := nofun
  begins := nofun
  waits := nofun

/-- The transaction does nothing, nothing is over, and what is its own in the queue was there
before. -/
theorem kept (h : Tidy s t) (reachable : Reachable s') (accepts : s'.queue.refuses = false)
    (party : s'.party t = s.party t) (holder : s'.holder = s.holder)
    (replies : s'.replies = s.replies)
    (old : ∀ i ∈ s'.queued, i.work.author = .coordinator t → i ∈ s.queued)
    (undoing : s.Undoing t → s'.Undoing t) : Tidy s' t where
  holds := fun is => (h.holds (holder ▸ is)).mono party replies undoing
  begins := by
    intro finished i mem begins
    rw [phase_eq, party] at finished
    exact undoing (h.begins finished i (old i mem (by rw [begins])) begins)
  waits := by
    intro id c awaits i mem is
    have own := reachable.awaited accepts awaits mem is
    exact h.waits id c (party ▸ awaits) i (old i mem (by rw [own])) is

theorem aside (h : Tidy s t) (reachable : Reachable s') (accepts : s'.queue.refuses = false)
    (party : s'.party t = s.party t) (aside : Aside t s s') : Tidy s' t := by
  refine h.kept reachable accepts party aside.holder aside.replies ?_ (·.aside aside)
  intro i mem author
  obtain ⟨mark, more, queued, works, own, others⟩ := aside.queued
  rw [queued] at mem
  rcases List.mem_append.mp mem with mem | mem
  · obtain ⟨j, hj, rfl⟩ := List.mem_map.mp mem
    rw [works] at author
    rw [own j hj author]
    exact hj
  · exact absurd author (others i mem)

theorem own (h : Tidy s t) (reachable : Reachable s) (reachable' : Reachable s')
    {more : List (WorkItem Request)} (appends : Appends s s' more)
    (going : .dropped ∉ s'.history t)
    (m : Party.Moves t (!s.queue.refuses) s.fresh (s.party t) (s'.party t)) : Tidy s' t := by
  constructor
  · intro holder
    exact (h.holds (appends.holder ▸ holder)).moves reachable reachable' appends.replies going m
  · intro finished i mem begins
    rcases reachable'.beginning mem begins with ⟨phase, -⟩ | ⟨-, dropped⟩
    · rw [finished] at phase
      cases phase
    · exact absurd dropped going
  · intro id c awaits i mem is
    rw [appends.queued] at mem
    rcases List.mem_append.mp mem with mem | mem
    · rcases m.awaiting awaits with old | new
      · exact h.waits id c old i mem is
      · have number : i.id ∈ s.numbers := List.mem_append_left _ (List.mem_map_of_mem mem)
        have lt := reachable.logged.number_lt i.id number
        omega
    · exact appends.waits i mem

section Completed

variable {i : WorkItem Request} {ok : Bool} {after : Option Author}

/-- A reply that is sent now, and that the transaction waits for, is to its own operation. -/
theorem replied (h : Tidy s t) (reachable : Reachable s) (accepts : s.queue.refuses = false)
    (current : s.queue.current = some i) {id : Nat} {c : Control}
    (awaits : (s.party t).awaiting = some (id, c)) {ok' : Bool} (not : (id, ok') ∉ s.replies)
    (replied : (id, ok') ∈ (s.complete i ok after).replies) :
    i.work = ⟨.coordinator t, c⟩ ∧ i.isGivenUp = false ∧ ok' = ok := by
  have first : i ∈ s.queued := by simp [queued, current]
  rcases List.mem_append.mp replied with old | now
  · exact absurd old not
  · obtain ⟨rfl, rfl⟩ := Prod.mk.inj (List.mem_singleton.mp now)
    exact ⟨reachable.awaited accepts awaits first rfl, h.waits _ c awaits i first rfl, rfl⟩

/-- What the transaction opened is still open after an operation. -/
theorem still_open (h : Tidy s t) (reachable : Reachable s) (accepts : s.queue.refuses = false)
    (current : s.queue.current = some i) (rollsBack : RollsBack s (s.complete i ok after))
    (is_open : after ≠ none) (before : s.holder = some (.coordinator t))
    (failed : i.work.control.isTerminal → ok = false) : (s.complete i ok after).MayHold t := by
  cases h.holds before with
  | begun is awaits replied => exact .begun is awaits (List.mem_append_left _ replied)
  | running is => exact .running is
  | committing is awaits not =>
      refine .committing is awaits fun now => ?_
      obtain ⟨work, -, same⟩ := h.replied reachable accepts current awaits not now
      have c := (reachable.onCourse t).awaits_eq awaits
      rw [← phase_eq, is] at c
      rw [work, ← Option.some.inj c, ← same] at failed
      cases failed rfl
  | rollingBack is awaits not =>
      refine .rollingBack is awaits fun ok' now => ?_
      obtain ⟨work, waits, -⟩ := h.replied reachable accepts current awaits (not ok') now
      have c := (reachable.onCourse t).awaits_eq awaits
      rw [← phase_eq, is] at c
      rw [← Option.some.inj c] at work
      exact is_open (rollsBack i current t work waits rfl)
  | undoing is undoing =>
      refine .undoing is ((undoing.completed current rollsBack).resolve_right ?_)
      exact fun ⟨_, ended, _⟩ => is_open ended

/-- The beginning of the transaction succeeds. -/
theorem opened (h : Tidy s t) (reachable : Reachable s) (current : s.queue.current = some i)
    (rollsBack : RollsBack s (s.complete i true after))
    (begins : i.work = ⟨.coordinator t, .opens⟩) : (s.complete i true after).MayHold t := by
  have first : i ∈ s.queued := by simp [queued, current]
  rcases reachable.beginning first begins with ⟨is, awaits⟩ | ⟨is, -⟩
  · exact .begun is awaits (List.mem_append_right _ (.head _))
  · have undoing := h.begins is i first begins
    refine .undoing is ((undoing.completed current rollsBack).resolve_right ?_)
    rintro ⟨work, -, -⟩
    rw [work] at begins
    cases begins

theorem completed (h : Tidy s t) (reachable : Reachable s) (accepts : s.queue.refuses = false)
    (current : s.queue.current = some i)
    (allowed : i.work.control.allows i.work.author s.holder after ok)
    (rollsBack : RollsBack s (s.complete i ok after)) : Tidy (s.complete i ok after) t := by
  have old : ∀ j ∈ (s.complete i ok after).queued, j ∈ s.queued :=
    fun j mem => List.mem_append_right _ mem
  constructor
  · intro holder
    change after = some _ at holder
    subst holder
    rcases Control.allows_some allowed with ⟨before, failed⟩ | ⟨own, opens⟩
    · exact h.still_open reachable accepts current rollsBack nofun before failed
    · have control := reachable.own_control (by simp [queued, current]) own.symm
      rcases opens with ⟨opens, rfl⟩ | unknown
      · exact h.opened reachable current rollsBack (by rw [own, ← opens])
      · rw [unknown] at control
        rcases control with opens | terminal
        · cases opens
        · cases terminal
  · intro is j mem begins
    refine ((h.begins is j (old j mem) begins).completed current rollsBack).resolve_right ?_
    rintro ⟨-, -, begun⟩
    exact begun j mem begins
  · exact fun id c awaits j mem same => h.waits id c awaits j (old j mem) same

end Completed

theorem turned (h : Tidy s t) (reachable : Reachable s') (turned : Turned s s')
    (accepts : s'.queue.refuses = false) : Tidy s' t := by
  cases turned with
  | rest => exact h
  | @skip i rest pending idle givenUp =>
      have queued : s.queued = i :: rest := by rw [Shared.queued, idle, pending]; rfl
      have same : Shared.queued { s with queue := { s.queue with pending := rest } } = rest := by
        rw [Shared.queued, idle]
        rfl
      refine h.kept reachable accepts rfl rfl rfl ?_ fun undoing => ?_
      · intro j mem _
        rw [queued]
        exact List.mem_cons_of_mem i (same ▸ mem)
      · refine (undoing.tail queued same).resolve_right ?_
        rintro ⟨detached, -, -⟩
        rw [WorkItem.isGivenUp, detached, Bool.not_true, Bool.and_false] at givenUp
        cases givenUp
  | @start i rest pending idle _ =>
      have same : Shared.queued { s with
          queue := { s.queue with pending := rest, current := some i }
          started := s.started ++ [i] } = s.queued := by
        rw [Shared.queued, Shared.queued, idle, pending]
        rfl
      refine h.kept reachable accepts rfl rfl rfl (fun j mem _ => same ▸ mem) fun undoing => ?_
      rw [Undoing, same]
      exact undoing
  | finish _ =>
      rw [WorkQueue.refuses, Bool.or_true] at accepts
      cases accepts

/-- A coordinator takes a step, after something that adds nothing to the queue. -/
theorem conduct (h : Tidy s t) (reachable : Reachable s) (accepts : s.queue.refuses = false)
    {u : Nat} {before : Shared α} {e : Transaction.Event α} (same : Appends s before [])
    (others : ∀ v, v ≠ u → before.party v = s.party v) (active : s.phase u ≠ .finished)
    (going : .dropped ∈ before.history u → .dropped ∈ s.history u)
    (reachable' : Reachable (before.conduct u e))
    (m : Party.Moves u (!s.queue.refuses) s.fresh (s.party u) ((before.conduct u e).party u)) :
    Tidy (before.conduct u e) t := by
  obtain ⟨more, appends, own⟩ := Appends.conduct (same.refuses.trans accepts) u e
  have all := same.trans appends
  by_cases is : t = u
  · subst is
    have ongoing := (reachable.onCourse t).course.ongoing active
    exact h.own reachable reachable' all
      (fun dropped => ongoing.not_dropped (going (history_conduct before t e dropped))) m
  · refine h.aside reachable' (all.refuses.trans accepts)
      ((party_conduct_ne is e).trans (others t is)) (.appends all fun i mem author => is ?_)
    exact Author.coordinator.inj (author.symm.trans (own i mem))

/-- It is dropped before it has its lease. -/
theorem dropEarly (h : Tidy s t) (reachable : Reachable s) (reachable' : Reachable (s.drop t))
    (acquiring : s.phase t = .acquiring) (holder : (s.drop t).holder = s.holder) :
    Tidy (s.drop t) t := by
  have party := party_drop_early acquiring
  have ongoing := (reachable.onCourse t).course.ongoing (by rw [← phase_eq, acquiring]; nofun)
  constructor
  · intro is
    have may := (h.holds (holder ▸ is)).leased_or_finished
    rw [acquiring] at may
    rcases may with leased | finished
    · cases leased
    · cases finished
  · -- it has submitted nothing
    intro _ i mem begins
    have submitted := reachable'.submitted (t := t) mem (by rw [begins]; rfl)
    rw [Shared.history, party] at submitted
    have old := (List.mem_append.mp submitted).resolve_right (by simp)
    have asked : i.work ∈ requestsOf (s.history t) := List.mem_filterMap.mpr ⟨_, old, rfl⟩
    have none := ongoing.submitted
    rw [← phase_eq, acquiring] at none
    rw [Shared.history, none] at asked
    cases asked
  · intro id c awaits
    rw [party] at awaits
    cases awaits

/-- It is dropped with its lease, and leaves a rollback behind all that is in the queue. -/
theorem dropLeased (reachable : Reachable s) (accepts : s.queue.refuses = false)
    (leased : (s.phase t).isLeased) : Tidy (s.drop t) t := by
  have party := party_drop_owing leased (reachable.owes leased)
  have dropped := drop_adds leased (reachable.owes leased) accepts
  have undoing : (s.drop t).Undoing t := by
    refine ⟨queued { s with queue := s.leftQueue t }, s.leftBehind t, [], ?_, rfl, rfl, nofun⟩
    rw [queued, dropped.queue, queued, List.append_assoc]
  refine ⟨fun _ => .undoing (by rw [phase_eq, party]; rfl) undoing, fun _ _ _ _ => undoing, ?_⟩
  intro id c awaits
  rw [party] at awaits
  cases awaits

/-- A transaction is dropped. -/
theorem drop (h : Tidy s t) (reachable : Reachable s) (accepts : s.queue.refuses = false) {u : Nat}
    (active : (s.phase u).isActive) : Tidy (s.drop u) t := by
  have reachable' := reachable.steps (Steps.refl.tail (.drop u active))
  let left : Shared α := { s with queue := s.leftQueue u }
  have same : Appends left
      ((left.modify u fun p => { p with awaiting := none }).note u .dropped) [] :=
    (Appends.modify left u _).trans (.note _ u .dropped)
  obtain ⟨more, appends, own⟩ := Appends.conduct
    (same.refuses.trans (refuses_leftQueue.trans accepts)) u (.dropped : Transaction.Event α)
  have all := same.trans appends
  by_cases is : t = u
  · subst is
    cases phase : s.phase t with
    | idle | finished => rw [phase] at active; cases active
    | acquiring => exact h.dropEarly reachable reachable' phase all.holder
    | beginning | running | committing _ | rollingBack _ =>
        exact dropLeased reachable accepts (phase ▸ rfl)
  · have party : (s.drop u).party t = s.party t := by
      rw [Shared.drop, party_conduct_ne is, note, party_modify_ne _ is, party_modify_ne _ is]
    have accepts' := all.refuses.trans (refuses_leftQueue.trans accepts)
    refine h.aside reachable' accepts' party
      ((Aside.leftQueue reachable accepts is).trans (.appends all fun i mem author => is ?_))
    exact Author.coordinator.inj (author.symm.trans (own i mem))

end Tidy

/-- Whoever has a transaction open submitted an operation that may open one. -/
theorem Reachable.opener (h : Reachable s) {a : Author} (holder : s.holder = some a) :
    ∃ i ∈ s.log, i.work.author = a ∧ (i.work.control = .opens ∨ i.work.control = .unknown) := by
  obtain ⟨mode, steps⟩ := h
  induction steps with
  | refl => cases holder
  | @tail s s' before step ih =>
      have reachable : Reachable s := ⟨mode, before⟩
      have old (before : s.holder = some a) : ∃ i ∈ s'.log, i.work.author = a ∧
          (i.work.control = .opens ∨ i.work.control = .unknown) := by
        obtain ⟨i, mem, opened⟩ := ih before
        exact ⟨i, step.log_subset mem, opened⟩
      cases step.effect reachable with
      | asked _ _ _ _ _ _ same _ => exact old (same ▸ holder)
      | turned turned =>
          cases turned with
          | rest | skip _ _ _ | start _ _ _ => exact old holder
          | finish _ => cases holder
      | completed i ok after current allowed eq =>
          rw [eq] at holder
          rw [show after = some a from holder] at allowed
          rcases Control.allows_some allowed with ⟨before, -⟩ | ⟨own, opened⟩
          · exact old before
          · have mem : i ∈ s.handled := by simp [handled, Shared.queued, current]
            obtain ⟨j, in_log, -, work, -⟩ := reachable.logged.items i mem
            refine ⟨j, step.log_subset in_log, ?_⟩
            rw [work]
            exact ⟨own.symm, opened.imp And.left id⟩
      | crashed i eq =>
          rw [eq] at holder
          cases holder

/-- Every step leaves what is a transaction's own tidy, while the connection accepts work and
the engine rolls back. -/
theorem Tidy.step (h : Tidy s t) (reachable : Reachable s) (step : Step s s')
    (sound : RollsBack s s') (accepts' : s'.queue.refuses = false) : Tidy s' t := by
  have reachable' := reachable.steps (Steps.refl.tail step)
  have accepts : s.queue.refuses = false := by
    rw [← Bool.not_eq_true] at accepts' ⊢
    exact fun refuses => accepts' (step.refuses refuses)
  cases step with
  | start u idle =>
      exact h.conduct reachable accepts (.refl s) (fun _ _ => rfl) (by simp [idle]) id
        reachable' (start_moves idle)
  | leased u acquiring =>
      exact h.conduct reachable accepts (.note s u .leased) (fun v ne => party_modify_ne _ ne)
        (by simp [acquiring]) (by simp [history, note]) reachable' (leased_moves acquiring)
  | notLeased u e acquiring =>
      exact h.conduct reachable accepts (.refl s) (fun _ _ => rfl) (by simp [acquiring]) id
        reachable' (notLeased_moves acquiring e)
  | answer u id c ok e awaits _ =>
      have active : s.phase u ≠ .finished := by
        intro finished
        have eq := (reachable.onCourse u).awaits_eq awaits
        rw [← phase_eq, finished] at eq
        cases eq
      exact h.conduct reachable accepts ((Appends.modify s u _).trans (.note _ u _))
        (fun v ne => (party_modify_ne _ ne).trans (party_modify_ne _ ne)) active
        (by simp [history, note]) reachable' (answer_moves awaits ok e)
  | unitDone u outcome running =>
      exact h.conduct reachable accepts (.note s u _) (fun v ne => party_modify_ne _ ne)
        (by simp [running]) (by simp [history, note]) reachable' (unitDone_moves running outcome)
  | drop u active => exact h.drop reachable accepts active
  | work u c detached running =>
      have appends := Appends.submitFor accepts u ⟨.work u, c⟩ detached
      by_cases is : t = u
      · subst is
        have ongoing := (reachable.onCourse t).course.ongoing (by simp [← phase_eq, running])
        refine h.own reachable reachable' appends ?_ (work_moves running c detached)
        have not_dropped := ongoing.not_dropped
        simpa [history, submitFor, note] using not_dropped
      · refine h.aside reachable' accepts' ?_ (.appends appends (by simp))
        rw [submitFor, note, party_modify_ne _ is, party_enqueue]
  | submit c detached =>
      exact h.aside reachable' accepts' (by rw [party_enqueue])
        (.appends (.enqueue accepts ⟨.other, c⟩ detached) (by simp))
  | leave n others =>
      refine h.aside reachable' accepts' rfl (.leave fun i mem is => others i ?_ is t)
      exact List.perm_append_comm.subset mem
  | turn => exact h.turned reachable' s.turned accepts'
  | complete i ok after current allowed => exact h.completed reachable accepts current allowed sound
  | crash i _ => cases (Bool.or_true _).symm.trans accepts'
  | requestClose => cases accepts'

/-- Once all is served that was submitted before some time, nothing is open that a transaction
opened which was over by then. -/
theorem Tidy.settled (h : Tidy s' t) (reachable : Reachable s) (steps : Steps s s')
    (finished : s.phase t = .finished) (served : ∀ i ∈ s'.queued, s.fresh ≤ i.id) :
    s'.holder ≠ some (.coordinator t) := by
  intro holder
  have party := steps.party_finished reachable finished
  have finished' : s'.phase t = .finished := by rw [phase_eq, party]; exact finished
  cases h.holds holder with
  | begun is _ _ | running is | committing is _ _ | rollingBack is _ _ =>
      rw [finished'] at is
      cases is
  | undoing _ undoing =>
      obtain ⟨before, i, after, eq, -, work, -⟩ := undoing
      have mem : i ∈ s'.queued := by rw [eq]; simp
      have submitted := (reachable.steps steps).submitted (t := t) mem (by rw [work]; rfl)
      rw [history, party] at submitted
      exact Nat.lt_irrefl _ (Nat.lt_of_lt_of_le (reachable.logged.submitted_lt submitted)
        (served i mem))

end Shared

end ConnectionPool
