import ConnectionPool.Proofs.Shared.Moves

/-!
# The course of a transaction

A `Course` is a history that the moves of a transaction can lead to, together with the
phase they lead to.  It goes on by the moves that keep the transaction going and comes to
its `Ending` by one that does not.  What a party waits for and whether it owes a rollback
follow from the phase (`Party.OnCourse`), so that a reply always finds its coordinator
waiting for it.

What a course looks like before its ending, `Ongoing` says phase by phase: which states it
showed, what it submitted, and what it has not done yet.  What holds of a transaction that
is over follows from that and from the few marks of the ending.
-/

namespace ConnectionPool

/-! ## Courses -/

variable {α : Type}

/-- The marks with which a transaction ends, from each phase. -/
inductive Ending (t : Nat) : Transaction.Phase α → List Mark → Prop where
  /-- It got no lease. -/
  | notLeased : Ending t .acquiring []
  /-- It was dropped before it had its lease. -/
  | dropEarly : Ending t .acquiring [.dropped]
  /-- The beginning failed. -/
  | notBegun (id : Nat) :
      Ending t .beginning [.answered id .opens false, .released, .state .released]
  /-- The commit succeeded. -/
  | committed (id : Nat) (a : α) :
      Ending t (.committing a) [.answered id .commits true, .released, .state .released]
  /-- The rollback was over. -/
  | rolledBack (id : Nat) (outcome : UnitOutcome α) (ok : Bool) :
      Ending t (.rollingBack outcome) [.answered id .rollsBack ok, .released, .state .released]
  /-- It was dropped. -/
  | drop {phase : Transaction.Phase α} (id : Nat) (accepted : Bool) : phase.isLeased →
      Ending t phase [.dropped, .submitted id ⟨.coordinator t, .rollsBack⟩ true accepted,
        .released, .state .released]

/-- A history that moves lead to, with the phase. -/
inductive Course (t : Nat) : Transaction.Phase α → List Mark → Prop where
  /-- Nothing happened. -/
  | idle : Course t .idle []
  /-- It was started. -/
  | start {h : List Mark} : Course t .idle h →
      Course t .acquiring (h ++ [.state .acquiringConnection])
  /-- It submitted the beginning. -/
  | begin {h : List Mark} (id : Nat) (accepted : Bool) : Course t .acquiring h →
      Course t .beginning (h ++ [.leased, .submitted id ⟨.coordinator t, .opens⟩ false accepted])
  /-- The beginning succeeded. -/
  | run {h : List Mark} (id : Nat) : Course t .beginning h → Course t .running
      (h ++ [.answered id .opens true, .state .began, .state .running])
  /-- Its unit of work submitted an operation. -/
  | work {h : List Mark} (id : Nat) (c : Control) (detached accepted : Bool) :
      Course t .running h → Course t .running (h ++ [.submitted id ⟨.work t, c⟩ detached accepted])
  /-- Its unit of work ended with a value, and it submitted the commit. -/
  | commit {h : List Mark} (id : Nat) (a : α) (accepted : Bool) : Course t .running h →
      Course t (.committing a) (h ++ [.unitEnded true, .state .committing,
        .submitted id ⟨.coordinator t, .commits⟩ false accepted])
  /-- Its unit of work failed or panicked, and it submitted the rollback. -/
  | rollBack {h : List Mark} (id : Nat) (outcome : UnitOutcome α) (accepted : Bool) :
      Course t .running h → Course t (.rollingBack outcome) (h ++ [.unitEnded false,
        .state .rollingBack, .submitted id ⟨.coordinator t, .rollsBack⟩ false accepted])
  /-- The commit failed, and it submitted the rollback. -/
  | notCommitted {h : List Mark} {a : α} (id id' : Nat) (outcome : UnitOutcome α)
      (accepted : Bool) : Course t (.committing a) h → Course t (.rollingBack outcome)
        (h ++ [.answered id .commits false, .state .rollingBack,
          .submitted id' ⟨.coordinator t, .rollsBack⟩ false accepted])
  /-- It ended. -/
  | finished {phase : Transaction.Phase α} {h tail : List Mark} : phase.isActive →
      Course t phase h → Ending t phase tail → Course t .finished (h ++ tail)

/-- The history of a party is a course, and what it waits for and owes goes with it. -/
structure Party.OnCourse (t : Nat) (p : Party α) : Prop where
  /-- The history is a course. -/
  course : Course t p.coordinator.phase p.history
  /-- It owes a rollback while it has its lease. -/
  owes : p.coordinator.owesRollback = p.coordinator.phase.isLeased
  /-- It waits for the statement of its phase. -/
  awaits : p.awaiting.map Prod.snd = p.coordinator.phase.awaits

namespace Party.OnCourse

variable {t : Nat} {p p' : Party α}

theorem new (t : Nat) (mode : IsolationMode) :
    OnCourse t ({ coordinator := { mode } } : Party α) where
  course := .idle
  owes := rfl
  awaits := rfl

/-- The statement that a party waits for is that of its phase. -/
theorem awaits_eq (h : OnCourse t p) {id : Nat} {c : Control} (awaits : p.awaiting = some (id, c)) :
    p.coordinator.phase.awaits = some c := by
  have eq := h.awaits
  rw [awaits] at eq
  exact eq.symm

theorem moves (h : OnCourse t p) {accepts : Bool} {fresh : Nat}
    (m : Party.Moves t accepts fresh p p') : OnCourse t p' := by
  obtain ⟨course, owes, awaits⟩ := h
  have whole : OnCourse t p := ⟨course, owes, awaits⟩
  cases m with
  | start phase =>
      rw [phase] at course owes awaits
      exact ⟨course.start, owes, awaits⟩
  | begin phase =>
      rw [phase] at course
      exact ⟨course.begin fresh accepts, rfl, rfl⟩
  | notLeased phase =>
      rw [phase] at course owes awaits
      exact ⟨.finished rfl course .notLeased, owes, awaits⟩
  | run phase waits =>
      have eq := whole.awaits_eq waits
      rw [phase] at course owes eq
      cases eq
      exact ⟨course.run _, owes, rfl⟩
  | notBegun phase waits =>
      have eq := whole.awaits_eq waits
      rw [phase] at course eq
      cases eq
      exact ⟨.finished rfl course (.notBegun _), rfl, rfl⟩
  | work c detached phase =>
      rw [phase] at course owes awaits
      exact ⟨course.work fresh c detached accepts, owes, awaits⟩
  | commit a phase =>
      rw [phase] at course owes
      exact ⟨course.commit fresh a accepts, owes, rfl⟩
  | rollBack outcome phase =>
      rw [phase] at course owes
      exact ⟨course.rollBack fresh outcome accepts, owes, rfl⟩
  | committed phase waits =>
      have eq := whole.awaits_eq waits
      rw [phase] at course eq
      cases eq
      exact ⟨.finished rfl course (.committed _ _), rfl, rfl⟩
  | notCommitted outcome phase waits =>
      have eq := whole.awaits_eq waits
      rw [phase] at course owes eq
      cases eq
      exact ⟨course.notCommitted _ fresh outcome accepts, owes, rfl⟩
  | rolledBack ok phase waits =>
      have eq := whole.awaits_eq waits
      rw [phase] at course eq
      cases eq
      exact ⟨.finished rfl course (.rolledBack _ _ ok), rfl, rfl⟩
  | stray ok silent waits =>
      have eq := whole.awaits_eq waits
      rw [silent] at eq
      cases eq
  | dropEarly phase =>
      rw [phase] at course owes
      exact ⟨.finished rfl course .dropEarly, owes, rfl⟩
  | dropOwing leased _ =>
      have active := Transaction.Phase.isActive_of_isLeased leased
      exact ⟨.finished active course (.drop fresh accepts leased), rfl, rfl⟩
  | dropClear leased clear =>
      rw [owes, leased] at clear
      cases clear

end Party.OnCourse

/-- In every reachable state every transaction is on its course. -/
theorem Shared.Reachable.onCourse {s : Shared α} (h : Reachable s) (t : Nat) :
    Party.OnCourse t (s.party t) :=
  h.party_induction Party.OnCourse.new (fun _ _ _ _ _ h m => h.moves m) t

/-! ## What a transaction showed and submitted -/

/-- The state that a mark shows. -/
def Mark.state? : Mark → Option TransactionState
  | .state s => some s
  | _ => none

/-- The operation that a mark submits. -/
def Mark.request? : Mark → Option Request
  | .submitted _ r _ _ => some r
  | _ => none

/-- The states that a transaction showed, from the first. -/
def statesOf (h : List Mark) : List TransactionState := .idle :: h.filterMap Mark.state?

/-- The operations that a transaction and its unit of work submitted, in order. -/
def requestsOf (h : List Mark) : List Request := h.filterMap Mark.request?

theorem statesOf_append (h h' : List Mark) :
    statesOf (h ++ h') = statesOf h ++ h'.filterMap Mark.state? := by
  rw [statesOf, List.filterMap_append]
  rfl

theorem requestsOf_append (h h' : List Mark) :
    requestsOf (h ++ h') = requestsOf h ++ requestsOf h' := List.filterMap_append

/-- A transaction may go from one state to the other. -/
inductive Goes (dropped : Bool) : TransactionState → TransactionState → Prop where
  /-- It asks for a connection. -/
  | acquire : Goes dropped .idle .acquiringConnection
  /-- It has begun. -/
  | begin : Goes dropped .acquiringConnection .began
  /-- Its unit of work runs. -/
  | run : Goes dropped .began .running
  /-- It commits. -/
  | commit : Goes dropped .running .committing
  /-- It rolls back. -/
  | rollBack : Goes dropped .running .rollingBack
  /-- It rolls back since the commit failed. -/
  | notCommitted : Goes dropped .committing .rollingBack
  /-- The beginning failed. -/
  | notBegun : Goes dropped .acquiringConnection .released
  /-- The commit succeeded. -/
  | committed : Goes dropped .committing .released
  /-- The rollback is over. -/
  | rolledBack : Goes dropped .rollingBack .released
  /-- It was dropped with its lease. -/
  | jump {s : TransactionState} : dropped → s ≠ .idle → s ≠ .released → Goes dropped s .released

/-- States that a transaction goes through from the first, and the last of them. -/
inductive StatePath (dropped : Bool) : List TransactionState → TransactionState → Prop where
  /-- It has not moved. -/
  | idle : StatePath dropped [.idle] .idle
  /-- It goes one state further. -/
  | go {path : List TransactionState} {s s' : TransactionState} :
      StatePath dropped path s → Goes dropped s s' → StatePath dropped (path ++ [s']) s'

theorem Goes.ofDropped {s s' : TransactionState} (h : Goes false s s') : Goes true s s' := by
  cases h with
  | acquire => exact .acquire
  | begin => exact .begin
  | run => exact .run
  | commit => exact .commit
  | rollBack => exact .rollBack
  | notCommitted => exact .notCommitted
  | notBegun => exact .notBegun
  | committed => exact .committed
  | rolledBack => exact .rolledBack
  | jump dropped _ _ => cases dropped

theorem StatePath.ofDropped {path : List TransactionState} {s : TransactionState}
    (h : StatePath false path s) : StatePath true path s := by
  induction h with
  | idle => exact .idle
  | go _ goes ih => exact ih.go goes.ofDropped

/-- The operations that were submitted up to a phase before the ending. -/
def Submitted (t : Nat) : Transaction.Phase α → List Request → Prop
  | .idle, l | .acquiring, l | .finished, l => l = []
  | .beginning, l => l = [⟨.coordinator t, .opens⟩]
  | .running, l => ∃ works, (∀ r ∈ works, r.author = .work t) ∧
      l = ⟨.coordinator t, .opens⟩ :: works
  | .committing _, l => ∃ works, (∀ r ∈ works, r.author = .work t) ∧
      l = ⟨.coordinator t, .opens⟩ :: (works ++ [⟨.coordinator t, .commits⟩])
  | .rollingBack _, l => ∃ works terms, (∀ r ∈ works, r.author = .work t) ∧
      l = ⟨.coordinator t, .opens⟩ :: (works ++ terms) ∧
      (terms = [⟨.coordinator t, .rollsBack⟩] ∨
        terms = [⟨.coordinator t, .commits⟩, ⟨.coordinator t, .rollsBack⟩])

/-- What was submitted is the beginning, then operations of the unit of work, then
terminal statements; or nothing. -/
def InOrder (t : Nat) (l : List Request) : Prop :=
  l = [] ∨ ∃ works terms, (∀ r ∈ works, r.author = .work t) ∧
    (∀ r ∈ terms, r.author = .coordinator t ∧ r.control.isTerminal) ∧
    l = ⟨.coordinator t, .opens⟩ :: (works ++ terms)

/-- The unit of work was started. -/
@[simp] def Transaction.Phase.hasBegun : Transaction.Phase α → Bool
  | .running | .committing _ | .rollingBack _ => true
  | .idle | .acquiring | .beginning | .finished => false

/-- The unit of work ended, and what it did is to be ended. -/
@[simp] def Transaction.Phase.hasWorked : Transaction.Phase α → Bool
  | .committing _ | .rollingBack _ => true
  | .idle | .acquiring | .beginning | .running | .finished => false

/-- What holds of a transaction that is not over. -/
structure Ongoing (t : Nat) (phase : Transaction.Phase α) (h : List Mark) : Prop where
  /-- The states it showed are a path. -/
  path : StatePath false (statesOf h) phase.state
  /-- What it submitted goes with the phase. -/
  submitted : Submitted t phase (requestsOf h)
  /-- It got its lease if the phase says so. -/
  leased : .leased ∈ h ↔ phase.isLeased
  /-- It saw the beginning succeed if the phase says so. -/
  begun : (∃ id, .answered id .opens true ∈ h) ↔ phase.hasBegun
  /-- Its unit of work ended if the phase says so. -/
  unitEnded : (∃ ok, .unitEnded ok ∈ h) ↔ phase.hasWorked
  /-- It was not dropped. -/
  not_dropped : .dropped ∉ h
  /-- Its coordinator submitted nothing detached. -/
  not_detached : ∀ id c accepted, .submitted id ⟨.coordinator t, c⟩ true accepted ∉ h
  /-- It has not given its lease back. -/
  not_released : .released ∉ h
  /-- It has not shown so. -/
  not_shown : .state .released ∉ h
  /-- It saw no beginning fail. -/
  not_notBegun : ∀ id, .answered id .opens false ∉ h
  /-- It saw no commit succeed. -/
  not_committed : ∀ id, .answered id .commits true ∉ h

/-- A transaction that goes on by some marks, none of which ends it. -/
theorem Ongoing.append {t : Nat} {phase phase' : Transaction.Phase α} {h marks : List Mark}
    (o : Ongoing t phase h) (path : StatePath false (statesOf (h ++ marks)) phase'.state)
    (submitted : Submitted t phase' (requestsOf (h ++ marks)))
    (leased : phase.isLeased ∨ .leased ∈ marks ↔ phase'.isLeased)
    (begun : phase.hasBegun ∨ (∃ id, .answered id .opens true ∈ marks) ↔ phase'.hasBegun)
    (unitEnded : phase.hasWorked ∨ (∃ ok, .unitEnded ok ∈ marks) ↔ phase'.hasWorked)
    (goes_on : .dropped ∉ marks ∧ .released ∉ marks ∧ .state .released ∉ marks ∧
      (∀ id, .answered id .opens false ∉ marks) ∧ (∀ id, .answered id .commits true ∉ marks) ∧
      ∀ id c accepted, .submitted id ⟨.coordinator t, c⟩ true accepted ∉ marks) :
    Ongoing t phase' (h ++ marks) where
  path := path
  submitted := submitted
  leased := by rw [List.mem_append, o.leased, leased]
  begun := by simp only [List.mem_append, exists_or, o.begun, begun]
  unitEnded := by simp only [List.mem_append, exists_or, o.unitEnded, unitEnded]
  not_dropped := by rw [List.mem_append]; exact not_or.mpr ⟨o.not_dropped, goes_on.1⟩
  not_released := by rw [List.mem_append]; exact not_or.mpr ⟨o.not_released, goes_on.2.1⟩
  not_shown := by rw [List.mem_append]; exact not_or.mpr ⟨o.not_shown, goes_on.2.2.1⟩
  not_notBegun := by
    intro id
    rw [List.mem_append]
    exact not_or.mpr ⟨o.not_notBegun id, goes_on.2.2.2.1 id⟩
  not_committed := by
    intro id
    rw [List.mem_append]
    exact not_or.mpr ⟨o.not_committed id, goes_on.2.2.2.2.1 id⟩
  not_detached := by
    intro id c accepted
    rw [List.mem_append]
    exact not_or.mpr ⟨o.not_detached id c accepted, goes_on.2.2.2.2.2 id c accepted⟩

theorem Course.ongoing {t : Nat} {phase : Transaction.Phase α} {h : List Mark}
    (course : Course t phase h) (going : phase ≠ .finished) : Ongoing t phase h := by
  induction course with
  | idle => exact ⟨.idle, rfl, by simp [Transaction.Phase.isLeased],
      by simp, by simp, by simp, by simp, by simp, by simp, by simp, by simp⟩
  | start _ ih =>
      have o := ih nofun
      refine o.append ?_ ?_ (by simp [Transaction.Phase.isLeased]) (by simp) (by simp) (by simp)
      · rw [statesOf_append]
        exact o.path.go .acquire
      · rw [requestsOf_append, o.submitted]
        rfl
  | begin id accepted _ ih =>
      have o := ih nofun
      refine o.append ?_ ?_ (by simp [Transaction.Phase.isLeased]) (by simp) (by simp) (by simp)
      · rw [statesOf_append]
        exact (List.append_nil _).symm ▸ o.path
      · rw [requestsOf_append, o.submitted]
        rfl
  | run id _ ih =>
      have o := ih nofun
      refine o.append ?_ ?_ (by simp [Transaction.Phase.isLeased]) (by simp) (by simp) (by simp)
      · rw [statesOf_append]
        have path := (o.path.go .begin).go .run
        rwa [List.append_assoc] at path
      · rw [requestsOf_append, o.submitted]
        exact ⟨[], by simp, rfl⟩
  | work id c detached accepted _ ih =>
      have o := ih nofun
      refine o.append ?_ ?_ (by simp [Transaction.Phase.isLeased]) (by simp) (by simp) (by simp)
      · rw [statesOf_append]
        exact (List.append_nil _).symm ▸ o.path
      · obtain ⟨works, all, eq⟩ := o.submitted
        rw [requestsOf_append, eq]
        refine ⟨works ++ [⟨.work t, c⟩], ?_, rfl⟩
        intro r mem
        rcases List.mem_append.mp mem with mem | mem
        · exact all r mem
        · rw [List.mem_singleton.mp mem]
  | commit id a accepted _ ih =>
      have o := ih nofun
      refine o.append ?_ ?_ (by simp [Transaction.Phase.isLeased]) (by simp) (by simp) (by simp)
      · rw [statesOf_append]
        exact o.path.go .commit
      · obtain ⟨works, all, eq⟩ := o.submitted
        rw [requestsOf_append, eq]
        exact ⟨works, all, rfl⟩
  | rollBack id outcome accepted _ ih =>
      have o := ih nofun
      refine o.append ?_ ?_ (by simp [Transaction.Phase.isLeased]) (by simp) (by simp) (by simp)
      · rw [statesOf_append]
        exact o.path.go .rollBack
      · obtain ⟨works, all, eq⟩ := o.submitted
        rw [requestsOf_append, eq]
        exact ⟨works, _, all, rfl, .inl rfl⟩
  | notCommitted id id' outcome accepted _ ih =>
      have o := ih nofun
      refine o.append ?_ ?_ (by simp [Transaction.Phase.isLeased]) (by simp) (by simp) (by simp)
      · rw [statesOf_append]
        exact o.path.go .notCommitted
      · obtain ⟨works, all, eq⟩ := o.submitted
        rw [requestsOf_append, eq]
        refine ⟨works, _, all, ?_, .inr rfl⟩
        rw [List.cons_append, List.append_assoc]
        rfl
  | finished _ _ _ _ => exact absurd rfl going

/-! ## How a transaction ended -/

/-- A transaction that is over went on until it came to its ending. -/
theorem Course.ended {t : Nat} {phase : Transaction.Phase α} {h : List Mark}
    (course : Course t phase h) (finished : phase = .finished) :
    ∃ (last : Transaction.Phase α) (before tail : List Mark),
      Ongoing t last before ∧ Ending t last tail ∧ h = before ++ tail := by
  cases course with
  | @finished last before tail active course ending =>
      have going : last ≠ .finished := by
        rintro rfl
        cases active
      exact ⟨last, before, tail, course.ongoing going, ending, rfl⟩
  | _ => cases finished

namespace Course

variable {t : Nat} {phase : Transaction.Phase α} {h : List Mark}

/-- A course is ongoing or has come to its ending. -/
theorem cases_finished (course : Course t phase h) :
    (phase ≠ .finished ∧ Ongoing t phase h) ∨ (phase = .finished ∧
      ∃ (last : Transaction.Phase α) (before tail : List Mark),
        Ongoing t last before ∧ Ending t last tail ∧ h = before ++ tail) := by
  cases is : phase with
  | finished => exact .inr ⟨rfl, course.ended is⟩
  | idle | acquiring | beginning | running | committing _ | rollingBack _ =>
      exact .inl ⟨nofun, is ▸ course.ongoing (is ▸ nofun)⟩

/-- The states a transaction showed are a path, with a jump only if it was dropped. -/
theorem path (course : Course t phase h) :
    ∃ s, StatePath (decide (.dropped ∈ h)) (statesOf h) s := by
  rcases course.cases_finished with ⟨_, o⟩ | ⟨_, last, before, tail, o, ending, rfl⟩
  · rw [decide_eq_false o.not_dropped]
    exact ⟨_, o.path⟩
  · have dropped : decide (.dropped ∈ before ++ tail) = decide (.dropped ∈ tail) := by
      simp [o.not_dropped]
    rw [statesOf_append, dropped]
    cases ending with
    | notLeased =>
        refine ⟨.acquiringConnection, ?_⟩
        rw [List.filterMap_nil, List.append_nil]
        exact o.path
    | dropEarly =>
        refine ⟨.acquiringConnection, ?_⟩
        rw [show [Mark.dropped].filterMap Mark.state? = [] from rfl, List.append_nil]
        exact o.path.ofDropped
    | notBegun _ => exact ⟨_, o.path.go .notBegun⟩
    | committed _ _ => exact ⟨_, o.path.go .committed⟩
    | rolledBack _ _ _ => exact ⟨_, o.path.go .rolledBack⟩
    | drop _ accepted leased =>
        have showing : last.state ≠ .idle ∧ last.state ≠ .released := by
          cases last with
          | idle | acquiring | finished => cases leased
          | beginning | running | committing _ | rollingBack _ => exact ⟨nofun, nofun⟩
        exact ⟨_, o.path.ofDropped.go (.jump rfl showing.1 showing.2)⟩

/-- The lease was given back if and only if it was got and the transaction is over. -/
theorem released_iff (course : Course t phase h) :
    .released ∈ h ↔ .leased ∈ h ∧ phase = .finished := by
  rcases course.cases_finished with ⟨going, o⟩ | ⟨finished, last, before, tail, o, ending, rfl⟩
  · exact ⟨fun mem => absurd mem o.not_released, fun both => absurd both.2 going⟩
  · have leased : .leased ∈ before ↔ last.isLeased := o.leased
    have kept := o.not_released
    cases ending <;> simp_all [Transaction.Phase.isLeased]

/-- A transaction shows that it is released if and only if it gave its lease back. -/
theorem shown_iff (course : Course t phase h) : .state .released ∈ h ↔ .released ∈ h := by
  rcases course.cases_finished with ⟨_, o⟩ | ⟨_, last, before, tail, o, ending, rfl⟩
  · exact ⟨fun mem => absurd mem o.not_shown, fun mem => absurd mem o.not_released⟩
  · rw [List.mem_append, List.mem_append, or_iff_right o.not_shown,
      or_iff_right o.not_released]
    cases ending <;> simp

/-- Giving the lease back is the last thing a transaction does, and it shows that. -/
theorem released_last (course : Course t phase h) (released : .released ∈ h) :
    ∃ before, .released ∉ before ∧ .state .released ∉ before ∧
      h = before ++ [.released, .state .released] := by
  rcases course.cases_finished with ⟨_, o⟩ | ⟨_, last, before, tail, o, ending, rfl⟩
  · exact absurd released o.not_released
  · have split : ∃ marks, .released ∉ marks ∧ .state .released ∉ marks ∧
        tail = marks ++ [.released, .state .released] := by
      cases ending with
      | notLeased => simp [o.not_released] at released
      | dropEarly => simp [o.not_released] at released
      | notBegun _ => exact ⟨[_], by simp, by simp, rfl⟩
      | committed _ _ => exact ⟨[_], by simp, by simp, rfl⟩
      | rolledBack _ _ _ => exact ⟨[_], by simp, by simp, rfl⟩
      | drop _ _ _ => exact ⟨[_, _], by simp, by simp, rfl⟩
    obtain ⟨marks, not_released, not_shown, rfl⟩ := split
    refine ⟨before ++ marks, ?_, ?_, (List.append_assoc ..).symm⟩
    · exact fun mem => (List.mem_append.mp mem).elim o.not_released not_released
    · exact fun mem => (List.mem_append.mp mem).elim o.not_shown not_shown

/-- Neither the unit of work nor a terminal statement is the beginning. -/
theorem begin_notMem {works terms : List Request} (all : ∀ r ∈ works, r.author = .work t)
    (all' : ∀ r ∈ terms, r.author = .coordinator t ∧ r.control.isTerminal) :
    ⟨.coordinator t, .opens⟩ ∉ works ++ terms := by
  intro mem
  rcases List.mem_append.mp mem with mem | mem
  · cases all _ mem
  · cases (all' _ mem).2

theorem inOrder_of_submitted {l : List Request} (h : Submitted t phase l) : InOrder t l := by
  cases phase with
  | idle | acquiring | finished => exact .inl h
  | beginning => exact .inr ⟨[], [], by simp, by simp, h⟩
  | running =>
      obtain ⟨works, all, eq⟩ := h
      exact .inr ⟨works, [], all, by simp, by rw [eq, List.append_nil]⟩
  | committing _ =>
      obtain ⟨works, all, eq⟩ := h
      exact .inr ⟨works, _, all, by simp [Control.isTerminal], eq⟩
  | rollingBack _ =>
      obtain ⟨works, terms, all, eq, rfl | rfl⟩ := h
      · exact .inr ⟨works, _, all, by simp [Control.isTerminal], eq⟩
      · exact .inr ⟨works, _, all, by simp [Control.isTerminal], eq⟩

/-- What is submitted stays in order when a coordinator that submitted the beginning adds
a terminal statement. -/
theorem inOrder_append {l : List Request} (h : InOrder t l) (began : l ≠ []) {r : Request}
    (author : r.author = .coordinator t) (terminal : r.control.isTerminal) :
    InOrder t (l ++ [r]) := by
  rcases h with empty | ⟨works, terms, all, all', eq⟩
  · exact absurd empty began
  · refine .inr ⟨works, terms ++ [r], all, ?_, ?_⟩
    · intro r' mem
      rcases List.mem_append.mp mem with mem | mem
      · exact all' r' mem
      · rw [List.mem_singleton.mp mem]
        exact ⟨author, terminal⟩
    · rw [eq, List.cons_append, List.append_assoc]

theorem inOrder (course : Course t phase h) : InOrder t (requestsOf h) := by
  rcases course.cases_finished with ⟨_, o⟩ | ⟨_, last, before, tail, o, ending, rfl⟩
  · exact inOrder_of_submitted o.submitted
  · have before_inOrder := inOrder_of_submitted o.submitted
    rw [requestsOf_append]
    cases ending with
    | drop _ accepted leased =>
        refine inOrder_append before_inOrder ?_ rfl rfl
        have submitted := o.submitted
        intro empty
        rw [empty] at submitted
        cases last with
        | idle | acquiring | finished => cases leased
        | beginning => cases submitted
        | running => obtain ⟨_, _, eq⟩ := submitted; cases eq
        | committing _ => obtain ⟨_, _, eq⟩ := submitted; cases eq
        | rollingBack _ => obtain ⟨_, _, _, eq, _⟩ := submitted; cases eq
    | notLeased | dropEarly | notBegun _ | committed _ _ | rolledBack _ _ _ =>
        exact (List.append_nil _).symm ▸ before_inOrder

/-- The beginning is submitted once. -/
theorem begin_unique (course : Course t phase h) : ∃ m : Mark, ∀ m' ∈ h,
    m'.request? = some ⟨.coordinator t, .opens⟩ → m' = m := by
  rcases course.inOrder with empty | ⟨works, terms, all, all', eq⟩
  · refine ⟨.leased, fun m' mem begins => ?_⟩
    exact absurd begins (by simp [List.filterMap_eq_nil_iff.mp empty m' mem])
  · obtain ⟨before, m, after, rfl, none, _, rest⟩ := List.filterMap_eq_cons_iff.mp eq
    refine ⟨m, fun m' mem begins => ?_⟩
    rcases List.mem_append.mp mem with mem | mem
    · rw [none m' mem] at begins
      cases begins
    · rcases List.mem_cons.mp mem with eq | mem
      · exact eq
      · have later := List.mem_filterMap.mpr ⟨m', mem, begins⟩
        exact absurd (rest ▸ later) (begin_notMem all all')

/-- What submitted the beginning has got its lease. -/
theorem leased_of_begin (course : Course t phase h) {id : Nat} {detached accepted : Bool}
    (begins : .submitted id ⟨.coordinator t, .opens⟩ detached accepted ∈ h) : .leased ∈ h := by
  induction course with
  | idle => cases begins
  | begin _ _ _ _ => exact List.mem_append_right _ List.mem_cons_self
  | start _ ih | run _ _ ih | work _ _ _ _ _ ih | commit _ _ _ _ ih | rollBack _ _ _ _ ih
  | notCommitted _ _ _ _ _ ih => exact List.mem_append_left _ (ih (by simpa using begins))
  | finished _ _ ending ih =>
      refine List.mem_append_left _ (ih ?_)
      cases ending <;> simpa using begins

/-- After the beginning was seen to fail, or the commit to succeed, there is no rollback. -/
theorem no_rollback (course : Course t phase h)
    (seen : (∃ id, .answered id .opens false ∈ h) ∨ ∃ id, .answered id .commits true ∈ h) :
    ⟨.coordinator t, .rollsBack⟩ ∉ requestsOf h := by
  rcases course.cases_finished with ⟨_, o⟩ | ⟨_, last, before, tail, o, ending, rfl⟩
  · exact seen.elim (fun ⟨id, mem⟩ => absurd mem (o.not_notBegun id))
      fun ⟨id, mem⟩ => absurd mem (o.not_committed id)
  · have submitted := o.submitted
    have unseen := And.intro o.not_notBegun o.not_committed
    rw [requestsOf_append]
    cases ending with
    | notBegun _ =>
        rw [submitted]
        simp [requestsOf, Mark.request?]
    | committed _ _ =>
        obtain ⟨works, all, eq⟩ := submitted
        rw [eq]
        intro mem
        have is_work : ⟨.coordinator t, .rollsBack⟩ ∈ works := by
          simpa [requestsOf, Mark.request?] using mem
        cases all _ is_work
    | notLeased => simp [unseen] at seen
    | dropEarly => simp [unseen] at seen
    | rolledBack _ _ _ => simp [unseen] at seen
    | drop _ _ _ => simp [unseen] at seen

end Course

end ConnectionPool
