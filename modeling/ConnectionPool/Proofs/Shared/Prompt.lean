import ConnectionPool.Proofs.Shared.Course

/-!
# What a transaction does next

Things happen to a transaction: it gets its lease, its unit of work ends, a statement it
waits for succeeds or fails, it is dropped.  `Mark.callsFor` says what it is to do then,
without a look at its coordinator, and a history is `Prompt` if that always comes next.
Every course is (`Course.prompt`): a unit of work that fails, or a commit that does, is
followed by a rollback, and that by the release, whatever came of it.
-/

namespace ConnectionPool

/-- What a transaction is to do at once when something happened to it.  What it submits then
has some number, and is accepted or refused. -/
def Mark.callsFor (t id : Nat) (accepted : Bool) : Mark → List Mark
  | .leased => [.submitted id ⟨.coordinator t, .opens⟩ false accepted]
  | .answered _ .opens true => [.state .began, .state .running]
  | .unitEnded true => [.state .committing, .submitted id ⟨.coordinator t, .commits⟩ false accepted]
  | .unitEnded false | .answered _ .commits false =>
    [.state .rollingBack, .submitted id ⟨.coordinator t, .rollsBack⟩ false accepted]
  | .answered _ .opens false | .answered _ .commits true | .answered _ .rollsBack _ =>
    [.released, .state .released]
  | .answered _ .keeps _ | .answered _ .unknown _ => []
  -- to be dropped calls for something only if there is a lease
  | .state _ | .submitted _ _ _ _ | .released | .dropped => []

/-- There is nothing left to do but to give the lease back. -/
def Mark.isLast : Mark → Bool
  | .answered _ .opens ok => !ok
  | .answered _ .commits ok => ok
  | .answered _ .rollsBack _ => true
  | _ => false

/-- What each event calls for comes next. -/
def Prompt (t : Nat) : List Mark → Prop
  | [] => True
  | m :: rest => (∃ id accepted, m.callsFor t id accepted <+: rest) ∧ Prompt t rest

theorem Mark.callsFor_of_isLast {t id : Nat} {accepted : Bool} {m : Mark} (last : m.isLast) :
    m.callsFor t id accepted = [.released, .state .released] := by
  cases m with
  | answered id c ok =>
      cases c with
      | opens | commits => cases ok <;> first | rfl | cases last
      | rollsBack => rfl
      | keeps | unknown => cases last
  | state _ | leased | submitted _ _ _ _ | unitEnded _ | released | dropped => cases last

namespace Prompt

variable {t : Nat} {h h' : List Mark}

theorem append (p : Prompt t h) (p' : Prompt t h') : Prompt t (h ++ h') := by
  induction h with
  | nil => exact p'
  | cons m rest ih =>
      obtain ⟨⟨id, accepted, next⟩, later⟩ := p
      exact ⟨⟨id, accepted, next.trans (List.prefix_append _ _)⟩, ih later⟩

/-- What an event in a prompt history calls for is in the history. -/
theorem mem (p : Prompt t h) {m : Mark} (happened : m ∈ h) :
    ∃ id accepted, ∀ m' ∈ m.callsFor t id accepted, m' ∈ h := by
  induction h with
  | nil => cases happened
  | cons first rest ih =>
      rcases List.mem_cons.mp happened with rfl | later
      · obtain ⟨id, accepted, next⟩ := p.1
        exact ⟨id, accepted, fun m' called => List.mem_cons_of_mem _ (next.subset called)⟩
      · obtain ⟨id, accepted, all⟩ := ih p.2 later
        exact ⟨id, accepted, fun m' called => List.mem_cons_of_mem _ (all m' called)⟩

/-- Once the unit of work ended, how the transaction is to end is submitted. -/
theorem terminal (p : Prompt t h) {ok : Bool} (ended : .unitEnded ok ∈ h) :
    ∃ r ∈ requestsOf h, r.author = .coordinator t ∧ r.control.isTerminal := by
  obtain ⟨id, accepted, all⟩ := p.mem ended
  cases ok with
  | true =>
      have submitted := all _ (List.mem_cons_of_mem _ List.mem_cons_self)
      exact ⟨⟨.coordinator t, .commits⟩, List.mem_filterMap.mpr ⟨_, submitted, rfl⟩, rfl, rfl⟩
  | false =>
      have submitted := all _ (List.mem_cons_of_mem _ List.mem_cons_self)
      exact ⟨⟨.coordinator t, .rollsBack⟩, List.mem_filterMap.mpr ⟨_, submitted, rfl⟩, rfl, rfl⟩

end Prompt

namespace Course

variable {α : Type} {t : Nat} {phase : Transaction.Phase α} {h : List Mark}

/-- A transaction does at once what is called for. -/
theorem prompt (course : Course t phase h) : Prompt t h := by
  induction course with
  | idle => trivial
  | start _ ih => exact ih.append (by simp [Prompt, Mark.callsFor])
  | begin id accepted _ ih =>
      exact ih.append ⟨⟨id, accepted, List.prefix_rfl⟩, by simp [Prompt, Mark.callsFor]⟩
  | run id _ ih =>
      exact ih.append ⟨⟨id, true, List.prefix_rfl⟩, by simp [Prompt, Mark.callsFor]⟩
  | work _ _ _ _ _ ih => exact ih.append (by simp [Prompt, Mark.callsFor])
  | commit id _ accepted _ ih | rollBack id _ accepted _ ih =>
      exact ih.append ⟨⟨id, accepted, List.prefix_rfl⟩, by simp [Prompt, Mark.callsFor]⟩
  | notCommitted _ id _ accepted _ ih =>
      exact ih.append ⟨⟨id, accepted, List.prefix_rfl⟩, by simp [Prompt, Mark.callsFor]⟩
  | finished _ _ ending ih =>
      refine ih.append ?_
      cases ending with
      | notLeased => trivial
      | dropEarly | drop _ _ _ => simp [Prompt, Mark.callsFor]
      | notBegun id | committed id _ | rolledBack id _ _ =>
          exact ⟨⟨id, true, List.prefix_rfl⟩, by simp [Prompt, Mark.callsFor]⟩

/-- Dropped with its lease, a transaction leaves a rollback behind that nobody waits for, gives
the lease back and shows that. -/
theorem dropped_leased (course : Course t phase h) (dropped : .dropped ∈ h) (leased : .leased ∈ h) :
    ∃ before id accepted, h = before ++ [.dropped,
      .submitted id ⟨.coordinator t, .rollsBack⟩ true accepted, .released, .state .released] := by
  rcases course.cases_finished with ⟨_, o⟩ | ⟨_, last, before, tail, o, ending, rfl⟩
  · exact absurd dropped o.not_dropped
  · cases ending with
    | drop id accepted _ => exact ⟨before, id, accepted, rfl⟩
    | dropEarly =>
        have early : .leased ∈ before := by simpa using leased
        cases o.leased.mp early
    | notLeased | notBegun _ | committed _ _ | rolledBack _ _ _ => simp [o.not_dropped] at dropped

/-- A transaction gives its lease back if it was dropped with it, or nothing else is left to do,
and not before. -/
theorem released_iff_last (course : Course t phase h) : .released ∈ h ↔
    .leased ∈ h ∧ (.dropped ∈ h ∨ ∃ m ∈ h, m.isLast) := by
  constructor
  · intro released
    refine ⟨(course.released_iff.mp released).1, ?_⟩
    obtain ⟨last, before, tail, o, ending, rfl⟩ := course.ended (course.released_iff.mp released).2
    have not_released := o.not_released
    cases ending with
    | notLeased | dropEarly => simp [not_released] at released
    | drop _ _ _ => exact .inl (by simp)
    | notBegun id => exact .inr ⟨.answered id .opens false, by simp, rfl⟩
    | committed id _ => exact .inr ⟨.answered id .commits true, by simp, rfl⟩
    | rolledBack id _ ok => exact .inr ⟨.answered id .rollsBack ok, by simp, rfl⟩
  · rintro ⟨leased, dropped | ⟨m, happened, last⟩⟩
    · obtain ⟨before, id, accepted, rfl⟩ := course.dropped_leased dropped leased
      simp
    · obtain ⟨id, accepted, all⟩ := course.prompt.mem happened
      rw [Mark.callsFor_of_isLast last] at all
      exact all _ List.mem_cons_self

/-- Between its beginning and its end the unit of work runs. -/
theorem running (course : Course t phase h) (running : phase = .running) :
    (∃ id, .answered id .opens true ∈ h) ∧ ∀ ok, .unitEnded ok ∉ h := by
  have o := course.ongoing (running ▸ nofun)
  rw [running] at o
  exact ⟨o.begun.mpr rfl, fun ok ended => by cases o.unitEnded.mp ⟨ok, ended⟩⟩

end Course

end ConnectionPool
