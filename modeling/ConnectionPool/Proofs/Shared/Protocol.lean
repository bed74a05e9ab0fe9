import ConnectionPool.Proofs.Shared.Replies

/-!
# The protocol of a transaction

`Shared.Protocol` is what a transaction on a shared connection keeps to, whatever its unit
of work does, whatever the statements come to, whenever it is dropped, and whatever the
others on the connection do meanwhile.  It speaks of what happened to the transaction and
what it did, in their order, and of the queue, but not of what its coordinator remembers.

`Shared.Reachable.keeps_protocol` puts it together: the history is a `Course`, in which what
an event calls for comes next (`Prompt`), the log has of it what was accepted, what a
transaction saw of its own statements (`Party.Asked`) is what became of them, and what it
waits for comes (`Attended`).
-/

namespace ConnectionPool

variable {α : Type}

/-! ## The protocol -/

/-- An initial part of what is in order is in order. -/
theorem InOrder.of_prefix {t : Nat} {l l' : List Request} (h : InOrder t l) (le : l' <+: l) :
    InOrder t l' := by
  rcases h with rfl | ⟨works, terms, all, all', rfl⟩
  · exact .inl (List.prefix_nil.mp le)
  · rcases List.prefix_cons_iff.mp le with rfl | ⟨rest, rfl, within⟩
    · exact .inl rfl
    · refine .inr ⟨works.take rest.length, terms.take (rest.length - works.length),
        fun r mem => all r (List.mem_of_mem_take mem),
        fun r mem => all' r (List.mem_of_mem_take mem), ?_⟩
      rw [← List.take_append, ← List.prefix_iff_eq_take.mp within]

/-- The beginning is there at most once. -/
theorem InOrder.count_begin_le {t : Nat} {l : List Request} (h : InOrder t l) :
    l.count ⟨.coordinator t, .opens⟩ ≤ 1 := by
  rcases h with rfl | ⟨works, terms, all, all', rfl⟩
  · exact Nat.zero_le _
  · have none := List.count_eq_zero.mpr (Course.begin_notMem all all')
    exact Nat.le_of_eq (by rw [List.count_cons_self, none])

namespace Shared

/-- What a transaction keeps to. -/
structure Protocol (s : Shared α) (t : Nat) : Prop where
  /-- The states it showed are a path, with a jump only if it was dropped. -/
  path : ∃ last, StatePath (decide (.dropped ∈ s.history t)) (statesOf (s.history t)) last
  /-- What happens to it is followed at once by what it calls for: the lease by the beginning,
  the end of its unit of work by the commit or the rollback, a commit that failed by the
  rollback, and what leaves nothing to do by the release. -/
  prompt : Prompt t (s.history t)
  /-- Dropped with its lease, it submits a rollback that nobody waits for, and is released. -/
  dropped_leased : .dropped ∈ s.history t → .leased ∈ s.history t →
    ∃ before id accepted, s.history t = before ++ [.dropped,
      .submitted id ⟨.coordinator t, .rollsBack⟩ true accepted, .released, .state .released]
  /-- It gives its lease back if it got one and was dropped, or saw the beginning fail, the
  commit succeed, or the rollback succeed or fail; and not before. -/
  released_iff : .released ∈ s.history t ↔ .leased ∈ s.history t ∧
    (.dropped ∈ s.history t ∨ ∃ m ∈ s.history t, m.isLast)
  /-- It shows that it is released if and only if its lease was given back. -/
  shown_iff : .state .released ∈ s.history t ↔ .released ∈ s.history t
  /-- To give the lease back, once, and to show it, once, is the last that it does. -/
  released_last : .released ∈ s.history t → ∃ before, .released ∉ before ∧
    .state .released ∉ before ∧ s.history t = before ++ [.released, .state .released]
  /-- With its lease, its unit of work runs, or it waits for a statement that it submitted and
  that is replied to or will be. -/
  waits : .leased ∈ s.history t → .released ∉ s.history t →
    ((∃ id, .answered id .opens true ∈ s.history t) ∧ ∀ ok, .unitEnded ok ∉ s.history t) ∨
      ∃ id c accepted, (s.party t).awaiting = some (id, c) ∧
        .submitted id ⟨.coordinator t, c⟩ false accepted ∈ s.history t ∧
        s.Attends id ⟨.coordinator t, c⟩
  /-- From there a run leads to its release, in which it is not dropped. -/
  canRelease : .leased ∈ s.history t → .released ∉ s.history t → s.CanRelease t
  /-- Its coordinator submits the beginning at most once. -/
  begins_once : (requestsOf (s.history t)).count ⟨.coordinator t, .opens⟩ ≤ 1
  /-- It submits the beginning, then what its unit of work does, then how it ends. -/
  submitted_inOrder : InOrder t (requestsOf (s.history t))
  /-- So it is on the connection's queue. -/
  queued_inOrder : InOrder t ((s.logOf t).map (·.work))
  /-- The queue takes operations in the order in which it got them. -/
  taken : List.Sublist ((s.started ++ s.queue.pending).map WorkItem.id) (s.log.map WorkItem.id)
  /-- If the beginning succeeded, how it ends is submitted as well, as soon as its unit of work
  ended or it was dropped, unless the connection was closed. -/
  terminal : (∃ ok, .unitEnded ok ∈ s.history t) ∨ .dropped ∈ s.history t ∨
      .released ∈ s.history t →
    ∀ i ∈ s.log, i.work = ⟨.coordinator t, .opens⟩ → (i.id, true) ∈ s.replies →
      s.queue.refuses ∨ ∃ j ∈ s.log, j.work.author = .coordinator t ∧ j.work.control.isTerminal
  /-- There is no rollback after a beginning that it saw fail or a commit that it saw
  succeed. -/
  no_rollback : (∃ id, .answered id .opens false ∈ s.history t) ∨
      (∃ id, .answered id .commits true ∈ s.history t) →
    ⟨.coordinator t, .rollsBack⟩ ∉ requestsOf (s.history t)

section Protocol

variable {s : Shared α} {t : Nat}

/-- A transaction that submitted its beginning, and did not see it fail, submitted how it ends
once its unit of work ended, it was dropped, or it was released. -/
theorem Reachable.terminal (h : Reachable s) (leased : .leased ∈ s.history t)
    (closing : (∃ ok, .unitEnded ok ∈ s.history t) ∨ .dropped ∈ s.history t ∨
      .released ∈ s.history t) (unfailed : ∀ id, .answered id .opens false ∉ s.history t) :
    ∃ r ∈ requestsOf (s.history t), r.author = .coordinator t ∧ r.control.isTerminal := by
  have course : Course t (s.phase t) (s.history t) := (h.onCourse t).course
  have of_dropped (dropped : .dropped ∈ s.history t) :
      ∃ r ∈ requestsOf (s.history t), r.author = .coordinator t ∧ r.control.isTerminal := by
    obtain ⟨before, id, accepted, eq⟩ := course.dropped_leased dropped leased
    exact ⟨⟨.coordinator t, .rollsBack⟩, by simp [eq, requestsOf, Mark.request?], rfl, rfl⟩
  rcases closing with ⟨ok, ended⟩ | dropped | released
  · exact course.prompt.terminal ended
  · exact of_dropped dropped
  · rcases (course.released_iff_last.mp released).2 with dropped | ⟨m, happened, last⟩
    · exact of_dropped dropped
    · -- what it saw the reply to, it submitted
      cases m with
      | answered id c ok =>
          obtain ⟨accepted, asked⟩ := (h.asked t).seen id c ok happened
          refine ⟨⟨.coordinator t, c⟩, List.mem_filterMap.mpr ⟨_, asked, rfl⟩, rfl, ?_⟩
          cases c with
          | commits | rollsBack => rfl
          | opens =>
              cases ok with
              | true => cases last
              | false => exact absurd happened (unfailed id)
          | keeps | unknown => cases last
      | state _ | leased | submitted _ _ _ _ | unitEnded _ | released | dropped => cases last

/-- With its lease, the unit of work of a transaction runs or its coordinator waits. -/
theorem Reachable.runs_or_waits (h : Reachable s) (leased : (s.phase t).isLeased) :
    s.phase t = .running ∨ ∃ id c accepted, (s.party t).awaiting = some (id, c) ∧
      .submitted id ⟨.coordinator t, c⟩ false accepted ∈ s.history t ∧
      s.Attends id ⟨.coordinator t, c⟩ := by
  have waiting {c : Control} (of_phase : (s.phase t).awaits = some c) :
      ∃ id c accepted, (s.party t).awaiting = some (id, c) ∧
        .submitted id ⟨.coordinator t, c⟩ false accepted ∈ s.history t ∧
        s.Attends id ⟨.coordinator t, c⟩ := by
    obtain ⟨⟨id, c'⟩, awaits, _⟩ :=
      Option.map_eq_some_iff.mp ((h.onCourse t).awaits.trans of_phase)
    obtain ⟨accepted, asked⟩ := (h.asked t).awaited id c' awaits
    exact ⟨id, c', accepted, awaits, asked, h.attended.attends t id c' awaits⟩
  cases phase : s.phase t with
  | running => exact .inl rfl
  | beginning | committing _ | rollingBack _ => exact .inr (waiting (by rw [phase]; rfl))
  | idle | acquiring | finished =>
      rw [phase] at leased
      cases leased

end Protocol

/-- Every transaction on a shared connection keeps to the protocol. -/
theorem Reachable.keeps_protocol {s : Shared α} (h : Reachable s) (t : Nat) : Protocol s t := by
  have course : Course t (s.phase t) (s.history t) := (h.onCourse t).course
  have logged := h.logged
  have holding (leased : .leased ∈ s.history t) (held : .released ∉ s.history t) :
      (s.phase t).isLeased := by
    rcases course.cases_finished with ⟨_, o⟩ | ⟨finished, _⟩
    · exact o.leased.mp leased
    · exact absurd (course.released_iff.mpr ⟨leased, finished⟩) held
  exact {
    path := course.path
    prompt := course.prompt
    dropped_leased := course.dropped_leased
    released_iff := course.released_iff_last
    shown_iff := course.shown_iff
    released_last := course.released_last
    waits := fun leased held =>
      (h.runs_or_waits (holding leased held)).imp_left fun running => course.running running
    canRelease := by
      intro leased held
      refine h.canRelease (holding leased held) fun dropped => held ?_
      exact course.released_iff_last.mpr ⟨leased, .inl dropped⟩
    begins_once := course.inOrder.count_begin_le
    submitted_inOrder := course.inOrder
    queued_inOrder := course.inOrder.of_prefix (logged.accepted_prefix t)
    taken := logged.taken
    terminal := by
      intro closing i mem begins succeeded
      have submitted := logged.submitted (t := t) mem (by rw [begins]; rfl)
      rw [begins] at submitted
      obtain ⟨r, mem, author, terminal⟩ :=
        h.terminal (course.leased_of_begin submitted) closing
          (h.beginning_seen mem begins succeeded)
      refine (logged.of_submitted mem).imp id ?_
      rintro ⟨j, in_log, rfl⟩
      exact ⟨j, in_log, author, terminal⟩
    no_rollback := course.no_rollback }

/-- A transaction that has committed. -/
def committed : Shared Unit :=
  (((begun.note 0 (.unitEnded true)).conduct 0 (.unitDone (.value ()))).turn.complete
    ⟨1, ⟨.coordinator 0, .commits⟩, false, false⟩ true none).answer 0 1 .commits true .cancelled

theorem committed_reachable : Reachable committed := by
  refine begun_reachable.steps ?_
  have asked := Steps.refl.tail (.unitDone (s := begun) 0 (.value ()) rfl)
  have taken := asked.tail .turn
  have closed := taken.tail
    (.complete ⟨1, ⟨.coordinator 0, .commits⟩, false, false⟩ true none rfl rfl)
  exact closed.tail (.answer 0 1 .commits true .cancelled rfl (.tail _ (.head _)))

theorem keeps_protocol_committed :
    Reachable committed ∧ .released ∈ committed.history 0 ∧ Protocol committed 0 :=
  ⟨committed_reachable, by decide, committed_reachable.keeps_protocol 0⟩

end Shared

end ConnectionPool
