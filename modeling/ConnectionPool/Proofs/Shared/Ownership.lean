import ConnectionPool.Proofs.Shared.Protocol
import ConnectionPool.Proofs.Shared.Undoing

/-!
# Whose transaction a dropped one rolls back

`Shared.Clean` is what a transaction needs, when it is dropped, to roll back no other: the
open transaction is its own, and nothing that is still to be served may end that.  It is
enough, whatever the others do (`Fate.steps`).  Otherwise it is not: another transaction
that has submitted its beginning, and outcomes that the engine may well choose, lead to a
state in which that one is rolled back instead (`Clean.of_endsOwn`).
-/

namespace ConnectionPool

/-- Each operation may end so that the open transaction is ended if it can be. -/
theorem Control.allows_worst (c : Control) (a : Author) (before : Option Author) :
    c.allows a before (if c.mayEnd then none else before) (c.mayEnd && before.isSome) := by
  cases c with
  | opens | keeps => exact beq_self_eq_true before
  | commits | rollsBack => cases before <;> rfl
  | unknown => exact Bool.or_eq_true_iff.mpr (.inl (Bool.or_true _))

namespace Shared

variable {α : Type} {s : Shared α} {t u : Nat}

/-! ## Dropping and joining -/

/-- The open transaction is that of a transaction, and it will be until all that is in the
queue was served. -/
structure Clean (s : Shared α) (t : Nat) : Prop where
  /-- It is open. -/
  held : s.HeldBy t
  /-- The operation in flight does not end it. -/
  current : ∀ i ∈ s.queue.current, i.work.control.mayEnd = false
  /-- Nor does one that waits, and would not be skipped if the transaction were dropped. -/
  pending : ∀ i ∈ (s.leftQueue t).pending, i.isGivenUp ∨ i.work.control.mayEnd = false

/-- The rollback that a transaction leaves behind. -/
def leftBehind (s : Shared α) (t : Nat) : WorkItem Request :=
  { id := s.fresh, work := ⟨.coordinator t, .rollsBack⟩, detached := true }

/-- The beginning that a transaction submits. -/
def beginning (s : Shared α) (t : Nat) : WorkItem Request :=
  { id := s.fresh, work := ⟨.coordinator t, .opens⟩ }

/-- A transaction is started, gets its lease at once and submits the beginning. -/
def join (s : Shared α) (t : Nat) : Shared α :=
  ((s.conduct t .start).note t .leased).conduct t .leased

theorem undoes_leftBehind (s : Shared α) (t : Nat) : (s.leftBehind t).undoes t := by
  rw [WorkItem.undoes, leftBehind]
  exact beq_self_eq_true _

theorem conduct_eq {e : Transaction.Event α} {coordinator : Transaction α}
    {actions : List (Transaction.Action α)}
    (step : (s.party t).coordinator.step e = (coordinator, actions)) :
    s.conduct t e = actions.foldl (perform t) (s.modify t fun p => { p with coordinator }) := by
  rw [conduct, step]

theorem Adds.submitFor_accepted (accepts : s.queue.refuses = false) (t : Nat) (r : Request)
    (detached : Bool) : Adds s (s.submitFor t r detached) [⟨s.fresh, r, detached, false⟩] := by
  have added : Adds s (s.enqueue r detached) [⟨s.fresh, r, detached, false⟩] := by
    rw [Logged.enqueue_accepted accepts]
    exact ⟨rfl, rfl, rfl⟩
  exact added.trans (.note _ t _)

/-- A transaction that is dropped with its lease leaves the operation it waits for, and a
rollback behind all others. -/
theorem drop_adds (leased : (s.phase t).isLeased)
    (owes : (s.party t).coordinator.owesRollback = true) (accepts : s.queue.refuses = false) :
    Adds { s with queue := s.leftQueue t } (s.drop t) [s.leftBehind t] := by
  let free : Shared α := ({ s with queue := s.leftQueue t }.modify t fun p =>
    { p with awaiting := none }).note t .dropped
  let finished : Transaction α :=
    { (s.party t).coordinator with phase := .finished, owesRollback := false }
  have step : (free.party t).coordinator.step .dropped = (finished,
      [.noteDropped (s.phase t).state, .detach Transaction.rollbackStatement, .release,
        .trace (s.phase t).state .released]) := by
    have same : (free.party t).coordinator = (s.party t).coordinator := by simp [free, note]
    rw [same, Transaction.step_dropped leased, owes]
    rfl
  have before : Adds { s with queue := s.leftQueue t }
      (free.modify t fun p => { p with coordinator := finished }) [] :=
    ((Adds.modify _ t _).trans (.note _ t .dropped)).trans (.modify free t _)
  have submitted := before.trans (.submitFor_accepted (refuses_leftQueue.trans accepts) t
    ⟨.coordinator t, Control.ofStatement Transaction.rollbackStatement⟩ true)
  rw [Control.ofStatement_rollback] at submitted
  have all := submitted.trans
    ((Adds.note _ t .released).trans (.note _ t (.state .released)))
  rw [drop, conduct_eq (s := free) step]
  exact all

theorem phase_start (idle : s.phase t = .idle) : (s.conduct t .start).phase t = .acquiring := by
  rw [conduct_eq (Transaction.step_start idle)]
  simp [phase, perform, note]

theorem start_adds (idle : s.phase t = .idle) : Adds s (s.conduct t .start) [] := by
  have all := (Adds.modify s t fun p =>
    { p with coordinator := { (s.party t).coordinator with phase := .acquiring } }).trans
      (.note _ t (.state .acquiringConnection))
  rw [conduct_eq (Transaction.step_start idle)]
  exact all

theorem fresh_start (idle : s.phase t = .idle) : (s.conduct t .start).fresh = s.fresh := by
  rw [conduct_eq (Transaction.step_start idle)]
  rfl

theorem leased_adds (acquiring : s.phase t = .acquiring) (accepts : s.queue.refuses = false) :
    Adds s (s.conduct t .leased) [s.beginning t] := by
  let begins : Transaction α :=
    { (s.party t).coordinator with phase := .beginning, owesRollback := true }
  let going : Shared α := s.modify t fun p => { p with coordinator := begins }
  have submitted := (Adds.modify s t fun p => { p with coordinator := begins }).trans
    (.submitFor_accepted (s := going) accepts t
      ⟨.coordinator t, Control.ofStatement begins.mode.beginStatement⟩ false)
  have all := submitted.trans (.modify _ t fun p =>
    { p with awaiting := some (s.fresh, Control.ofStatement begins.mode.beginStatement) })
  rw [conduct_eq (Transaction.step_leased acquiring), beginning,
    ← Control.ofStatement_begin begins.mode]
  exact all

/-- A transaction that joins submits its beginning behind all other operations. -/
theorem join_adds (idle : s.phase t = .idle) (accepts : s.queue.refuses = false) :
    Adds s (s.join t) [s.beginning t] := by
  have asked := start_adds idle
  have leased := leased_adds (s := (s.conduct t .start).note t .leased) (t := t)
    (by rw [phase_eq, note, party_modify_same]; exact phase_start idle)
    (by rw [note, queue_modify, asked.queue]; exact accepts)
  have eq : ((s.conduct t .start).note t .leased).beginning t = s.beginning t := by
    rw [beginning, beginning, note, fresh_modify, fresh_start idle]
  rw [eq] at leased
  exact (asked.trans (.note _ t .leased)).trans leased

theorem join_steps (idle : s.phase t = .idle) : Steps s (s.join t) :=
  (Steps.refl.tail (.start t idle)).tail (.leased t (phase_start idle))

theorem party_join_ne (ne : t ≠ u) : (s.join u).party t = s.party t := by
  rw [join, party_conduct_ne ne, note, party_modify_ne _ ne, party_conduct_ne ne]

/-- What a transaction waits for is in the log, while work is accepted. -/
theorem Reachable.awaited_mem (h : Reachable s) (accepts : s.queue.refuses = false) {id : Nat}
    {c : Control} (awaits : (s.party t).awaiting = some (id, c)) :
    (⟨id, ⟨.coordinator t, c⟩, false, false⟩ : WorkItem Request) ∈ s.log := by
  obtain ⟨accepted, asked⟩ := (h.asked t).awaited id c awaits
  cases accepted with
  | true =>
      have in_log : (⟨id, ⟨.coordinator t, c⟩, false, false⟩ : WorkItem Request) ∈ s.logOf t := by
        rw [h.logged.logged]
        exact List.mem_filterMap.mpr ⟨_, asked, rfl⟩
      exact (List.mem_filter.mp in_log).1
  | false =>
      rw [h.logged.refused t _ _ _ asked] at accepts
      cases accepts

/-- It has a number that was given out. -/
theorem Reachable.awaited_lt (h : Reachable s) (accepts : s.queue.refuses = false) {id : Nat}
    {c : Control} (awaits : (s.party t).awaiting = some (id, c)) : id < s.fresh :=
  h.logged.id_lt _ (h.awaited_mem accepts awaits)

/-! ## Serving the queue -/

section Serving

variable {i : WorkItem Request} {rest : List (WorkItem Request)}

/-- The next operation is served, with any outcome that is allowed. -/
theorem serve (ok : Bool) (after : Option Author) (idle : s.queue.current = none)
    (accepts : s.queue.refuses = false) (pending : s.queue.pending = i :: rest)
    (not_givenUp : i.isGivenUp = false)
    (allowed : i.work.control.allows i.work.author s.holder after ok) :
    ∃ s', Steps s s' ∧ s'.queue = { s.queue with pending := rest, current := none } ∧
      s'.holder = after ∧ s'.ends = s.ends ++ ended s.holder after i := by
  have taken := turn_start idle accepts pending not_givenUp
  refine ⟨s.turn.complete i ok after, ?_, ?_, rfl, ?_⟩
  · refine (Steps.refl.tail .turn).tail (.complete i ok after ?_ ?_)
    · rw [taken]
    · rw [taken]
      exact allowed
  · rw [taken]
    rfl
  · rw [taken]
    rfl

/-- The operation in flight ends, and the open transaction with it if that can be. -/
theorem settle (s : Shared α) : ∃ s', Steps s s' ∧ s'.queue = { s.queue with current := none } ∧
    (s'.holder = none ∨
      s'.holder = s.holder ∧ ∀ i ∈ s.queue.current, i.work.control.mayEnd = false) := by
  cases current : s.queue.current with
  | none => exact ⟨s, .refl, by rw [← current], .inr ⟨rfl, nofun⟩⟩
  | some i =>
      refine ⟨_, Steps.refl.tail (.complete i _ _ current
        (Control.allows_worst i.work.control i.work.author s.holder)), rfl, ?_⟩
      cases ends : i.work.control.mayEnd with
      | true => exact .inl rfl
      | false =>
          refine .inr ⟨rfl, ?_⟩
          rintro _ ⟨⟩
          exact ends

/-- The next operation is skipped or served, and the open transaction is ended if that can
be. -/
theorem pass (idle : s.queue.current = none) (accepts : s.queue.refuses = false)
    (pending : s.queue.pending = i :: rest) :
    ∃ s', Steps s s' ∧ s'.queue = { s.queue with pending := rest, current := none } ∧
      (s'.holder = none ∨
        s'.holder = s.holder ∧ (i.isGivenUp ∨ i.work.control.mayEnd = false)) := by
  cases givenUp : i.isGivenUp with
  | true =>
      have skipped := turn_skip idle accepts pending givenUp
      refine ⟨s.turn, Steps.refl.tail .turn, by rw [skipped], ?_⟩
      rw [skipped]
      exact .inr ⟨rfl, .inl rfl⟩
  | false =>
      obtain ⟨s', steps, queue, holder, _⟩ := serve _ _ idle accepts pending givenUp
        (Control.allows_worst i.work.control i.work.author s.holder)
      refine ⟨s', steps, queue, ?_⟩
      rw [holder]
      cases i.work.control.mayEnd with
      | true => exact .inl rfl
      | false => exact .inr ⟨rfl, .inr rfl⟩

/-- So are all operations ahead in the queue. -/
theorem drain (l : List (WorkItem Request)) {s : Shared α} (idle : s.queue.current = none)
    (accepts : s.queue.refuses = false) (pending : s.queue.pending = l ++ rest) :
    ∃ s', Steps s s' ∧ s'.queue = { s.queue with pending := rest, current := none } ∧
      (s'.holder = none ∨
        s'.holder = s.holder ∧ ∀ i ∈ l, i.isGivenUp ∨ i.work.control.mayEnd = false) := by
  induction l generalizing s with
  | nil => exact ⟨s, .refl, by rw [← idle, ← List.nil_append rest, ← pending], .inr ⟨rfl, nofun⟩⟩
  | cons i l ih =>
      obtain ⟨s₁, steps, queue, holder⟩ := pass idle accepts pending
      obtain ⟨s₂, steps', queue', holder'⟩ :=
        ih (s := s₁) (by rw [queue]) (by rw [queue]; exact accepts) (by rw [queue]; rfl)
      refine ⟨s₂, steps.trans steps', by rw [queue', queue], ?_⟩
      rcases holder' with none | ⟨same, harmless⟩
      · exact .inl none
      · rw [same]
        refine holder.imp_right fun ⟨same', harmless'⟩ => ⟨same', fun j mem => ?_⟩
        rcases List.mem_cons.mp mem with rfl | mem
        · exact harmless'
        · exact harmless j mem

end Serving

/-! ## The drop -/

/-- A transaction owes a rollback as long as it has its lease. -/
theorem Reachable.owes (h : Reachable s) (leased : (s.phase t).isLeased) :
    (s.party t).coordinator.owesRollback = true := (h.onCourse t).owes.trans leased

/-- A clean transaction that is dropped rolls back none but itself. -/
theorem Clean.endsOwn (clean : s.Clean t) (h : Reachable s) (leased : (s.phase t).isLeased)
    (accepts : s.queue.refuses = false) {s' : Shared α} (steps : Steps (s.drop t) s') :
    s'.EndsOwn t := by
  have active := Transaction.Phase.isActive_of_isLeased leased
  have none_before := h.none_undoes (t := t) fun finished => by
    rw [finished] at leased
    cases leased
  have dropped := drop_adds leased (h.owes leased) accepts
  obtain ⟨mark, marks, pending, current⟩ := leftQueue_marked s t
  have fate : Fate t (s.drop t) := by
    refine .waits ?_ ?_ ?_
    · obtain ⟨a, holder, own⟩ := clean.held
      exact ⟨a, dropped.holder.trans holder, own⟩
    · intro i mem
      rw [dropped.queue] at mem
      obtain ⟨j, is, rfl⟩ := Option.map_eq_some_iff.mp (current ▸ mem)
      rw [(marks j).undoes, (marks j).work]
      exact ⟨none_before j (by simp [handled, queued, is]), clean.current j is⟩
    · rw [dropped.queue]
      refine Shielded.concat (s.undoes_leftBehind t) fun i mem => ⟨?_, clean.pending i mem⟩
      rw [pending] at mem
      obtain ⟨j, is, rfl⟩ := List.mem_map.mp mem
      exact (marks j).undoes.trans (none_before j (by simp [handled, queued, is]))
  have finished : (s.drop t).phase t = .finished := by
    rw [phase_eq, party_drop_owing leased (h.owes leased)]
    rfl
  refine fate.steps (h.steps (Steps.refl.tail (.drop t active))) ?_ finished steps
  intro e mem undoes
  rw [dropped.ends] at mem
  have not_undoes := none_before e.2 (List.mem_append_right _ (List.mem_map_of_mem mem))
  rw [undoes] at not_undoes
  cases not_undoes

/-- What joins is not left by a transaction that is dropped. -/
theorem leftQueue_join (h : Reachable s) (ne : t ≠ u) (idle : s.phase u = .idle)
    (accepts : s.queue.refuses = false) : (s.join u).leftQueue t =
      { s.leftQueue t with pending := (s.leftQueue t).pending ++ [s.beginning u] } := by
  rw [leftQueue, leftQueue, party_join_ne ne, (join_adds idle accepts).queue]
  cases awaits : (s.party t).awaiting with
  | none => rfl
  | some awaited =>
      obtain ⟨id, c⟩ := awaited
      have other : s.fresh ≠ id := Nat.ne_of_gt (h.awaited_lt accepts awaits)
      have unmarked : WorkQueue.markAbandoned id (s.beginning u) = s.beginning u := if_neg other
      show ({ s.queue with pending := s.queue.pending ++ [s.beginning u] } :
        WorkQueue Request).leave id = _
      rw [WorkQueue.leave, List.map_append, List.map_singleton, unmarked]
      rfl

/-- To be clean, it is enough that what is left in the queue ends nothing. -/
theorem Clean.of_leftQueue (held : s.HeldBy t)
    (current : ∀ i ∈ (s.leftQueue t).current, i.work.control.mayEnd = false)
    (pending : ∀ i ∈ (s.leftQueue t).pending, i.isGivenUp ∨ i.work.control.mayEnd = false) :
    s.Clean t where
  held := held
  current := by
    obtain ⟨mark, marks, _, eq⟩ := leftQueue_marked s t
    intro i is
    rw [← (marks i).work]
    exact current (mark i) (by rw [eq, is]; rfl)
  pending := pending

/-- If what was left behind follows a beginning, and what is open was opened by others,
then it ends either that or what the beginning opens. -/
theorem exists_ends_other (ne : t ≠ u) {n m : Nat} (idle : s.queue.current = none)
    (accepts : s.queue.refuses = false)
    (pending : s.queue.pending = [⟨n, ⟨.coordinator u, .opens⟩, false, false⟩,
      ⟨m, ⟨.coordinator t, .rollsBack⟩, true, false⟩]) (not_held : ¬s.HeldBy t) :
    ∃ s', Steps s s' ∧ ¬s'.EndsOwn t := by
  -- the beginning opens a transaction, unless one of others is open
  obtain ⟨s₁, steps₁, queue₁, a, holder₁, other⟩ : ∃ s₁, Steps s s₁ ∧ s₁.queue =
      { s.queue with
        pending := [⟨m, ⟨.coordinator t, .rollsBack⟩, true, false⟩], current := none } ∧
      ∃ a, s₁.holder = some a ∧ a.party? ≠ some t := by
    cases holds : s.holder with
    | none =>
        obtain ⟨s₁, steps₁, queue₁, holder₁, _⟩ := serve true (some (.coordinator u)) idle accepts
          pending rfl (by rw [holds]; exact beq_self_eq_true (some (Author.coordinator u)))
        exact ⟨s₁, steps₁, queue₁, _, holder₁, fun eq => ne (Option.some.inj eq).symm⟩
    | some a =>
        obtain ⟨s₁, steps₁, queue₁, holder₁, _⟩ := serve false (some a) idle accepts pending rfl
          (by rw [holds]; exact beq_self_eq_true (some a))
        exact ⟨s₁, steps₁, queue₁, a, holder₁, fun own => not_held ⟨a, holds, own⟩⟩
  obtain ⟨s₂, steps₂, _, _, ends⟩ := serve true none (s := s₁) (by rw [queue₁])
    (by rw [queue₁]; exact accepts) (by rw [queue₁]) rfl (by rw [holder₁]; rfl)
  have ended : (a, (⟨m, ⟨.coordinator t, .rollsBack⟩, true, false⟩ : WorkItem Request)) ∈
      s₂.ends := by
    rw [ends, holder₁]
    exact List.mem_append_right _ List.mem_cons_self
  exact ⟨s₂, steps₁.trans steps₂, fun endsOwn =>
    other (endsOwn _ ended (beq_self_eq_true (Author.coordinator t)))⟩

/-- A transaction that is not clean when it is dropped can roll back another, if that has
submitted its beginning. -/
theorem exists_not_endsOwn (h : Reachable s) (leased : (s.phase t).isLeased)
    (accepts : s.queue.refuses = false) (idle : s.phase u = .idle) (not_clean : ¬s.Clean t) :
    ∃ s', Steps ((s.join u).drop t) s' ∧ ¬s'.EndsOwn t := by
  have ne : t ≠ u := by
    rintro rfl
    rw [idle] at leased
    cases leased
  have joined := join_adds idle accepts
  have refuses : (s.join u).queue.refuses = false := by rw [joined.queue]; exact accepts
  have same : (s.join u).phase t = s.phase t := by rw [phase_eq, party_join_ne ne, phase_eq]
  have leased' : ((s.join u).phase t).isLeased := same ▸ leased
  have dropped := drop_adds leased' ((h.steps (join_steps idle)).owes leased') refuses
  have queue : ((s.join u).drop t).queue = { s.leftQueue t with
      pending := (s.leftQueue t).pending ++ [s.beginning u, (s.join u).leftBehind t] } := by
    rw [dropped.queue, leftQueue_join h ne idle accepts, List.append_assoc]
    rfl
  have holder : ((s.join u).drop t).holder = s.holder := dropped.holder.trans joined.holder
  -- all that is ahead of the two is served
  obtain ⟨s₁, steps₁, queue₁, holder₁⟩ := settle ((s.join u).drop t)
  obtain ⟨s₂, steps₂, queue₂, holder₂⟩ := drain (s.leftQueue t).pending (s := s₁)
    (by rw [queue₁]) (by rw [queue₁, queue]; exact refuses_leftQueue.trans accepts)
    (by rw [queue₁, queue])
  have not_held : ¬s₂.HeldBy t := by
    rintro ⟨a, is, own⟩
    rcases holder₂ with none | ⟨same₂, harmless⟩
    · rw [none] at is
      cases is
    rcases holder₁ with none | ⟨same₁, harmless'⟩
    · rw [same₂, none] at is
      cases is
    rw [queue] at harmless'
    have held : s.HeldBy t := ⟨a, by rw [← holder, ← same₁, ← same₂, is], own⟩
    exact not_clean (.of_leftQueue held harmless' harmless)
  obtain ⟨s₃, steps₃, ends⟩ := exists_ends_other ne (s := s₂) (by rw [queue₂])
    (by rw [queue₂, queue₁, queue]; exact refuses_leftQueue.trans accepts)
    (by rw [queue₂]; rfl) not_held
  exact ⟨s₃, (steps₁.trans steps₂).trans steps₃, ends⟩

/-- A transaction that is dropped while it is clean rolls back none but itself, whatever the
others do.  One that is not clean can roll back another that has submitted its beginning
before. -/
theorem Reachable.endsOwn_clean (h : Reachable s) (leased : (s.phase t).isLeased)
    (accepts : s.queue.refuses = false) :
    (s.Clean t → ∀ s', Steps (s.drop t) s' → s'.EndsOwn t) ∧
    (¬s.Clean t → ∀ u, s.phase u = .idle →
      ∃ s', Steps ((s.join u).drop t) s' ∧ ¬s'.EndsOwn t) :=
  ⟨fun clean _ steps => clean.endsOwn h leased accepts steps,
    fun not_clean _ idle => exists_not_endsOwn h leased accepts idle not_clean⟩

/-- A transaction is open and its unit of work keeps the connection busy. -/
def busy : Shared Unit := (begun.submitFor 0 ⟨.work 0, .keeps⟩ false).turn

theorem busy_reachable : Reachable busy :=
  begun_reachable.steps ((Steps.refl.tail (.work 0 .keeps false rfl)).tail .turn)

theorem endsOwn_clean_begun_busy :
    (Reachable begun ∧ (begun.phase 0).isLeased ∧ begun.queue.refuses = false ∧ begun.Clean 0 ∧
      ∀ s', Steps (begun.drop 0) s' → s'.EndsOwn 0) ∧
    (Reachable (busy.join 1) ∧ ((busy.join 1).phase 1).isLeased ∧
      (busy.join 1).queue.refuses = false ∧ ¬(busy.join 1).Clean 1 ∧
      ∃ s', Steps (((busy.join 1).join 2).drop 1) s' ∧ ¬s'.EndsOwn 1) := by
  have clean : begun.Clean 0 := ⟨⟨_, rfl, rfl⟩, nofun, nofun⟩
  have joined : Reachable (busy.join 1) := busy_reachable.steps (join_steps rfl)
  have not_clean : ¬(busy.join 1).Clean 1 := by
    rintro ⟨⟨_, ⟨⟩, own⟩, _, _⟩
    cases own
  exact ⟨⟨begun_reachable, rfl, rfl, clean, (begun_reachable.endsOwn_clean rfl rfl).1 clean⟩,
    joined, rfl, rfl, not_clean, (joined.endsOwn_clean rfl rfl).2 not_clean 2 rfl⟩

/-- A transaction was dropped while its beginning waited behind an operation of another. -/
def overtaken : Shared Unit :=
  (((busy.join 1).drop 1).complete ⟨1, ⟨.work 0, .keeps⟩, false, false⟩ true
    (some (.coordinator 0))).turn.turn.complete
      ⟨3, ⟨.coordinator 1, .rollsBack⟩, true, false⟩ true none

/-- Its beginning was skipped, and its rollback ended the transaction of the other. -/
theorem rollsBack_other_overtaken : Reachable overtaken ∧ ¬overtaken.EndsOwn 1 := by
  constructor
  · refine (busy_reachable.steps (join_steps (t := 1) rfl)).steps ?_
    have dropped := Steps.refl.tail (.drop (s := busy.join 1) 1 rfl)
    have free := dropped.tail (.complete ⟨1, ⟨.work 0, .keeps⟩, false, false⟩ true
      (some (.coordinator 0)) rfl rfl)
    have taken := (free.tail .turn).tail .turn
    exact taken.tail (.complete ⟨3, ⟨.coordinator 1, .rollsBack⟩, true, false⟩ true none rfl rfl)
  · intro endsOwn
    cases endsOwn (.coordinator 0, ⟨3, ⟨.coordinator 1, .rollsBack⟩, true, false⟩)
      List.mem_cons_self rfl

end Shared

end ConnectionPool
