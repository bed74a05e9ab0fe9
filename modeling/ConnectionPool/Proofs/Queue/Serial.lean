import ConnectionPool.Proofs.Queue.Service

/-!
# Queues are serial

Whatever is submitted, left, paused, finished and closed, in any order, the history of a
queue is lawful.  The invariant behind this is one equation: the operations in the queue
are those that were accepted and have not ended, in order of submission, each with the mark
whether its caller left.  An operation ends when it stands at the head of this list, so one
lemma says how the list goes on, and it serves for operations that are skipped, over, given
up and cancelled.
-/

namespace ConnectionPool

namespace WorkQueue

variable {α ρ : Type} {h : List (Mark α ρ)} {m : Mark α ρ} {id : Nat}

/-! ## What waits or is in flight -/

/-- The operations that were accepted and have not ended. -/
def waiting (h : List (Mark α ρ)) : List (WorkItem α) :=
  (accepted h).filter fun i => !hasEnded h i.id

/-- An operation, with the mark whether its caller left. -/
def flagged (h : List (Mark α ρ)) (i : WorkItem α) : WorkItem α :=
  { i with abandoned := hasLeft h i.id }

/-- The operations in a queue with this history. -/
def content (h : List (Mark α ρ)) : List (WorkItem α) := (waiting h).map (flagged h)

theorem mem_content {i : WorkItem α} (mem : i ∈ content h) :
    .submitted i.id i.work i.detached true ∈ h ∧ hasEnded h i.id = false ∧
      i.abandoned = hasLeft h i.id := by
  obtain ⟨j, hj, rfl⟩ := List.mem_map.mp mem
  obtain ⟨hj, going⟩ := List.mem_filter.mp hj
  rw [Bool.not_eq_true'] at going
  exact ⟨(mem_accepted.mp hj).2, going, rfl⟩

theorem content_keyed (lawful : Lawful h) : Keyed WorkItem.id (content h) := by
  have waiting : Keyed WorkItem.id (waiting h) := lawful.keyed.sublist List.filter_sublist
  rw [Keyed, content, List.map_map]
  exact waiting

/-- What says nothing of acceptance, of an end, or of a caller who left, leaves the queue as
it is. -/
theorem content_quiet (quiet : m.accepted? = none)
    (goes : ∀ i ∈ accepted h, m.isEnd i.id = false) (stays : ∀ n, m.isLeft n = false) :
    content (h ++ [m]) = content h := by
  have same : flagged (h ++ [m]) = flagged h := by
    funext i
    rw [flagged, hasLeft_snoc, stays, Bool.or_false, flagged]
  have kept : waiting (h ++ [m]) = waiting h := by
    rw [waiting, accepted_snoc, quiet, Option.toList_none, List.append_nil]
    exact List.filter_congr fun i mem => by rw [hasEnded_snoc, goes i mem, Bool.or_false]
  rw [content, kept, same, content]

/-- What ends stands at the head, and leaves. -/
theorem content_end (lawful : Lawful h) {i : WorkItem α}
    {rest : List (WorkItem α)} (eq : content h = i :: rest) (e : Ending ρ) :
    content (h ++ [.ended i.id e]) = rest := by
  obtain ⟨j, js, waits, rfl, rfl⟩ := List.map_eq_cons_iff.mp eq
  have others : ∀ k ∈ js, k.id ≠ j.id := by
    have keyed : Keyed WorkItem.id ([] ++ j :: js) :=
      waits ▸ lawful.keyed.sublist List.filter_sublist
    exact fun k mem => keyed.ne_of_mem_tail mem
  have left : waiting (h ++ [.ended (flagged h j).id e]) = js := by
    have fewer : waiting (h ++ [.ended (flagged h j).id e]) =
        (waiting h).filter fun k => !(j.id == k.id) := by
      simp [waiting, flagged, List.filter_filter, Bool.and_comm]
    rw [fewer, waits, List.filter_cons_of_neg (by simp)]
    exact List.filter_eq_self.mpr fun k mem => by simpa using (others k mem).symm
  rw [content, left]
  exact List.map_congr_left fun k _ => by simp [flagged]

theorem content_left (h : List (Mark α ρ)) (id : Nat) :
    content (h ++ [.left id]) = (content h).map (markAbandoned id) := by
  have kept : waiting (h ++ [.left id]) = waiting h := by simp [waiting]
  rw [content, content, kept, List.map_map]
  refine List.map_congr_left fun i _ => ?_
  by_cases is : i.id = id
  · simp [markAbandoned, flagged, is]
  · simp [markAbandoned, flagged, is, Ne.symm is]

/-! ## The invariant -/

namespace Service

/-- The queue and its history go together. -/
structure Inv (s : Service α ρ) : Prop where
  /-- The history is lawful. -/
  lawful : Lawful s.history
  /-- The queue has what was accepted and has not ended. -/
  content : s.queue.current.toList ++ s.queue.pending = content s.history
  /-- Their numbers were given out. -/
  fresh : ∀ m ∈ s.history, ∀ id, m.id? = some id → id < s.fresh
  /-- Closing was asked for as the history says. -/
  closing : s.queue.closing = isClosed s.history
  /-- A queue ends when it is closed and nothing is left. -/
  ended : s.queue.ended → s.queue.closing ∧ s.queue.current = none ∧ s.queue.pending = []
  /-- What is in flight was started, and pauses as the history says. -/
  current : ∀ i, s.queue.current = some i →
    hasStarted s.history i.id ∧ isPaused s.history i.id = s.pause.isSome
  /-- What waits was not started. -/
  pending : ∀ i ∈ s.queue.pending, hasStarted s.history i.id = false
  /-- What was started has ended or is in flight. -/
  started : ∀ id, hasStarted s.history id → hasEnded s.history id = false →
    ∃ i, s.queue.current = some i ∧ i.id = id
  /-- Nothing else pauses. -/
  idle : s.queue.current = none → s.pause = none
  /-- What was not started never paused. -/
  unpaused : ∀ id, hasStarted s.history id = false → isPaused s.history id = false

namespace Inv

variable {s : Service α ρ}

theorem new : Inv ({} : Service α ρ) where
  lawful := .nil
  content := rfl
  fresh := by intro m mem; cases mem
  closing := rfl
  ended := by intro ended; cases ended
  current := by intro i is; cases is
  pending := by intro i mem; cases mem
  started := by intro id is; cases is
  idle _ := rfl
  unpaused _ _ := rfl

theorem refuses_iff (inv : Inv s) : s.queue.refuses = isClosed s.history := by
  rw [refuses, ← inv.closing]
  cases ended : s.queue.ended with
  | true => rw [(inv.ended ended).1]; rfl
  | false => exact Bool.or_false _

/-- A new number is in no mark. -/
theorem fresh_unused (inv : Inv s) {m : Mark α ρ} (mem : m ∈ s.history) :
    m.id? ≠ some s.fresh :=
  fun is => Nat.lt_irrefl _ (inv.fresh m mem _ is)

theorem fresh_snoc (inv : Inv s) {m : Mark α ρ} {fresh : Nat} (le : s.fresh ≤ fresh)
    (known : ∀ n, m.id? = some n → n < fresh) :
    ∀ a ∈ s.history ++ [m], ∀ n, a.id? = some n → n < fresh := by
  intro a mem n is
  rcases List.mem_append.mp mem with mem | mem
  · exact Nat.lt_of_lt_of_le (inv.fresh a mem n is) le
  · exact known n (List.mem_singleton.mp mem ▸ is)

/-- What is in the queue was accepted and has not ended. -/
theorem mem_queue (inv : Inv s) {i : WorkItem α}
    (mem : i ∈ s.queue.current.toList ++ s.queue.pending) :
    .submitted i.id i.work i.detached true ∈ s.history ∧ hasEnded s.history i.id = false ∧
      i.abandoned = hasLeft s.history i.id :=
  mem_content (inv.content ▸ mem)

/-! ### Ends -/

/-- The first operation may end as the law says, whether it waits or is in flight. -/
theorem endFirst (inv : Inv s) {i : WorkItem α} {rest : List (WorkItem α)}
    (first : s.queue.current.toList ++ s.queue.pending = i :: rest) {e : Ending ρ}
    (law : Follows s.history (.ended i.id e)) : Inv ((s.idle rest).note [.ended i.id e]) := by
  have head : WorkQueue.content s.history = i :: rest := by rw [← inv.content, first]
  have submitted := (inv.mem_queue (first ▸ List.mem_cons_self)).1
  exact {
    lawful := inv.lawful.snoc law
    content := (content_end inv.lawful head e).symm
    fresh := inv.fresh_snoc (Nat.le_refl _) fun n is =>
      Option.some.inj is ▸ inv.fresh _ submitted i.id rfl
    closing := by simpa  using inv.closing
    ended := by
      intro ended
      obtain ⟨closing, idle, pending⟩ := inv.ended ended
      rw [idle, pending] at first
      cases first
    current := by intro j is; cases is
    pending := by
      intro j mem
      have behind : j ∈ s.queue.pending := by
        cases current : s.queue.current with
        | none =>
            rw [current, Option.toList_none, List.nil_append] at first
            exact first ▸ List.mem_cons_of_mem i mem
        | some k =>
            rw [current, Option.toList_some, List.singleton_append] at first
            exact (List.cons.inj first).2 ▸ mem
      simpa using inv.pending j behind
    started := by
      intro n was going
      simp only [history_note, history_idle, hasStarted_snoc, hasEnded_snoc, Mark.isStart,
        Bool.or_false, Mark.isEnd, Bool.or_eq_false_iff, beq_eq_false_iff_ne] at was going
      obtain ⟨j, is, rfl⟩ := inv.started n was going.1
      rw [is] at first
      exact absurd (congrArg WorkItem.id (List.cons.inj first).1).symm going.2
    idle _ := rfl
    unpaused := by
      intro n new
      simp only [history_note, history_idle, hasStarted_snoc, Mark.isStart, Bool.or_false] at new
      simpa using inv.unpaused n new }

/-- The first that waits may end while nothing is in flight. -/
theorem endPending (inv : Inv s) {i : WorkItem α} {rest : List (WorkItem α)}
    (idle : s.queue.current = none) (pending : s.queue.pending = i :: rest) {e : Ending ρ}
    (law : Follows s.history (.ended i.id e)) :
    Inv ({ s with queue := { s.queue with pending := rest } }.note [.ended i.id e]) := by
  have next : Inv ((s.idle rest).note [.ended i.id e]) :=
    inv.endFirst (by rw [idle, pending]; rfl) law
  have same : s.idle rest = { s with queue := { s.queue with pending := rest } } := by
    rw [Service.idle, finishCurrent, ← idle, ← inv.idle idle]
  rwa [same] at next

/-- While nothing is in flight, what was started has ended. -/
theorem started_ended (inv : Inv s) (idle : s.queue.current = none) (n : Nat)
    (was : hasStarted s.history n) : hasEnded s.history n := by
  cases ended : hasEnded s.history n with
  | true => rfl
  | false =>
      obtain ⟨i, is, -⟩ := inv.started n was ended
      cases idle.symm.trans is

theorem inFlight_current (inv : Inv s) {i : WorkItem α} (current : s.queue.current = some i) :
    inFlight s.history i.id := by
  have mem : i ∈ s.queue.current.toList ++ s.queue.pending := by simp [current]
  rw [inFlight, (inv.current i current).1, (inv.mem_queue mem).2.1]
  rfl

theorem cancelAll (inv : Inv s) (idle : s.queue.current = none) (closing : s.queue.closing) :
    Inv ({ s with queue := { s.queue with pending := [], ended := true } }.note
      (s.queue.pending.map fun i : WorkItem α => .ended i.id .cancelled)) := by
  generalize eq : s.queue.pending = ps
  induction ps generalizing s with
  | nil =>
      exact { inv with
        content := by
          have content := inv.content
          rw [eq] at content
          simpa using content
        pending := by intro i mem; cases mem
        lawful := by simpa using inv.lawful
        fresh := by simpa using inv.fresh
        closing := by simpa using inv.closing
        current := by intro i is; cases idle.symm.trans is
        started := by simpa using inv.started
        unpaused := by simpa using inv.unpaused
        ended := fun _ => ⟨closing, idle, rfl⟩ }
  | cons i rest ih =>
      have mem : i ∈ s.queue.current.toList ++ s.queue.pending := by simp [eq]
      have queued := inv.mem_queue mem
      have law : Follows s.history (.ended i.id .cancelled : Mark α ρ) :=
        .cancelled queued.1 (inv.closing ▸ closing) (inv.started_ended idle) queued.2.1
      have next := ih (inv.endPending idle eq law) idle closing rfl
      rw [note, history_note, List.append_assoc] at next
      exact next

/-! ### Other events -/

/-- A mark that accepts nothing, ends nothing and starts nothing leaves the operations as
they are. -/
theorem quiet (inv : Inv s) {m : Mark α ρ} (law : Follows s.history m)
    {fresh : Nat} {closing : Bool} {pause : Option Bool}
    (le : s.fresh ≤ fresh) (known : ∀ n, m.id? = some n → n < fresh)
    (accepts : m.accepted? = none) (ends : ∀ i ∈ accepted s.history, m.isEnd i.id = false)
    (leaves : ∀ n, m.isLeft n = false) (starts : ∀ n, m.isStart n = false)
    (closes : closing = (s.queue.closing || m.isClosing))
    (pauses : ∀ i, s.queue.current = some i → m.pauses i.id s.pause.isSome = pause.isSome)
    (idle : s.queue.current = none → pause = none)
    (unpaused : ∀ n, hasStarted s.history n = false → m.pauses n false = false) :
    Inv ({ s with queue := { s.queue with closing }, pause, fresh }.note [m]) where
  lawful := inv.lawful.snoc law
  content := inv.content.trans (content_quiet accepts ends leaves).symm
  fresh := inv.fresh_snoc le known
  closing := by
    show closing = _
    rw [closes, inv.closing, history_note, isClosed_snoc]
  ended := by
    intro ended
    obtain ⟨asked, idle, pending⟩ := inv.ended ended
    refine ⟨?_, idle, pending⟩
    show closing = true
    rw [closes, asked, Bool.true_or]
  current := by
    intro i is
    obtain ⟨started, paused⟩ := inv.current i is
    rw [history_note, hasStarted_snoc, isPaused_snoc, started, paused]
    exact ⟨Bool.true_or _, pauses i is⟩
  pending := by
    intro i mem
    rw [history_note, hasStarted_snoc, inv.pending i mem, starts]
    rfl
  started := by
    intro n was going
    rw [history_note, hasStarted_snoc, starts, Bool.or_false] at was
    rw [history_note, hasEnded_snoc, Bool.or_eq_false_iff] at going
    exact inv.started n was going.1
  idle := idle
  unpaused := by
    intro n new
    rw [history_note, hasStarted_snoc, starts, Bool.or_false] at new
    rw [history_note, isPaused_snoc, inv.unpaused n new]
    exact unpaused n new

theorem close (inv : Inv s) : Inv (s.after .close) :=
  inv.quiet .closing (Nat.le_refl _) (by nofun) rfl (fun _ _ => rfl) (fun _ => rfl)
    (fun _ => rfl) (Bool.or_true _).symm (fun _ _ => rfl) inv.idle fun _ _ => rfl

theorem refuse (inv : Inv s) (refuses : s.queue.refuses) (work : α) (detached : Bool) :
    Inv ({ s with fresh := s.fresh + 1 }.note [.submitted s.fresh work detached false]) := by
  have law := Follows.submitted work detached fun m mem => inv.fresh_unused mem
  rw [← inv.refuses_iff, refuses] at law
  refine inv.quiet law (Nat.le_succ _) ?_ rfl ?_ (fun _ => rfl) (fun _ => rfl)
    (Bool.or_false _).symm (fun _ _ => rfl) inv.idle fun _ _ => rfl
  · exact fun n is => Option.some.inj is ▸ Nat.lt_succ_self s.fresh
  · exact fun i mem => beq_false_of_ne
      (Nat.ne_of_gt (inv.fresh _ (mem_accepted.mp mem).2 i.id rfl))

theorem current_lt (inv : Inv s) {i : WorkItem α} (current : s.queue.current = some i) :
    i.id < s.fresh := by
  have mem : i ∈ s.queue.current.toList ++ s.queue.pending := by simp [current]
  exact inv.fresh _ (inv.mem_queue mem).1 i.id rfl

/-- What is in flight was started. -/
theorem ne_current (inv : Inv s) {i : WorkItem α} (current : s.queue.current = some i) {n : Nat}
    (new : hasStarted s.history n = false) : i.id ≠ n := by
  rintro rfl
  rw [(inv.current i current).1] at new
  cases new

theorem pause (inv : Inv s) (permitted : s.permits .pause) : Inv (s.after .pause) := by
  obtain ⟨busy, awake⟩ := Bool.and_eq_true_iff.mp permitted
  obtain ⟨i, current⟩ := Option.isSome_iff_exists.mp busy
  have none : s.pause = none := Option.isNone_iff_eq_none.mp awake
  have law : Follows s.history (.paused i.id : Mark α ρ) :=
    .paused (inv.inFlight_current current) (by rw [(inv.current i current).2, none]; rfl)
  rw [after, withCurrent, current]
  refine inv.quiet law (Nat.le_refl _) ?_ rfl (fun _ _ => rfl) (fun _ => rfl) (fun _ => rfl)
    (Bool.or_false _).symm ?_ ?_ ?_
  · exact fun n is => Option.some.inj is ▸ inv.current_lt current
  · intro j is
    obtain rfl := Option.some.inj (current.symm.trans is)
    exact if_pos rfl
  · intro idle
    cases current.symm.trans idle
  · exact fun n new => if_neg (inv.ne_current current new)

theorem resume (inv : Inv s) (paused : s.pause.isSome) :
    Inv (s.withCurrent fun i => { s with pause := none }.note [.resumed i.id]) := by
  rw [withCurrent]
  cases current : s.queue.current with
  | none => exact inv
  | some i =>
      have law : Follows s.history (.resumed i.id : Mark α ρ) :=
        .resumed (inv.inFlight_current current) (by rw [(inv.current i current).2, paused])
      refine inv.quiet law (Nat.le_refl _) ?_ rfl (fun _ _ => rfl) (fun _ => rfl) (fun _ => rfl)
        (Bool.or_false _).symm ?_ (fun _ => rfl) ?_
      · exact fun n is => Option.some.inj is ▸ inv.current_lt current
      · intro j is
        obtain rfl := Option.some.inj (current.symm.trans is)
        exact if_pos rfl
      · exact fun n _ => by simp

/-- A result is returned, to the caller if there is one. -/
theorem finish (inv : Inv s) {r : Except ConnectionError ρ}
    (allowed : s.pause.isSome → s.queue.closing ∧ r = .error .cancelled) : Inv (s.finish r) := by
  rw [Service.finish, withCurrent]
  cases current : s.queue.current with
  | none => exact inv
  | some i =>
      have flight := inv.inFlight_current current
      have mem : i ∈ s.queue.current.toList ++ s.queue.pending := by simp [current]
      obtain ⟨submitted, -, left⟩ := inv.mem_queue mem
      have law : Follows s.history (.returned i.id r) := by
        refine .returned flight fun paused => ?_
        rw [(inv.current i current).2] at paused
        rw [← inv.closing]
        exact allowed paused
      have returned : Inv (s.note [.returned i.id r]) :=
        inv.quiet law (Nat.le_refl _) (fun n is => Option.some.inj is ▸ inv.current_lt current)
          rfl (fun _ _ => rfl) (fun _ => rfl) (fun _ => rfl) (Bool.or_false _).symm
          (fun _ _ => rfl) inv.idle fun _ _ => rfl
      have last : .returned i.id r ∈ s.history ++ [.returned i.id r] := by simp
      have still : .submitted i.id i.work i.detached true ∈ s.history ++ [.returned i.id r] :=
        List.mem_append_left _ submitted
      have flies : inFlight (s.history ++ [.returned i.id r]) i.id := by
        simpa [inFlight] using flight
      have ends : Follows (s.history ++ [.returned i.id r]) (.ended i.id (i.ending r)) := by
        rw [WorkItem.ending, WorkItem.isAwaited, left]
        cases detached : i.detached with
        | true =>
            rw [detached] at still
            simpa using Follows.done last still flies
        | false =>
            rw [detached] at still
            cases gone : hasLeft s.history i.id with
            | true => simpa using Follows.abandoned (by simp [gone]) flies
            | false =>
                simpa using Follows.delivered last (any_isAwaited.mpr ⟨_, still⟩) (by simp [gone])
                  flies
      have ended : Inv (((s.note [.returned i.id r]).idle s.queue.pending).note
          [.ended i.id (i.ending r)]) :=
        returned.endFirst (by rw [queue_note, current]; rfl) ends
      rw [note, history_idle, history_note, List.append_assoc] at ended
      exact ended

theorem giveUp (inv : Inv s) (permitted : s.permits .giveUp) : Inv (s.after .giveUp) := by
  obtain ⟨i, current, gone⟩ := (Option.any_eq_true ..).mp permitted
  have mem : i ∈ s.queue.current.toList ++ s.queue.pending := by simp [current]
  rw [WorkItem.isGivenUp, (inv.mem_queue mem).2.2] at gone
  have law : Follows s.history (.ended i.id .abandoned : Mark α ρ) :=
    .abandoned (Bool.and_eq_true_iff.mp gone).1 (inv.inFlight_current current)
  rw [after, withCurrent, current]
  exact inv.endFirst (by rw [current]; rfl) law

theorem leave (inv : Inv s) {id : Nat} (permitted : s.permits (.leave id)) :
    Inv ({ s with queue := s.queue.leave id }.note [.left id]) := by
  obtain ⟨work, submitted⟩ := any_isAwaited.mp permitted
  have same : ∀ i : WorkItem α, (markAbandoned id i).id = i.id :=
    fun i => (markAbandoned_same id i).2.1
  exact {
    lawful := inv.lawful.snoc (.left permitted)
    content := by
      rw [queue_note, items_leave, inv.content, history_note, content_left]
    fresh := inv.fresh_snoc (Nat.le_refl _) fun n is =>
      Option.some.inj is ▸ inv.fresh _ submitted id rfl
    closing := by simpa [WorkQueue.leave] using inv.closing
    ended := by
      intro ended
      obtain ⟨closing, idle, pending⟩ := inv.ended ended
      exact ⟨closing, by simp [WorkQueue.leave, idle], by simp [WorkQueue.leave, pending]⟩
    current := by
      intro j is
      obtain ⟨i, current, rfl⟩ := Option.map_eq_some_iff.mp is
      simpa [same] using inv.current i current
    pending := by
      intro j mem
      obtain ⟨i, pending, rfl⟩ := List.mem_map.mp mem
      simpa [same] using inv.pending i pending
    started := by
      intro n was going
      simp only [history_note, hasStarted_snoc, hasEnded_snoc, Mark.isStart, Mark.isEnd,
        Bool.or_false] at was going
      obtain ⟨i, current, is⟩ := inv.started n was going
      exact ⟨_, by simp [WorkQueue.leave, current], (same i).trans is⟩
    idle := fun idle => inv.idle (Option.map_eq_none_iff.mp idle)
    unpaused := by
      intro n new
      simp only [history_note, hasStarted_snoc, Mark.isStart, Bool.or_false] at new
      simpa using inv.unpaused n new }

theorem accept (inv : Inv s) (accepts : s.queue.refuses = false) (work : α) (detached : Bool) :
    Inv ({ s with
      queue := { s.queue with
        pending := s.queue.pending ++ [({ id := s.fresh, work, detached } : WorkItem α)] }
      fresh := s.fresh + 1 }.note [.submitted s.fresh work detached true]) := by
  have new : ∀ m ∈ s.history, m.id? ≠ some s.fresh := fun m mem => inv.fresh_unused mem
  obtain ⟨going, stays, waits⟩ := unused new
  have law := Follows.submitted work detached new
  rw [← inv.refuses_iff, accepts] at law
  exact {
    lawful := inv.lawful.snoc law
    content := by
      have more : WorkQueue.content (s.history ++ [.submitted s.fresh work detached true]) =
          WorkQueue.content s.history ++ [{ id := s.fresh, work, detached }] := by
        simp [WorkQueue.content, waiting, going, flagged, stays]
      show s.queue.current.toList ++ (s.queue.pending ++ [_]) = _
      rw [← List.append_assoc, inv.content]
      exact more.symm
    fresh := inv.fresh_snoc (Nat.le_succ _) fun n is =>
      Option.some.inj is ▸ Nat.lt_succ_self s.fresh
    closing := by simpa using inv.closing
    ended := by
      intro ended
      rw [WorkQueue.refuses, show s.queue.ended = true from ended, Bool.or_true] at accepts
      cases accepts
    current := by simpa using inv.current
    pending := by
      intro i mem
      have new : hasStarted s.history i.id = false := by
        rcases List.mem_append.mp mem with mem | mem
        · exact inv.pending i mem
        · exact List.mem_singleton.mp mem ▸ waits
      simpa using new
    started := by simpa using inv.started
    idle := inv.idle
    unpaused := by simpa using inv.unpaused }

theorem submit (inv : Inv s) (work : α) (detached : Bool) : Inv (s.submit work detached) := by
  rw [Service.submit, WorkQueue.submit]
  cases refuses : s.queue.refuses with
  | true => exact inv.refuse refuses work detached
  | false => exact inv.accept refuses work detached

/-- Nobody has left what is not given up: a detached operation has no caller. -/
theorem attended (inv : Inv s) {i : WorkItem α}
    (mem : i ∈ s.queue.current.toList ++ s.queue.pending) (stays : i.isGivenUp = false) :
    hasLeft s.history i.id = false := by
  obtain ⟨submitted, -, gone⟩ := inv.mem_queue mem
  cases detached : i.detached with
  | true =>
      rw [Bool.eq_false_iff]
      intro left
      rw [detached] at submitted
      exact Bool.eq_false_iff.mp (inv.lawful.unawaited submitted)
        (inv.lawful.awaited_of_left left)
  | false =>
      rw [← gone]
      simpa [WorkItem.isGivenUp, detached] using stays

/-- The first that waits may be started: what was accepted before it has ended. -/
theorem follows_started (inv : Inv s) {i : WorkItem α} {rest : List (WorkItem α)}
    (idle : s.queue.current = none) (pending : s.queue.pending = i :: rest)
    (accepts : s.queue.closing = false) (stays : i.isGivenUp = false) :
    Follows s.history (.started i.id i.work : Mark α ρ) := by
  have mem : i ∈ s.queue.current.toList ++ s.queue.pending := by simp [pending]
  have head : WorkQueue.content s.history = i :: rest := by rw [← inv.content, idle, pending]; rfl
  have attended := inv.attended mem stays
  have going := (inv.mem_queue mem).2.1
  obtain ⟨j, js, waits, rfl, -⟩ := List.map_eq_cons_iff.mp head
  obtain ⟨earlier, later, order, gone, -⟩ := List.filter_eq_cons_iff.mp waits
  have before : ∀ k ∈ earlier, hasEnded s.history k.id := fun k mem => by simpa using gone k mem
  exact Follows.started (i := j) order before (inv.started_ended idle) going attended
    (inv.closing ▸ accepts)

theorem start (inv : Inv s) {i : WorkItem α} {rest : List (WorkItem α)}
    (idle : s.queue.current = none) (pending : s.queue.pending = i :: rest)
    (accepts : s.queue.closing = false) (stays : i.isGivenUp = false) :
    Inv ({ s with queue := { s.queue with pending := rest, current := some i } }.note
      [.started i.id i.work]) := by
  have mem : i ∈ s.queue.current.toList ++ s.queue.pending := by simp [pending]
  have submitted := (inv.mem_queue mem).1
  have law := inv.follows_started idle pending accepts stays
  exact {
    lawful := inv.lawful.snoc law
    content := by
      rw [history_note, content_quiet rfl (fun _ _ => rfl) fun _ => rfl, ← inv.content, idle,
        pending]
      rfl
    fresh := inv.fresh_snoc (Nat.le_refl _) fun n is =>
      Option.some.inj is ▸ inv.fresh _ submitted i.id rfl
    closing := by simpa using inv.closing
    ended := by
      intro ended
      rw [(inv.ended ended).1] at accepts
      cases accepts
    current := by
      intro j is
      obtain rfl := Option.some.inj is
      have waits := inv.pending i (pending ▸ List.mem_cons_self)
      simp [inv.idle idle, inv.unpaused i.id waits]
    pending := by
      intro j behind
      have keyed : Keyed WorkItem.id ([] ++ i :: rest) := by
        have queued := inv.content ▸ content_keyed inv.lawful
        rwa [idle, pending] at queued
      have other := keyed.ne_of_mem_tail behind
      have waits := inv.pending j (pending ▸ List.mem_cons_of_mem i behind)
      simpa [waits] using other.symm
    started := by
      intro n was going
      simp only [history_note, hasStarted_snoc, hasEnded_snoc, Mark.isStart, Mark.isEnd,
        Bool.or_false, Bool.or_eq_true_iff] at was going
      rcases was with was | was
      · rw [inv.started_ended idle n was] at going
        cases going
      · exact ⟨i, rfl, beq_iff_eq.mp was⟩
    idle := by nofun
    unpaused := by
      intro n new
      simp only [history_note, hasStarted_snoc, Bool.or_eq_false_iff] at new
      simpa using inv.unpaused n new.1 }

theorem turn (inv : Inv s) : Inv s.turn := by
  have turned := s.queue.turned
  rw [Service.turn]
  generalize s.queue.turn = result at turned
  cases turned with
  | rest _ => exact inv
  | @skip i rest pending idle accepts left =>
      have mem : i ∈ s.queue.current.toList ++ s.queue.pending := by simp [pending]
      obtain ⟨submitted, going, gone⟩ := inv.mem_queue mem
      obtain ⟨left, attended⟩ := Bool.and_eq_true_iff.mp left
      rw [Bool.not_eq_true'] at attended
      rw [attended] at submitted
      have law : Follows s.history (.ended i.id .skipped : Mark α ρ) :=
        .skipped (any_isAwaited.mpr ⟨_, submitted⟩) (gone ▸ left)
          (inv.pending i (pending ▸ List.mem_cons_self)) (inv.closing ▸ accepts) going
      exact inv.endPending idle pending law
  | start pending idle accepts stays => exact inv.start idle pending accepts stays
  | finish idle closing => exact inv.cancelAll idle closing

theorem endPause (inv : Inv s) (permitted : s.permits .endPause) : Inv (s.after .endPause) := by
  have paused : s.pause = some false := beq_iff_eq.mp permitted
  exact { inv with
    current := by
      intro i is
      obtain ⟨started, pauses⟩ := inv.current i is
      rw [paused] at pauses
      exact ⟨started, pauses⟩
    idle := by
      intro idle
      cases paused.symm.trans (inv.idle idle) }

theorem look (inv : Inv s) (permitted : s.permits .look) (isOver : Bool) : Inv (s.look isOver) := by
  rw [Service.look, PauseState.of]
  cases isOver with
  | true => exact inv.resume permitted
  | false =>
      cases closing : s.queue.closing with
      | true => exact inv.finish fun _ => ⟨closing, rfl⟩
      | false => exact inv

theorem after (inv : Inv s) {e : Event α ρ} (permitted : s.permits e) : Inv (s.after e) := by
  cases e with
  | submit work detached => exact inv.submit work detached
  | leave id => exact inv.leave permitted
  | turn => exact inv.turn
  | pause => exact inv.pause permitted
  | endPause => exact inv.endPause permitted
  | look => exact inv.look permitted (s.pause == some true)
  | notice => exact inv.finish fun _ => ⟨(Bool.and_eq_true_iff.mp permitted).2, rfl⟩
  | finish r =>
      have awake := Option.isNone_iff_eq_none.mp (Bool.and_eq_true_iff.mp permitted).2
      exact inv.finish (by simp [awake])
  | giveUp => exact inv.giveUp permitted
  | close => exact inv.close

theorem steps {s' : Service α ρ} (inv : Inv s) (steps : Steps s s') : Inv s' := by
  induction steps with
  | refl => exact inv
  | tail e _ permitted ih => exact ih.after permitted

end Inv

theorem Reachable.inv {s : Service α ρ} (reachable : Reachable s) : Inv s := Inv.new.steps reachable

end Service

end WorkQueue

end ConnectionPool
