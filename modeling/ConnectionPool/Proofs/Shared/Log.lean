import Mathlib.Data.List.Perm.Subperm
import ConnectionPool.Proofs.Keyed
import ConnectionPool.Proofs.Shared.Course

/-!
# The log of a shared connection

The log of a connection lists the operations that its queue accepted.  `Shared.Logged`
relates it to the rest: what a transaction has in the log is what its history says was
accepted, operations have different numbers, and the queue takes them in the order of the
log.  Work is refused once and for all, so what a transaction has in the log is an
initial part of what it submitted (`Logged.accepted_prefix`).

An operation is replied to when it has left the queue, so at most once
(`Queued.reply_unique`), and what a transaction saw is what was replied.
-/

namespace ConnectionPool

/-- The operation that a mark submits, if it was accepted. -/
def Mark.accepted? : Mark → Option (WorkItem Request)
  | .submitted id work detached true => some { id, work, detached }
  | _ => none

namespace Shared

variable {α : Type}

/-- The operations that a transaction has in the log. -/
def logOf (s : Shared α) (t : Nat) : List (WorkItem Request) :=
  s.log.filter (·.work.author.party? == some t)

/-- The operations in the queue. -/
def queued (s : Shared α) : List (WorkItem Request) :=
  s.queue.current.toList ++ s.queue.pending

/-- The numbers of the operations in the queue, and of those that were replied to. -/
def numbers (s : Shared α) : List Nat :=
  s.queued.map WorkItem.id ++ s.replies.map Prod.fst

/-- The operations in the queue, and those that ended a transaction. -/
def handled (s : Shared α) : List (WorkItem Request) := s.queued ++ s.ends.map Prod.snd

/-- The log, the queue and the replies go together. -/
structure Queued (s : Shared α) : Prop where
  /-- Operations have different numbers. -/
  ids : Keyed WorkItem.id s.log
  /-- Their numbers were given out. -/
  id_lt : ∀ i ∈ s.log, i.id < s.fresh
  /-- Operations are taken in the order of the log. -/
  taken : List.Sublist ((s.started ++ s.queue.pending).map WorkItem.id) (s.log.map WorkItem.id)
  /-- They are operations of the log, which may have been abandoned since. -/
  items : ∀ i ∈ s.handled, ∃ j ∈ s.log, j.id = i.id ∧ j.work = i.work ∧ j.detached = i.detached
  /-- No operation is replied to twice, or before it has left the queue. -/
  once : s.numbers.Nodup
  /-- These numbers were given out as well. -/
  number_lt : ∀ n ∈ s.numbers, n < s.fresh

/-- The histories go together with them. -/
structure Logged (s : Shared α) : Prop extends Queued s where
  /-- A history says what was accepted. -/
  logged : ∀ t, s.logOf t = (s.history t).filterMap Mark.accepted?
  /-- Once an operation was refused, work is refused. -/
  refused : ∀ t id r detached, .submitted id r detached false ∈ s.history t → s.queue.refuses
  /-- What is in the log is an initial part of what was submitted. -/
  accepted_prefix : ∀ t, (s.logOf t).map (·.work) <+: requestsOf (s.history t)
  /-- What a transaction saw was replied. -/
  replied : ∀ t id c ok, .answered id c ok ∈ s.history t → (id, ok) ∈ s.replies

/-- An operation is replied to once. -/
theorem Queued.reply_unique {s : Shared α} (h : Queued s) {id : Nat} {ok ok' : Bool}
    (mem : (id, ok) ∈ s.replies) (mem' : (id, ok') ∈ s.replies) : ok = ok' := by
  have keyed : Keyed Prod.fst s.replies := (List.nodup_append.mp h.once).2.1
  exact congrArg Prod.snd (keyed.eq_of_mem mem mem' rfl)

/-- An operation in the queue was not replied to. -/
theorem Queued.not_replied {s : Shared α} (h : Queued s) {i : WorkItem Request} (mem : i ∈ s.queued)
    (ok : Bool) : (i.id, ok) ∉ s.replies := fun replied =>
  (List.nodup_append.mp h.once).2.2 i.id (List.mem_map_of_mem mem) i.id
    (List.mem_map_of_mem replied) rfl

/-- Operations in the queue have different numbers. -/
theorem Queued.eq_of_id {s : Shared α} (h : Queued s) {i j : WorkItem Request} (mem : i ∈ s.queued)
    (mem' : j ∈ s.queued) (same : i.id = j.id) : i = j := by
  have keyed : Keyed WorkItem.id s.queued := (List.nodup_append.mp h.once).1
  exact keyed.eq_of_mem mem mem' same

/-- An operation in the log was submitted, as the history of its transaction says. -/
theorem Logged.submitted {s : Shared α} {t : Nat} (h : Logged s) {i : WorkItem Request}
    (mem : i ∈ s.log) (own : i.work.author.party? = some t) :
    .submitted i.id i.work i.detached true ∈ s.history t := by
  have in_log : i ∈ s.logOf t := List.mem_filter.mpr ⟨mem, beq_iff_eq.mpr own⟩
  rw [h.logged] at in_log
  obtain ⟨m, mem, accepted⟩ := List.mem_filterMap.mp in_log
  cases m with
  | submitted id r detached ok =>
      cases ok with
      | true =>
          rw [← Option.some.inj accepted]
          exact mem
      | false => cases accepted
  | state _ | leased | answered _ _ _ | unitEnded _ | released | dropped => cases accepted

/-! ## What the queue does -/

/-- What `turn` makes of a shared connection. -/
inductive Turned (s : Shared α) : Shared α → Prop where
  /-- Nothing. -/
  | rest : Turned s s
  /-- It passes over an operation whose caller left. -/
  | skip {i : WorkItem Request} {rest : List (WorkItem Request)} :
      s.queue.pending = i :: rest → s.queue.current = none → i.isGivenUp →
      Turned s { s with queue := { s.queue with pending := rest } }
  /-- It starts an operation. -/
  | start {i : WorkItem Request} {rest : List (WorkItem Request)} :
      s.queue.pending = i :: rest → s.queue.current = none → i.isGivenUp = false →
      Turned s { s with
        queue := { s.queue with pending := rest, current := some i }
        started := s.started ++ [i] }
  /-- It ends. -/
  | finish : s.queue.current = none → Turned s { s with
      queue := { s.queue with pending := [], ended := true }
      holder := none
      replies := s.replies ++ s.queue.pending.map fun i => (i.id, false) }

theorem turned (s : Shared α) : Turned s s.turn := by
  rw [turn, WorkQueue.turn]
  by_cases busy : s.queue.ended || s.queue.current.isSome
  · rw [if_pos busy]
    exact .rest
  · rw [if_neg busy]
    have idle : s.queue.current = none := by
      rw [Bool.or_eq_true, not_or] at busy
      exact Option.not_isSome_iff_eq_none.mp busy.2
    by_cases closing : s.queue.closing
    · rw [if_pos closing]
      exact .finish idle
    · rw [if_neg closing]
      cases pending : s.queue.pending with
      | nil => exact .rest
      | cons i rest =>
          by_cases left : i.isGivenUp
          · simp only [if_pos left]
            exact .skip pending idle left
          · simp only [if_neg left]
            exact .start pending idle (Bool.eq_false_iff.mpr left)

section Turn

variable {s : Shared α} {i : WorkItem Request} {rest : List (WorkItem Request)}

theorem turn_start (idle : s.queue.current = none) (accepts : s.queue.refuses = false)
    (pending : s.queue.pending = i :: rest) (not_givenUp : i.isGivenUp = false) :
    s.turn = { s with
      queue := { s.queue with pending := rest, current := some i }
      started := s.started ++ [i] } := by
  have going : s.queue.closing = false ∧ s.queue.ended = false := Bool.or_eq_false_iff.mp accepts
  simp [turn, WorkQueue.turn, idle, going, pending, not_givenUp]

theorem turn_skip (idle : s.queue.current = none) (accepts : s.queue.refuses = false)
    (pending : s.queue.pending = i :: rest) (givenUp : i.isGivenUp) :
    s.turn = { s with queue := { s.queue with pending := rest, current := none } } := by
  have going : s.queue.closing = false ∧ s.queue.ended = false := Bool.or_eq_false_iff.mp accepts
  simp [turn, WorkQueue.turn, idle, going, pending, givenUp]

theorem turn_finish (idle : s.queue.current = none) (closing : s.queue.closing)
    (going : s.queue.ended = false) : s.turn = { s with
      queue := { s.queue with pending := [], ended := true, current := none }
      holder := none
      replies := s.replies ++ s.queue.pending.map fun i => (i.id, false) } := by
  simp [turn, WorkQueue.turn, idle, going, closing]

end Turn

/-- The operations in the queue when the caller of one has left. -/
theorem queued_leave (s : Shared α) (n : Nat) : ({ s with queue := s.queue.leave n } :
    Shared α).queued = s.queued.map (WorkQueue.markAbandoned n) := by
  rw [queued, queued, List.map_append]
  show (s.queue.current.map _).toList ++ _ = _
  cases s.queue.current <;> rfl

namespace Logged

variable {s : Shared α} {t : Nat}

theorem new (mode : Nat → IsolationMode) : Logged (new mode : Shared α) where
  logged _ := rfl
  refused := by intro t id r detached mem; cases mem
  accepted_prefix _ := List.nil_prefix
  ids := List.nodup_nil
  id_lt := by intro i mem; cases mem
  taken := List.nil_sublist _
  items := by intro i mem; cases mem
  once := List.nodup_nil
  number_lt := by intro n mem; cases mem
  replied := by intro t id c ok mem; cases mem

/-- The histories stay as they are. -/
theorem modify (h : Logged s) (f : Party α → Party α)
    (same : ∀ p, (f p).history = p.history) : Logged (s.modify t f) := by
  have history : (s.modify t f).history = s.history := by
    funext u
    show (if u = t then f (s.party u) else s.party u).history = _
    split
    · exact same _
    · rfl
  exact { h with
    logged := by rw [history]; exact h.logged
    refused := by rw [history]; exact h.refused
    accepted_prefix := by rw [history]; exact h.accepted_prefix
    replied := by rw [history]; exact h.replied }

theorem history_note (s : Shared α) (t u : Nat) (m : Mark) :
    (s.note t m).history u = s.history u ++ if u = t then [m] else [] := by
  show (if u = t then { s.party u with history := (s.party u).history ++ [m] }
    else s.party u).history = _
  split
  · rfl
  · exact (List.append_nil _).symm

/-- A transaction did something else than to submit.  If it took a reply, there is one. -/
theorem note (h : Logged s) {m : Mark} (other : m.request? = none)
    (there : ∀ id c ok, m = .answered id c ok → (id, ok) ∈ s.replies) : Logged (s.note t m) := by
  have silent : m.accepted? = none := by
    cases m with
    | submitted id r detached accepted => cases other
    | state _ | leased | answered _ _ _ | unitEnded _ | released | dropped => rfl
  exact { h with
    logged := by
      intro u
      rw [history_note, List.filterMap_append]
      refine (h.logged u).trans ?_
      split
      · rw [List.filterMap_cons_none silent, List.filterMap_nil, List.append_nil]
      · rw [List.filterMap_nil, List.append_nil]
    refused := by
      intro u id r detached mem
      rw [history_note] at mem
      rcases List.mem_append.mp mem with mem | mem
      · exact h.refused u id r detached mem
      · split at mem
        · rw [← List.mem_singleton.mp mem] at other
          cases other
        · cases mem
    accepted_prefix := by
      intro u
      rw [history_note, requestsOf_append]
      exact (h.accepted_prefix u).trans (List.prefix_append _ _)
    replied := by
      intro u id c ok mem
      rw [history_note] at mem
      rcases List.mem_append.mp mem with mem | mem
      · exact h.replied u id c ok mem
      · split at mem
        · exact there id c ok (List.mem_singleton.mp mem).symm
        · cases mem }

/-- While no operation was refused, all that was submitted was accepted. -/
theorem accepted_eq {h : List Mark}
    (none : ∀ id r detached, .submitted id r detached false ∉ h) :
    (h.filterMap Mark.accepted?).map (·.work) = requestsOf h := by
  rw [requestsOf, List.map_filterMap]
  apply List.filterMap_congr
  intro m mem
  cases m with
  | submitted id r detached accepted =>
      cases accepted with
      | true => rfl
      | false => exact absurd mem (none id r detached)
  | state _ | leased | answered _ _ _ | unitEnded _ | released | dropped => rfl

/-! ### Submissions -/

theorem enqueue_accepted (accepts : s.queue.refuses = false) (r : Request) (detached : Bool) :
    s.enqueue r detached = { s with
      queue := { s.queue with
        pending := s.queue.pending ++ [{ id := s.fresh, work := r, detached }] }
      log := s.log ++ [{ id := s.fresh, work := r, detached }]
      fresh := s.fresh + 1 } := by
  rw [enqueue, WorkQueue.submit, accepts]
  rfl

theorem enqueue_refused (refuses : s.queue.refuses) (r : Request) (detached : Bool) :
    s.enqueue r detached = { s with
      replies := s.replies ++ [(s.fresh, false)]
      fresh := s.fresh + 1 } := by
  rw [enqueue, WorkQueue.submit, refuses]
  rfl

theorem refuses_enqueue (r : Request) (detached : Bool) :
    (s.enqueue r detached).queue.refuses = s.queue.refuses := by
  cases accepts : s.queue.refuses with
  | true =>
      rw [enqueue_refused accepts]
      exact accepts
  | false =>
      rw [enqueue_accepted accepts]
      exact accepts

/-- Nothing that was replied is taken back. -/
theorem replies_enqueue (r : Request) (detached : Bool) {reply : Nat × Bool}
    (mem : reply ∈ s.replies) : reply ∈ (s.enqueue r detached).replies := by
  cases accepts : s.queue.refuses with
  | true =>
      rw [enqueue_refused accepts]
      exact List.mem_append_left _ mem
  | false =>
      rw [enqueue_accepted accepts]
      exact mem

theorem logOf_enqueue (accepts : s.queue.refuses = false) (r : Request) (detached : Bool)
    (u : Nat) : (s.enqueue r detached).logOf u = s.logOf u ++
      if r.author.party? = some u then [{ id := s.fresh, work := r, detached }] else [] := by
  rw [enqueue_accepted accepts, logOf, List.filter_append, List.filter_singleton]
  by_cases is : r.author.party? = some u
  · rw [if_pos is, is, beq_self_eq_true]
    rfl
  · rw [if_neg is, beq_eq_false_iff_ne.mpr is]
    rfl

/-- An operation is given the next free number, whether it is accepted or replied to at
once. -/
theorem numbers_enqueue (s : Shared α) (r : Request) (detached : Bool) :
    List.Perm (s.enqueue r detached).numbers (s.fresh :: s.numbers) := by
  cases accepts : s.queue.refuses with
  | true =>
      rw [enqueue_refused accepts]
      show List.Perm (s.queued.map WorkItem.id ++ (s.replies ++ [(s.fresh, false)]).map Prod.fst) _
      rw [List.map_append, ← List.append_assoc]
      exact List.perm_append_singleton _ _
  | false =>
      rw [enqueue_accepted accepts]
      show List.Perm ((s.queue.current.toList ++ (s.queue.pending ++
        [(⟨s.fresh, r, detached, false⟩ : WorkItem Request)])).map WorkItem.id ++
          s.replies.map Prod.fst) _
      rw [← List.append_assoc, List.map_append, List.append_assoc]
      exact List.perm_middle

/-- An operation that is accepted joins the log and the queue. -/
theorem enqueue_queued (h : Queued s) (r : Request) (detached : Bool) :
    Queued (s.enqueue r detached) := by
  have fresh : (s.enqueue r detached).fresh = s.fresh + 1 := by
    rw [enqueue]
    split <;> rfl
  have unused : s.fresh ∉ s.numbers := fun mem => Nat.lt_irrefl _ (h.number_lt _ mem)
  have once : (s.enqueue r detached).numbers.Nodup :=
    (numbers_enqueue s r detached).nodup_iff.mpr (List.nodup_cons.mpr ⟨unused, h.once⟩)
  have number_lt : ∀ n ∈ (s.enqueue r detached).numbers, n < (s.enqueue r detached).fresh := by
    intro n mem
    rw [fresh]
    rcases List.mem_cons.mp ((numbers_enqueue s r detached).mem_iff.mp mem) with rfl | mem
    · exact Nat.lt_succ_self _
    · exact Nat.lt_succ_of_lt (h.number_lt n mem)
  cases accepts : s.queue.refuses with
  | true =>
      rw [enqueue_refused accepts] at once number_lt ⊢
      exact { h with
        id_lt := fun i mem => Nat.lt_succ_of_lt (h.id_lt i mem)
        once := once
        number_lt := number_lt }
  | false =>
      rw [enqueue_accepted accepts] at once number_lt ⊢
      exact {
        once := once
        number_lt := number_lt
        ids := h.ids.append_fresh h.id_lt
        id_lt := lt_succ_of_mem_append h.id_lt
        taken := by
          have taken := h.taken.append (List.Sublist.refl [s.fresh])
          simpa only [List.map_append, List.append_assoc, List.map_cons, List.map_nil] using taken
        items := by
          intro i mem
          have cases_mem : i ∈ s.handled ∨ i = { id := s.fresh, work := r, detached } := by
            simp only [handled, queued, List.mem_append, List.mem_singleton] at mem ⊢
            tauto
          rcases cases_mem with old | rfl
          · obtain ⟨j, hj, same⟩ := h.items i old
            exact ⟨j, List.mem_append_left _ hj, same⟩
          · exact ⟨_, List.mem_append_right _ (List.mem_singleton.mpr rfl), rfl, rfl, rfl⟩ }

/-- Somebody else submits an operation. -/
theorem enqueue (h : Logged s) {r : Request} (stranger : r.author.party? = none)
    (detached : Bool) : Logged (s.enqueue r detached) := by
  have history : (s.enqueue r detached).history = s.history := by
    funext u
    rw [Shared.history, party_enqueue]
    rfl
  have log : (s.enqueue r detached).logOf = s.logOf := by
    funext u
    cases accepts : s.queue.refuses with
    | true =>
        rw [enqueue_refused accepts]
        rfl
    | false => rw [logOf_enqueue accepts, stranger, if_neg nofun, List.append_nil]
  exact {
    enqueue_queued h.toQueued r detached with
    logged := by rw [log, history]; exact h.logged
    refused := by
      rw [history, refuses_enqueue]
      exact h.refused
    accepted_prefix := by rw [log, history]; exact h.accepted_prefix
    replied := by
      intro u id c ok mem
      rw [history] at mem
      exact replies_enqueue r detached (h.replied u id c ok mem) }

/-- A transaction or its unit of work submits an operation. -/
theorem submitFor (h : Logged s) {r : Request} (own : r.author.party? = some t)
    (detached : Bool) : Logged (s.submitFor t r detached) := by
  have history : ∀ u, (s.submitFor t r detached).history u = s.history u ++
      if u = t then [.submitted s.fresh r detached (!s.queue.refuses)] else [] := by
    intro u
    rw [Shared.submitFor, history_note]
    congr 1
    rw [Shared.history, party_enqueue]
    rfl
  have queued : Queued (s.submitFor t r detached) :=
    { enqueue_queued h.toQueued r detached with }
  have replied : ∀ u id c ok, .answered id c ok ∈ (s.submitFor t r detached).history u →
      (id, ok) ∈ (s.submitFor t r detached).replies := by
    intro u id c ok mem
    rw [history] at mem
    rcases List.mem_append.mp mem with mem | mem
    · exact replies_enqueue r detached (h.replied u id c ok mem)
    · split at mem
      · cases List.mem_singleton.mp mem
      · cases mem
  cases accepts : s.queue.refuses with
  | true =>
      rw [accepts] at history
      have log : (s.submitFor t r detached).logOf = s.logOf := by
        rw [Shared.submitFor, enqueue_refused accepts]
        rfl
      exact { queued with
        replied := replied
        logged := by
          intro u
          rw [log, history, List.filterMap_append, h.logged]
          split
          · exact (List.append_nil _).symm
          · exact (List.append_nil _).symm
        refused := fun _ _ _ _ _ => (refuses_enqueue r detached).trans accepts
        accepted_prefix := by
          intro u
          rw [log, history, requestsOf_append]
          exact (h.accepted_prefix u).trans (List.prefix_append _ _) }
  | false =>
      rw [accepts] at history
      have none : ∀ u id r' d,
          .submitted id r' d false ∉ (s.submitFor t r detached).history u := by
        intro u id r' d mem
        rw [history] at mem
        rcases List.mem_append.mp mem with mem | mem
        · exact absurd (h.refused u id r' d mem) (Bool.eq_false_iff.mp accepts)
        · split at mem
          · cases List.mem_singleton.mp mem
          · cases mem
      have log : ∀ u, (s.submitFor t r detached).logOf u = s.logOf u ++
          if u = t then [{ id := s.fresh, work := r, detached }] else [] := by
        intro u
        refine (logOf_enqueue accepts r detached u).trans ?_
        rw [own]
        by_cases is : u = t
        · rw [if_pos is, if_pos (congrArg some is.symm)]
        · rw [if_neg is, if_neg fun eq => is (Option.some.inj eq).symm]
      have logged : ∀ u, (s.submitFor t r detached).logOf u =
          ((s.submitFor t r detached).history u).filterMap Mark.accepted? := by
        intro u
        rw [log, history, List.filterMap_append, h.logged]
        congr 1
        split <;> rfl
      exact { queued with
        replied := replied
        logged := logged
        refused := fun u id r' d mem => absurd mem (none u id r' d)
        accepted_prefix := by
          intro u
          have whole := congrArg (List.map (·.work)) (logged u)
          rw [accepted_eq (none u)] at whole
          exact whole ▸ List.prefix_rfl }

/-! ### Coordinators -/

theorem perform (h : Logged s) (t : Nat) (a : Transaction.Action α) :
    Logged (Shared.perform t s a) := by
  cases a with
  | trace _ _ => exact h.note rfl nofun
  | submit sql =>
      have sub : Logged (s.submitFor t ⟨.coordinator t, Control.ofStatement sql⟩ false) :=
        h.submitFor rfl false
      exact sub.modify (t := t) (fun p =>
        { p with awaiting := some (s.fresh, Control.ofStatement sql) }) fun _ => rfl
  | detach _ => exact h.submitFor rfl true
  | release => exact h.note rfl nofun
  | acquire | runUnit | noteRollbackFailed | noteDropped _ | conclude _ => exact h

theorem conduct (h : Logged s) (t : Nat) (e : Transaction.Event α) : Logged (s.conduct t e) :=
  conduct_induction (P := Logged) t e (fun _ => h.modify _ fun _ => rfl)
    fun _ a kept => kept.perform t a

/-! ### The queue -/

theorem map_fst_replies (replies : List (Nat × Bool)) (ok : Bool) (l : List (WorkItem Request)) :
    (replies ++ l.map fun i => (i.id, ok)).map Prod.fst =
      replies.map Prod.fst ++ l.map WorkItem.id := by
  rw [List.map_append, List.map_map]
  rfl

/-- The queue loses operations or starts them. -/
theorem serve (h : Logged s) {queue : WorkQueue Request} {started : List (WorkItem Request)}
    (holder : Option Author) (replies : List (Nat × Bool)) (ends : List (Author × WorkItem Request))
    (refuses : s.queue.refuses → queue.refuses)
    (taken : List.Sublist ((started ++ queue.pending).map WorkItem.id)
      ((s.started ++ s.queue.pending).map WorkItem.id))
    (items : ∀ i ∈ queue.current.toList ++ queue.pending ++ ends.map Prod.snd, i ∈ s.handled)
    (numbers : List.Subperm ((queue.current.toList ++ queue.pending).map WorkItem.id ++
      replies.map Prod.fst) s.numbers)
    (kept : ∀ reply ∈ s.replies, reply ∈ replies) :
    Logged { s with queue, started, holder, replies, ends } :=
  { h with
    taken := taken.trans h.taken
    items := fun i mem => h.items i (items i mem)
    once := by
      obtain ⟨l, perm, sub⟩ := numbers
      exact perm.nodup_iff.mp (h.once.sublist sub)
    number_lt := fun n mem => h.number_lt n (numbers.subset mem)
    replied := fun t id c ok mem => kept _ (h.replied t id c ok mem)
    refused := fun t id r detached mem => refuses (h.refused t id r detached mem) }

theorem turn (h : Logged s) : Logged s.turn := by
  have turned := s.turned
  generalize s.turn = s' at turned ⊢
  cases turned with
  | rest => exact h
  | @skip i rest pending idle _ =>
      refine h.serve _ _ _ id ?_ ?_ ?_ fun _ mem => mem
      · rw [pending]
        exact ((List.sublist_cons_self i rest).append_left s.started).map _
      · intro j mem
        simp only [handled, queued, pending, List.mem_append, List.mem_cons] at mem ⊢
        tauto
      · rw [numbers, queued, pending, idle]
        exact (List.sublist_cons_self _ _).subperm
  | @start i rest pending idle _ =>
      refine h.serve _ _ _ id ?_ ?_ ?_ fun _ mem => mem
      · rw [pending, List.append_assoc]
        exact List.Sublist.refl _
      · intro j mem
        simp only [handled, queued, pending, idle, List.mem_append, List.mem_cons,
          Option.toList_some] at mem ⊢
        tauto
      · rw [numbers, queued, pending, idle]
        exact List.Subperm.refl _
  | finish idle =>
      refine h.serve _ _ _ (fun _ => Bool.or_true _) ?_ ?_ ?_
        fun _ mem => List.mem_append_left _ mem
      · exact ((List.nil_sublist _).append_left s.started).map _
      · intro j mem
        simp only [handled, queued, idle, List.mem_append] at mem ⊢
        tauto
      · rw [numbers, queued, idle, map_fst_replies]
        show List.Subperm (s.replies.map Prod.fst ++ s.queue.pending.map WorkItem.id)
          (s.queue.pending.map WorkItem.id ++ s.replies.map Prod.fst)
        exact List.perm_append_comm.subperm

/-- The caller of an operation leaves. -/
theorem leave (h : Logged s) (id : Nat) : Logged { s with queue := s.queue.leave id } := by
  have same : ∀ i : WorkItem Request, (WorkQueue.markAbandoned id i).id = i.id ∧
      (WorkQueue.markAbandoned id i).work = i.work ∧
      (WorkQueue.markAbandoned id i).detached = i.detached := by
    intro i
    rw [WorkQueue.markAbandoned]
    split <;> exact ⟨rfl, rfl, rfl⟩
  have ids : (s.queue.pending.map (WorkQueue.markAbandoned id)).map WorkItem.id =
      s.queue.pending.map WorkItem.id := by
    rw [List.map_map]
    exact List.map_congr_left fun i _ => (same i).1
  have numbers : ({ s with queue := s.queue.leave id } : Shared α).numbers = s.numbers := by
    show ((s.queue.current.map (WorkQueue.markAbandoned id)).toList ++
      s.queue.pending.map (WorkQueue.markAbandoned id)).map WorkItem.id ++ _ = _
    rw [List.map_append, ids, Shared.numbers, queued, List.map_append]
    congr 2
    cases s.queue.current with
    | none => rfl
    | some i => exact congrArg (fun n => [n]) (same i).1
  exact { h with
    once := by rw [numbers]; exact h.once
    number_lt := by rw [numbers]; exact h.number_lt
    taken := by
      show List.Sublist (List.map WorkItem.id (s.started ++
        s.queue.pending.map (WorkQueue.markAbandoned id))) _
      rw [List.map_append, ids, ← List.map_append]
      exact h.taken
    items := by
      intro i mem
      have old : ∃ j ∈ s.handled, i.id = j.id ∧ i.work = j.work ∧ i.detached = j.detached := by
        rcases List.mem_append.mp mem with mem | mem
        · rcases List.mem_append.mp mem with mem | mem
          · obtain ⟨j, hj, rfl⟩ := Option.map_eq_some_iff.mp (Option.mem_toList.mp mem)
            have in_flight := List.mem_append_left s.queue.pending (Option.mem_toList.mpr hj)
            exact ⟨j, List.mem_append_left _ in_flight, same j⟩
          · obtain ⟨j, hj, rfl⟩ := List.mem_map.mp mem
            exact ⟨j, List.mem_append_left _ (List.mem_append_right _ hj), same j⟩
        · exact ⟨i, List.mem_append_right _ mem, rfl, rfl, rfl⟩
      obtain ⟨j, hj, ids, works, detached⟩ := old
      rw [ids, works, detached]
      exact h.items j hj }

theorem step (h : Logged s) {s' : Shared α} (step : Step s s') : Logged s' := by
  cases step with
  | start t _ => exact h.conduct t _
  | leased t _ =>
      have noted := h.note (t := t) (m := .leased) rfl (by simp)
      exact noted.conduct t _
  | notLeased t e _ => exact h.conduct t _
  | answer t id c ok e _ there =>
      have free : Logged (s.modify t fun p => { p with awaiting := none }) :=
        h.modify _ fun _ => rfl
      have noted := free.note (t := t) (m := .answered id c ok) rfl
        (by rintro id c ok ⟨⟩; exact there)
      exact noted.conduct t _
  | work t c detached _ => exact h.submitFor rfl detached
  | unitDone t outcome _ =>
      have noted := h.note (t := t) (m := .unitEnded outcome.isValue) rfl (by simp)
      exact noted.conduct t _
  | drop t _ =>
      have left : Logged { s with queue := s.leftQueue t } := by
        rw [leftQueue]
        split
        · exact h.leave _
        · exact h
      have free := left.modify (t := t) (fun p => { p with awaiting := none }) fun _ => rfl
      have noted := free.note (t := t) (m := .dropped) rfl (by simp)
      exact noted.conduct t _
  | submit c detached => exact h.enqueue rfl detached
  | leave id _ => exact h.leave id
  | turn => exact h.turn
  | complete i ok after current _ =>
      refine h.serve _ _ _ (fun refuses => refuses) (List.Sublist.refl _)
        ?_ ?_ fun _ mem => List.mem_append_left _ mem
      · intro j mem
        rcases List.mem_append.mp mem with mem | mem
        · exact List.mem_append_left _ (List.mem_append_right _ mem)
        · rw [List.map_append] at mem
          rcases List.mem_append.mp mem with mem | mem
          · exact List.mem_append_right _ mem
          · obtain ⟨e, is_ended, rfl⟩ := List.mem_map.mp mem
            have in_flight : e.2 ∈ s.queue.current := (mem_ended is_ended).2 ▸ current
            exact List.mem_append_left _ (List.mem_append_left _ (Option.mem_toList.mpr in_flight))
      · rw [numbers, queued, current]
        show List.Subperm (s.queue.pending.map WorkItem.id ++
          (s.replies ++ [i].map fun i => (i.id, ok)).map Prod.fst) _
        rw [map_fst_replies, ← List.append_assoc]
        exact (List.perm_append_singleton _ _).subperm
  | crash i current =>
      refine h.serve _ _ _ (fun _ => Bool.or_true _) ?_
        (fun _ mem => List.mem_append_right _ mem) ?_
        fun _ mem => List.mem_append_left _ mem
      · exact ((List.nil_sublist _).append_left s.started).map _
      · rw [numbers, queued, current, map_fst_replies]
        show List.Subperm (s.replies.map Prod.fst ++ (i :: s.queue.pending).map WorkItem.id)
          ((i :: s.queue.pending).map WorkItem.id ++ s.replies.map Prod.fst)
        exact List.perm_append_comm.subperm
  | requestClose =>
      exact h.serve _ _ _ (fun _ => rfl) (List.Sublist.refl _) (fun _ mem => mem)
        (List.Subperm.refl _) fun _ mem => mem

end Logged

theorem Reachable.logged {s : Shared α} (h : Reachable s) : Logged s := by
  obtain ⟨mode, steps⟩ := h
  induction steps with
  | refl => exact .new mode
  | tail _ step ih => exact ih.step step

end Shared

end ConnectionPool
