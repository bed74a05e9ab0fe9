import ConnectionPool.Proofs.Shared.Log

/-!
# Effects on a shared connection

What a step does to the connection is one of a few things: somebody leaves operations and
adds others, the queue goes on, the operation in flight is over, or it broke the
connection.  `Step.effect` says so of every step, as `Step.moves` does for the parties.
-/

namespace ConnectionPool

/-! ## Leaving an operation -/

/-- An operation as it is, or abandoned. -/
structure WorkItem.Marked (i j : WorkItem Request) : Prop where
  /-- It is the same work. -/
  work : j.work = i.work
  /-- It is as detached as before. -/
  detached : j.detached = i.detached
  /-- It stays given up. -/
  givenUp : i.isGivenUp → j.isGivenUp

namespace WorkItem.Marked

variable {i : WorkItem Request}

theorem refl (i : WorkItem Request) : Marked i i := ⟨rfl, rfl, fun givenUp => givenUp⟩

theorem markAbandoned (id : Nat) (i : WorkItem Request) :
    Marked i (WorkQueue.markAbandoned id i) := by
  rw [WorkQueue.markAbandoned]
  split
  · exact ⟨rfl, rfl, fun givenUp => (Bool.and_eq_true _ _).mpr
      ⟨rfl, ((Bool.and_eq_true _ _).mp givenUp).2⟩⟩
  · exact refl i

end WorkItem.Marked

namespace Shared

variable {α : Type} {s s' : Shared α} {t : Nat}

/-- What a step does to the connection. -/
inductive Effect (s : Shared α) (s' : Shared α) : Prop where
  /-- Operations are left, and others are added.  A transaction that is over adds none. -/
  | asked (mark : WorkItem Request → WorkItem Request) (more : List (WorkItem Request)) :
      (∀ i, WorkItem.Marked i (mark i)) →
      s'.queue.pending = s.queue.pending.map mark ++ more →
      s'.queue.current = s.queue.current.map mark →
      (∀ t, s.phase t = .finished → ∀ i ∈ more, i.work.author ≠ .coordinator t) →
      s'.holder = s.holder → s'.ends = s.ends → Effect s s'
  /-- The queue goes on. -/
  | turned : Turned s s' → Effect s s'
  /-- The operation in flight is over. -/
  | completed (i : WorkItem Request) (ok : Bool) (after : Option Author) :
      s.queue.current = some i →
      i.work.control.allows i.work.author s.holder after ok →
      s' = s.complete i ok after → Effect s s'
  /-- The operation in flight broke the connection. -/
  | crashed (i : WorkItem Request) : s' = s.crash i → Effect s s'

/-! ## Coordinators -/

/-- Some operations are added to the queue, and that is all there is to the connection. -/
structure Adds (s s' : Shared α) (more : List (WorkItem Request)) : Prop where
  /-- The queue has them at its end. -/
  queue : s'.queue = { s.queue with pending := s.queue.pending ++ more }
  /-- The same transaction is open. -/
  holder : s'.holder = s.holder
  /-- None has ended. -/
  ends : s'.ends = s.ends

namespace Adds

theorem refl (s : Shared α) : Adds s s [] := ⟨by rw [List.append_nil], rfl, rfl⟩

theorem trans {s'' : Shared α} {more more' : List (WorkItem Request)} (h : Adds s s' more)
    (h' : Adds s' s'' more') : Adds s s'' (more ++ more') where
  queue := by rw [h'.queue, h.queue, List.append_assoc]
  holder := h'.holder.trans h.holder
  ends := h'.ends.trans h.ends

theorem modify (s : Shared α) (t : Nat) (f : Party α → Party α) : Adds s (s.modify t f) [] :=
  ⟨by rw [List.append_nil]; rfl, rfl, rfl⟩

theorem note (s : Shared α) (t : Nat) (m : Mark) : Adds s (s.note t m) [] := modify s t _

theorem enqueue (s : Shared α) (r : Request) (detached : Bool) :
    ∃ more, Adds s (s.enqueue r detached) more ∧ ∀ i ∈ more, i.work = r := by
  cases accepts : s.queue.refuses with
  | true =>
      rw [Logged.enqueue_refused accepts]
      exact ⟨[], ⟨by rw [List.append_nil], rfl, rfl⟩, nofun⟩
  | false =>
      rw [Logged.enqueue_accepted accepts]
      refine ⟨_, ⟨rfl, rfl, rfl⟩, fun i mem => ?_⟩
      rw [List.mem_singleton.mp mem]

theorem submitFor (s : Shared α) (t : Nat) (r : Request) (detached : Bool) :
    ∃ more, Adds s (s.submitFor t r detached) more ∧ ∀ i ∈ more, i.work = r := by
  obtain ⟨more, adds, works⟩ := enqueue s r detached
  refine ⟨more, ?_, works⟩
  have all := adds.trans (note (s.enqueue r detached) t
    (.submitted s.fresh r detached (!s.queue.refuses)))
  rwa [List.append_nil] at all

theorem perform (t : Nat) (s : Shared α) (a : Transaction.Action α) :
    ∃ more, Adds s (Shared.perform t s a) more ∧ ∀ i ∈ more, i.work.author = .coordinator t := by
  cases a with
  | trace _ target => exact ⟨[], note s t (.state target), nofun⟩
  | submit sql =>
      obtain ⟨more, adds, works⟩ := submitFor s t ⟨.coordinator t, Control.ofStatement sql⟩ false
      refine ⟨more, ?_, fun i mem => by rw [works i mem]⟩
      have all := adds.trans (modify _ t fun p =>
        { p with awaiting := some (s.fresh, Control.ofStatement sql) })
      rwa [List.append_nil] at all
  | detach sql =>
      obtain ⟨more, adds, works⟩ := submitFor s t ⟨.coordinator t, Control.ofStatement sql⟩ true
      exact ⟨more, adds, fun i mem => by rw [works i mem]⟩
  | release => exact ⟨[], note s t .released, nofun⟩
  | acquire | runUnit | noteRollbackFailed | noteDropped _ | conclude _ =>
      exact ⟨[], .refl s, nofun⟩

theorem conduct (s : Shared α) (t : Nat) (e : Transaction.Event α) :
    ∃ more, Adds s (s.conduct t e) more ∧ ∀ i ∈ more, i.work.author = .coordinator t := by
  refine conduct_induction (P := fun s' => ∃ more, Adds s s' more ∧
    ∀ i ∈ more, i.work.author = .coordinator t) t e (fun _ => ⟨[], modify s t _, nofun⟩) ?_
  rintro s' a ⟨more, adds, own⟩
  obtain ⟨more', adds', own'⟩ := perform t s' a
  refine ⟨more ++ more', adds.trans adds', fun i mem => ?_⟩
  exact (List.mem_append.mp mem).elim (own i) (own' i)

/-- What is added by others than the transactions that are over. -/
theorem effect {more : List (WorkItem Request)} (h : Adds s s' more)
    (others : ∀ t, s.phase t = .finished → ∀ i ∈ more, i.work.author ≠ .coordinator t) :
    Effect s s' :=
  .asked id more .refl (by rw [h.queue, List.map_id]) (by rw [h.queue, Option.map_id]; rfl)
    others h.holder h.ends

end Adds

/-- A coordinator that is not over takes a step. -/
theorem conduct_effect (going : s.phase t ≠ .finished) {before : Shared α} (same : Adds s before [])
    (e : Transaction.Event α) : Effect s (before.conduct t e) := by
  obtain ⟨more, adds, own⟩ := Adds.conduct before t e
  refine (same.trans adds).effect fun u finished i mem is => ?_
  have eq : t = u := Author.coordinator.inj ((own i mem).symm.trans is)
  exact going (eq ▸ finished)

/-- A transaction leaves one operation at most. -/
theorem leftQueue_marked (s : Shared α) (t : Nat) : ∃ mark : WorkItem Request → WorkItem Request,
    (∀ i, WorkItem.Marked i (mark i)) ∧ (s.leftQueue t).pending = s.queue.pending.map mark ∧
      (s.leftQueue t).current = s.queue.current.map mark := by
  rw [leftQueue]
  split
  · exact ⟨_, .markAbandoned _, rfl, rfl⟩
  · exact ⟨id, .refl, (List.map_id _).symm, Option.map_id.symm ▸ rfl⟩

/-! ## Steps -/

theorem Step.effect (reachable : Reachable s) (h : Step s s') : Effect s s' := by
  cases h with
  | start t idle => exact conduct_effect (by rw [idle]; nofun) (.refl s) _
  | leased t acquiring => exact conduct_effect (by rw [acquiring]; nofun) (.modify s t _) _
  | notLeased t e acquiring => exact conduct_effect (by rw [acquiring]; nofun) (.refl s) _
  | answer t id c ok e awaits _ =>
      -- one that is over waits for nothing
      have going : s.phase t ≠ .finished := by
        intro finished
        have eq := (reachable.onCourse t).awaits_eq awaits
        rw [← phase_eq, finished] at eq
        cases eq
      exact conduct_effect going ((Adds.modify s t _).trans (.modify _ t _)) _
  | work t c detached _ =>
      obtain ⟨more, adds, works⟩ := Adds.submitFor s t ⟨.work t, c⟩ detached
      exact adds.effect fun u _ i mem => by rw [works i mem]; nofun
  | unitDone t outcome running =>
      exact conduct_effect (by rw [running]; nofun) (.modify s t _) _
  | drop t active =>
      obtain ⟨mark, marks, pending, current⟩ := leftQueue_marked s t
      have same : Adds { s with queue := s.leftQueue t } _ _ :=
        (Adds.modify _ t fun p => { p with awaiting := none }).trans (.note _ t .dropped)
      obtain ⟨more, adds, own⟩ := Adds.conduct _ t (.dropped : Transaction.Event α)
      have all := same.trans adds
      refine .asked mark more marks ?_ ?_ ?_ all.holder all.ends
      · exact (congrArg WorkQueue.pending all.queue).trans (by rw [← pending]; rfl)
      · exact (congrArg WorkQueue.current all.queue).trans current
      · intro u finished i mem is
        have eq : t = u := Author.coordinator.inj ((own i mem).symm.trans is)
        rw [eq, finished] at active
        cases active
  | submit c detached =>
      obtain ⟨more, adds, works⟩ := Adds.enqueue s ⟨.other, c⟩ detached
      exact adds.effect fun u _ i mem => by rw [works i mem]; nofun
  | leave id _ =>
      exact .asked (WorkQueue.markAbandoned id) [] (.markAbandoned id) (List.append_nil _).symm rfl
        nofun rfl rfl
  | turn => exact .turned s.turned
  | complete i ok after current allowed => exact .completed i ok after current allowed rfl
  | crash i _ => exact .crashed i rfl
  | requestClose =>
      exact .asked id [] .refl (by rw [List.map_id, List.append_nil]; rfl)
        (by rw [Option.map_id]; rfl) nofun rfl rfl

end Shared

end ConnectionPool
