import ConnectionPool.Error
import ConnectionPool.Proofs.Keyed
import ConnectionPool.WorkQueue
import Mathlib.Data.List.Induction

/-!
# Histories of queues

A history is the list of what happened to the operations of a queue.  `Follows` is its law:
it says of each mark what must have come before it, and `Lawful` that every mark obeys it.
The law does not speak of queues.  What holds of a whole history follows from it: no
submission ends twice, operations are started in the order of submission, a detached
operation is done unless it is cancelled, and what was not started when closing was asked
for is cancelled.
-/

namespace ConnectionPool

namespace WorkQueue

variable {α ρ : Type}

/-! ## Marks -/

/-- How an operation ends that was accepted. -/
inductive Ending (ρ : Type) where
  /-- Its caller gets its result. -/
  | delivered (r : Except ConnectionError ρ)
  /-- It is over, and nobody waits for its result. -/
  | done
  /-- It is passed over, because its caller left. -/
  | skipped
  /-- It is started and given up, because its caller left. -/
  | abandoned
  /-- It is not started, because the queue is closed. -/
  | cancelled

/-- Something that happened to a queue. -/
inductive Mark (α ρ : Type) where
  /-- An operation was submitted and accepted, or refused. -/
  | submitted (id : Nat) (work : α) (detached accepted : Bool)
  /-- The caller of an operation left. -/
  | left (id : Nat)
  /-- An operation was started. -/
  | started (id : Nat) (work : α)
  /-- The operation in flight begins to pause. -/
  | paused (id : Nat)
  /-- It is tried again. -/
  | resumed (id : Nat)
  /-- It returned a result. -/
  | returned (id : Nat) (r : Except ConnectionError ρ)
  /-- An operation ended. -/
  | ended (id : Nat) (e : Ending ρ)
  /-- Closing was asked for. -/
  | closing

namespace Mark

/-- The submission that a mark is about. -/
@[simp] def id? : Mark α ρ → Option Nat
  | submitted id _ _ _ | left id | started id _ | paused id | resumed id | returned id _
  | ended id _ => some id
  | closing => none

/-- The operation that was accepted. -/
@[simp] def accepted? : Mark α ρ → Option (WorkItem α)
  | submitted id work detached true => some { id, work, detached }
  | _ => none

/-- The operation that was started. -/
@[simp] def started? : Mark α ρ → Option (Nat × α)
  | started id work => some (id, work)
  | _ => none

/-- What whoever waits for a submission is told. -/
def told? : Mark α ρ → Option (Nat × Except ConnectionError ρ)
  | submitted id _ _ false => some (id, .error .closed)
  | ended id (.delivered r) => some (id, r)
  | ended id .cancelled => some (id, .error .cancelled)
  | _ => none

/-- The submission ended, or was refused. -/
@[simp] def isEnd (id : Nat) : Mark α ρ → Bool
  | ended n _ | submitted n _ _ false => n == id
  | _ => false

/-- Its caller left. -/
@[simp] def isLeft (id : Nat) : Mark α ρ → Bool
  | left n => n == id
  | _ => false

/-- It was started. -/
@[simp] def isStart (id : Nat) : Mark α ρ → Bool
  | started n _ => n == id
  | _ => false

/-- Closing was asked for. -/
@[simp] def isClosing : Mark α ρ → Bool
  | closing => true
  | _ => false

/-- Somebody waits for the result of the submission. -/
@[simp] def isAwaited (id : Nat) : Mark α ρ → Bool
  | submitted n _ false true => n == id
  | _ => false

/-- The submission pauses after this mark, given whether it did before. -/
@[simp] def pauses (id : Nat) (before : Bool) : Mark α ρ → Bool
  | paused n => if n = id then true else before
  | resumed n => if n = id then false else before
  | _ => before

end Mark

/-! ## What a history says -/

section History

variable (h : List (Mark α ρ)) (id : Nat)

/-- The operations that were accepted, in order. -/
def accepted : List (WorkItem α) := h.filterMap Mark.accepted?

/-- The operations that were started, in order. -/
def dispatched : List (Nat × α) := h.filterMap Mark.started?

/-- The submission ended, or was refused. -/
def hasEnded : Bool := h.any (·.isEnd id)

/-- The caller of the submission left. -/
def hasLeft : Bool := h.any (·.isLeft id)

/-- The submission was started. -/
def hasStarted : Bool := h.any (·.isStart id)

/-- Closing was asked for. -/
def isClosed : Bool := h.any (·.isClosing)

/-- The submission pauses. -/
def isPaused : Bool := h.foldl (Mark.pauses id) false

/-- The submission was started and has not ended. -/
def inFlight : Bool := hasStarted h id && !hasEnded h id

end History

/-- The law of histories: what must have come before each mark. -/
inductive Follows (h : List (Mark α ρ)) : Mark α ρ → Prop where
  /-- A submission is a new one.  It is accepted until closing is asked for. -/
  | submitted {id : Nat} (work : α) (detached : Bool) : (∀ m ∈ h, m.id? ≠ some id) →
      Follows h (.submitted id work detached (!isClosed h))
  /-- Who leaves waited for the result. -/
  | left {id : Nat} : h.any (·.isAwaited id) → Follows h (.left id)
  /-- Submissions are started in order, one at a time, before closing is asked for, and
  not without their callers. -/
  | started {earlier later : List (WorkItem α)} {i : WorkItem α} :
      accepted h = earlier ++ i :: later → (∀ j ∈ earlier, hasEnded h j.id) →
      (∀ n, hasStarted h n → hasEnded h n) → hasEnded h i.id = false →
      hasLeft h i.id = false → isClosed h = false → Follows h (.started i.id i.work)
  /-- What pauses is in flight. -/
  | paused {id : Nat} : inFlight h id → isPaused h id = false → Follows h (.paused id)
  /-- What is tried again paused. -/
  | resumed {id : Nat} : inFlight h id → isPaused h id → Follows h (.resumed id)
  /-- What returns is in flight.  While it pauses it returns only because closing was asked
  for. -/
  | returned {id : Nat} {r : Except ConnectionError ρ} : inFlight h id →
      (isPaused h id → isClosed h ∧ r = .error .cancelled) → Follows h (.returned id r)
  /-- Closing may be asked for at any time. -/
  | closing : Follows h .closing
  /-- A result goes to the caller of what returned it. -/
  | delivered {id : Nat} {r : Except ConnectionError ρ} : .returned id r ∈ h →
      h.any (·.isAwaited id) → hasLeft h id = false → inFlight h id →
      Follows h (.ended id (.delivered r))
  /-- Nobody waits for the result of a detached operation. -/
  | done {id : Nat} {r : Except ConnectionError ρ} {work : α} : .returned id r ∈ h →
      .submitted id work true true ∈ h → inFlight h id → Follows h (.ended id .done)
  /-- A submission is skipped when its caller left, unless closing was asked for. -/
  | skipped {id : Nat} : h.any (·.isAwaited id) → hasLeft h id → hasStarted h id = false →
      isClosed h = false → hasEnded h id = false → Follows h (.ended id .skipped)
  /-- What is in flight is abandoned when its caller left. -/
  | abandoned {id : Nat} : hasLeft h id → inFlight h id → Follows h (.ended id .abandoned)
  /-- What was not started when closing was asked for is cancelled, when nothing is in
  flight. -/
  | cancelled {id : Nat} {work : α} {detached : Bool} : .submitted id work detached true ∈ h →
      isClosed h → (∀ n, hasStarted h n → hasEnded h n) → hasEnded h id = false →
      Follows h (.ended id .cancelled)

/-- Every mark of the history obeys the law. -/
inductive Lawful : List (Mark α ρ) → Prop where
  | nil : Lawful []
  | snoc {h : List (Mark α ρ)} {m : Mark α ρ} : Lawful h → Follows h m → Lawful (h ++ [m])

variable {h : List (Mark α ρ)} {m : Mark α ρ} {id : Nat}

/-! ## Histories that grow -/

@[simp] theorem accepted_snoc : accepted (h ++ [m]) = accepted h ++ m.accepted?.toList := by
  rw [accepted, List.filterMap_append]
  cases eq : m.accepted? with
  | none => rw [List.filterMap_cons_none eq]; rfl
  | some i => rw [List.filterMap_cons_some eq]; rfl

@[simp] theorem dispatched_snoc : dispatched (h ++ [m]) = dispatched h ++ m.started?.toList := by
  rw [dispatched, List.filterMap_append]
  cases eq : m.started? with
  | none => rw [List.filterMap_cons_none eq]; rfl
  | some i => rw [List.filterMap_cons_some eq]; rfl

@[simp] theorem hasEnded_snoc : hasEnded (h ++ [m]) id = (hasEnded h id || m.isEnd id) := by
  simp [hasEnded]

@[simp] theorem hasLeft_snoc : hasLeft (h ++ [m]) id = (hasLeft h id || m.isLeft id) := by
  simp [hasLeft]

@[simp] theorem hasStarted_snoc :
    hasStarted (h ++ [m]) id = (hasStarted h id || m.isStart id) := by
  simp [hasStarted]

@[simp] theorem isClosed_snoc : isClosed (h ++ [m]) = (isClosed h || m.isClosing) := by
  simp [isClosed]

theorem hasStarted_append {after : List (Mark α ρ)} :
    hasStarted (h ++ after) id = (hasStarted h id || hasStarted after id) := List.any_append

theorem isClosed_append {after : List (Mark α ρ)} :
    isClosed (h ++ after) = (isClosed h || isClosed after) := List.any_append

@[simp] theorem isPaused_snoc : isPaused (h ++ [m]) id = m.pauses id (isPaused h id) := by
  simp [isPaused]

theorem mem_accepted {i : WorkItem α} : i ∈ accepted h ↔
    i.abandoned = false ∧ .submitted i.id i.work i.detached true ∈ h := by
  rw [accepted, List.mem_filterMap]
  constructor
  · rintro ⟨m, mem, eq⟩
    cases m with
    | submitted id work detached accepted =>
        cases accepted with
        | true =>
            obtain rfl := Option.some.inj eq
            exact ⟨rfl, mem⟩
        | false => cases eq
    | left _ | started _ _ | paused _ | resumed _ | returned _ _ | ended _ _ | closing => cases eq
  · rintro ⟨fine, mem⟩
    refine ⟨_, mem, ?_⟩
    obtain ⟨id, work, detached, abandoned⟩ := i
    rw [show abandoned = false from fine]
    rfl

theorem any_isAwaited : h.any (·.isAwaited id) ↔
    ∃ work, (.submitted id work false true : Mark α ρ) ∈ h := by
  rw [List.any_eq_true]
  constructor
  · rintro ⟨m, mem, is⟩
    cases m with
    | submitted n work detached accepted =>
        cases detached <;> cases accepted <;>
          first | cases is | exact ⟨work, beq_iff_eq.mp is ▸ mem⟩
    | left _ | started _ _ | paused _ | resumed _ | returned _ _ | ended _ _ | closing => cases is
  · rintro ⟨work, mem⟩
    exact ⟨_, mem, beq_self_eq_true id⟩

namespace Mark

theorem id?_of_isEnd (is : m.isEnd id) : m.id? = some id := by
  cases m with
  | submitted n work detached accepted =>
      cases accepted with
      | true => cases is
      | false => exact congrArg some (beq_iff_eq.mp is)
  | ended n e => exact congrArg some (beq_iff_eq.mp is)
  | left _ | started _ _ | paused _ | resumed _ | returned _ _ | closing => cases is

theorem id?_of_isLeft (is : m.isLeft id) : m.id? = some id := by
  cases m with
  | left n => exact congrArg some (beq_iff_eq.mp is)
  | submitted _ _ _ _ | started _ _ | paused _ | resumed _ | returned _ _ | ended _ _
  | closing => cases is

theorem id?_of_isStart (is : m.isStart id) : m.id? = some id := by
  cases m with
  | started n work => exact congrArg some (beq_iff_eq.mp is)
  | submitted _ _ _ _ | left _ | paused _ | resumed _ | returned _ _ | ended _ _
  | closing => cases is

end Mark

theorem any_snoc {q : Mark α ρ → Bool} (is : h.any q) : (h ++ [m]).any q := by
  rw [List.any_append, is, Bool.true_or]

theorem hasStarted_iff : hasStarted h id ↔ ∃ work, (id, work) ∈ dispatched h := by
  simp only [hasStarted, dispatched, List.any_eq_true, List.mem_filterMap]
  constructor
  · rintro ⟨m, mem, is⟩
    cases m with
    | started n work =>
        obtain rfl := beq_iff_eq.mp is
        exact ⟨work, _, mem, rfl⟩
    | submitted _ _ _ _ | left _ | paused _ | resumed _ | returned _ _ | ended _ _
    | closing => cases is
  · rintro ⟨work, m, mem, eq⟩
    cases m with
    | started n other =>
        obtain ⟨rfl, rfl⟩ := Option.some.inj eq
        exact ⟨_, mem, beq_self_eq_true _⟩
    | submitted _ _ _ _ | left _ | paused _ | resumed _ | returned _ _ | ended _ _
    | closing => cases eq

/-- Nothing happened yet to what has a new number. -/
theorem unused (new : ∀ m ∈ h, m.id? ≠ some id) :
    hasEnded h id = false ∧ hasLeft h id = false ∧ hasStarted h id = false := by
  simp only [hasEnded, hasLeft, hasStarted, List.any_eq_false]
  exact ⟨fun m mem is => new m mem (Mark.id?_of_isEnd is),
    fun m mem is => new m mem (Mark.id?_of_isLeft is),
    fun m mem is => new m mem (Mark.id?_of_isStart is)⟩

theorem hasEnded_of_inFlight (flies : inFlight h id) : hasEnded h id = false :=
  Bool.not_eq_true' _ ▸ (Bool.and_eq_true_iff.mp flies).2

theorem hasStarted_of_inFlight (flies : inFlight h id) : hasStarted h id :=
  (Bool.and_eq_true_iff.mp flies).1

/-- What ends has not ended before. -/
theorem Follows.first_end (law : Follows h m) (ends : m.isEnd id) : hasEnded h id = false := by
  cases law with
  | @submitted n work detached new =>
      have same : n = id := by simpa using Mark.id?_of_isEnd ends
      exact (unused (same ▸ new)).1
  | delivered _ _ _ flies | done _ _ flies | abandoned _ flies =>
      exact beq_iff_eq.mp ends ▸ hasEnded_of_inFlight flies
  | skipped _ _ _ _ going | cancelled _ _ _ going => exact beq_iff_eq.mp ends ▸ going
  | left _ | started _ _ _ _ _ _ | paused _ _ | resumed _ _ | returned _ _ | closing => cases ends

/-! ## Lawful histories -/

namespace Lawful

theorem of_snoc (lawful : Lawful (h ++ [m])) : Lawful h ∧ Follows h m := by
  generalize eq : h ++ [m] = whole at lawful
  cases lawful with
  | nil => simp at eq
  | snoc lawful law =>
      obtain ⟨rfl, same⟩ := List.append_inj' eq rfl
      obtain rfl := List.singleton_inj.mp same
      exact ⟨lawful, law⟩

theorem of_append {before after : List (Mark α ρ)} (lawful : Lawful (before ++ after)) :
    Lawful before := by
  induction after using List.reverseRecOn with
  | nil => rwa [List.append_nil] at lawful
  | append_singleton after m ih =>
      rw [← List.append_assoc] at lawful
      exact ih lawful.of_snoc.1

theorem follows {before after : List (Mark α ρ)} (lawful : Lawful (before ++ m :: after)) :
    Lawful before ∧ Follows before m := by
  rw [← List.singleton_append, ← List.append_assoc] at lawful
  exact lawful.of_append.of_snoc

/-- Who left waited for the result. -/
theorem awaited_of_left (lawful : Lawful h) (left : hasLeft h id) :
    h.any (·.isAwaited id) := by
  induction lawful with
  | nil => cases left
  | @snoc h m _ law ih =>
      rw [hasLeft_snoc, Bool.or_eq_true_iff] at left
      rcases left with before | now
      · exact any_snoc (ih before)
      · cases law with
        | left awaited => exact any_snoc (beq_iff_eq.mp now ▸ awaited)
        | _ => cases now

theorem keyed (lawful : Lawful h) : Keyed WorkItem.id (accepted h) := by
  induction lawful with
  | nil => exact List.nodup_nil
  | @snoc h m _ law ih =>
      rw [accepted_snoc]
      cases eq : m.accepted? with
      | none => simpa using ih
      | some i =>
          refine ih.append fun j mem same => ?_
          cases law with
          | submitted work detached new =>
              refine new _ (mem_accepted.mp mem).2 (congrArg some (same.trans ?_))
              cases open_ : isClosed h with
              | true => simp [open_] at eq
              | false =>
                  simp [open_] at eq
                  exact congrArg WorkItem.id eq.symm
          | _ => cases eq

/-- Nobody waits for a detached operation. -/
theorem unawaited (lawful : Lawful h) {work : α}
    (detached : .submitted id work true true ∈ h) : h.any (·.isAwaited id) = false := by
  rw [Bool.eq_false_iff]
  intro awaited
  obtain ⟨other, awaited⟩ := any_isAwaited.mp awaited
  have mine : ({ id, work, detached := true } : WorkItem α) ∈ accepted h :=
    mem_accepted.mpr ⟨rfl, detached⟩
  have theirs : ({ id, work := other } : WorkItem α) ∈ accepted h :=
    mem_accepted.mpr ⟨rfl, awaited⟩
  cases congrArg WorkItem.detached (lawful.keyed.eq_of_mem mine theirs rfl)

theorem once (lawful : Lawful h) (id : Nat) : h.countP (·.isEnd id) ≤ 1 := by
  induction lawful with
  | nil => exact Nat.zero_le 1
  | @snoc h m _ law ih =>
      rw [List.countP_append, List.countP_singleton]
      cases ends : m.isEnd id with
      | false => exact ih
      | true =>
          have first := law.first_end ends
          rw [hasEnded, List.any_eq_false] at first
          rw [List.countP_eq_zero.mpr first]
          exact Nat.le_refl 1

/-- An operation is started only when those before it have ended. -/
theorem ordered (lawful : Lawful h) :
    (accepted h).Pairwise fun i j => hasStarted h j.id → hasEnded h i.id := by
  induction lawful with
  | nil => exact .nil
  | @snoc h m lawful law ih =>
      have still : (accepted h).Pairwise fun i j =>
          hasStarted h j.id → hasEnded (h ++ [m]) i.id :=
        ih.imp fun gone started => by rw [hasEnded_snoc, gone started, Bool.true_or]
      cases law with
      | @submitted id work detached new =>
          have waits := (unused new).2.2
          rw [accepted_snoc]
          simp only [hasStarted_snoc, Mark.isStart, Bool.or_false]
          refine List.pairwise_append.mpr ⟨still, ?_, ?_⟩
          · cases isClosed h <;> simp
          · intro i _ j mem started
            have new : j.id = id := by
              cases closed : isClosed h <;> simp [closed] at mem
              rw [mem]
            rw [new, waits] at started
            cases started
      | @started earlier later i order gone _ _ _ _ =>
          have keyed := order ▸ lawful.keyed
          have later_ne : ∀ j ∈ later, j.id ≠ i.id := fun j mem => keyed.ne_of_mem_tail mem
          rw [order, List.pairwise_append, List.pairwise_cons] at still
          obtain ⟨-, ⟨head, tail⟩, -⟩ := still
          have gone : ∀ j ∈ earlier, hasEnded (h ++ [.started i.id i.work]) j.id := by
            intro j mem
            rw [hasEnded_snoc, gone j mem, Bool.true_or]
          rw [accepted_snoc, order]
          simp only [Mark.accepted?, Option.toList_none, List.append_nil, hasStarted_snoc,
            Mark.isStart, Bool.or_eq_true_iff, beq_iff_eq]
          refine List.pairwise_append.mpr ⟨?_, List.pairwise_cons.mpr ⟨?_, ?_⟩, ?_⟩
          · exact List.pairwise_of_forall_mem_list fun j mem _ _ _ => gone j mem
          · rintro j mem (started | same)
            · exact head j mem started
            · cases later_ne j mem same.symm
          · refine tail.imp_of_mem fun _ mem before => ?_
            rintro (started | same)
            · exact before started
            · cases later_ne _ mem same.symm
          · exact fun j mem _ _ _ => gone j mem
      | _ => simpa using still

theorem dispatched_sublist (lawful : Lawful h) :
    (dispatched h).Sublist ((accepted h).map fun i => (i.id, i.work)) := by
  induction lawful with
  | nil => exact .slnil
  | @snoc h m lawful law ih =>
      cases law with
      | @submitted id work detached new =>
          rw [dispatched_snoc, accepted_snoc, List.map_append]
          simpa using ih.trans (List.sublist_append_left _ _)
      | @started earlier later i order _ gone going _ _ =>
          -- what was started before has ended, so it stands before this one
          have ordered := lawful.ordered
          rw [order, List.pairwise_append, List.pairwise_cons] at ordered
          rw [order, List.map_append] at ih
          obtain ⟨before, behind, eq, sub, behind_sub⟩ := List.sublist_append_iff.mp ih
          have none : behind = [] := by
            rw [List.eq_nil_iff_forall_not_mem]
            intro p mem
            have started : hasStarted h p.1 :=
              hasStarted_iff.mpr ⟨p.2, eq ▸ List.mem_append_right before mem⟩
            have ended : hasEnded h i.id := by
              obtain ⟨j, place, rfl⟩ := List.mem_map.mp (behind_sub.subset mem)
              rcases List.mem_cons.mp place with rfl | later
              · exact gone j.id started
              · exact ordered.2.1.1 j later started
            cases going.symm.trans ended
          rw [none, List.append_nil] at eq
          rw [dispatched_snoc, accepted_snoc, order, eq]
          simpa using sub.append (List.Sublist.cons_cons (i.id, i.work) (List.nil_sublist _))
      | _ => simpa using ih

/-- A detached operation is done, unless it is cancelled because closing was asked for. -/
theorem detached_end (lawful : Lawful h) {work : α} {e : Ending ρ}
    (detached : .submitted id work true true ∈ h) (ended : .ended id e ∈ h) :
    e = .done ∨ e = .cancelled ∧ isClosed h := by
  have unawaited := lawful.unawaited detached
  obtain ⟨before, after, rfl⟩ := List.append_of_mem ended
  rw [List.any_append, Bool.or_eq_false_iff] at unawaited
  obtain ⟨earlier, law⟩ := lawful.follows
  cases law with
  | delivered _ awaited | skipped awaited => cases unawaited.1.symm.trans awaited
  | done => exact .inl rfl
  | abandoned left => cases unawaited.1.symm.trans (earlier.awaited_of_left left)
  | cancelled _ closed => exact .inr ⟨rfl, by rw [isClosed_append, closed, Bool.true_or]⟩

/-- Nothing is started after closing was asked for. -/
theorem hasStarted_closing {before after : List (Mark α ρ)}
    (lawful : Lawful (before ++ .closing :: after)) :
    hasStarted (before ++ .closing :: after) id = hasStarted before id := by
  have none : hasStarted after id = false := by
    rw [hasStarted, List.any_eq_false]
    intro m mem is
    obtain ⟨a, b, rfl⟩ := List.append_of_mem mem
    rw [← List.cons_append, ← List.append_assoc] at lawful
    cases lawful.follows.2 with
    | started _ _ _ _ _ accepts => simp [isClosed] at accepts
    | _ => cases is
  rw [hasStarted_append]
  exact (congrArg _ none).trans (Bool.or_false _)

/-- What was not started when closing was asked for is cancelled. -/
theorem cancelled_after {before after : List (Mark α ρ)} {e : Ending ρ}
    (lawful : Lawful (before ++ .closing :: after)) (ended : .ended id e ∈ after)
    (new : hasStarted before id = false) : e = .cancelled := by
  obtain ⟨a, b, rfl⟩ := List.append_of_mem ended
  rw [← List.cons_append, ← List.append_assoc] at lawful
  obtain ⟨lawful, law⟩ := lawful.follows
  rw [← lawful.hasStarted_closing] at new
  cases law with
  | delivered _ _ _ flies | done _ _ flies | abandoned _ flies =>
      cases new.symm.trans (hasStarted_of_inFlight flies)
  | skipped _ _ _ accepts => simp [isClosed] at accepts
  | cancelled => rfl

end Lawful

end WorkQueue

end ConnectionPool
