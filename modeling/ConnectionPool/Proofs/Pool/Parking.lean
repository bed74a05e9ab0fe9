import ConnectionPool.Proofs.Pool.NextInLine

/-!
# Lining up for a lock retry

Whoever lines up for a lock retry sweeps the dead waiters out of the queue, wakes the first of
the others or nobody, and stands behind those who are left.  He comes with a wake that he owes,
or without one, and in autocommit mode he wakes somebody in any case.

`LinesUp` says what comes of that in the queue, in the slots and with the wake he owes.  It holds
in whatever state the books are, since it rests on one thing: among live waiters the one who is
served is the first, or nobody is (`Served.of_live`).
-/

namespace ConnectionPool

namespace Waiter

variable {limit n n' : Nat} {ws rest : List Waiter} {result : Option Waiter}

/-- Where all are alive nobody is passed over. -/
theorem Served.of_live (served : Served limit ws n (rest, n', result)) (live : ∀ w ∈ ws, w.live) :
    ws = result.toList ++ rest := by
  have alive : ∀ {dead rest : List Waiter} {w : Waiter},
      (∀ v ∈ dead ++ w :: rest, v.live) → (∀ d ∈ dead, d.live = false) → dead = [] := by
    intro dead rest w live none_live
    refine List.eq_nil_iff_forall_not_mem.mpr fun d mem => ?_
    have is := live d (List.mem_append_left _ mem)
    rw [none_live d mem] at is
    cases is
  cases served with
  | nobody dead =>
      have empty : ws = [] := by
        refine List.eq_nil_iff_forall_not_mem.mpr fun w mem => ?_
        have is := live w mem
        rw [dead w mem] at is
        cases is
      rw [empty]
      rfl
  | retry dead _ _ | granted dead _ _ _ | kept dead _ _ _ =>
      rw [alive live dead]
      rfl

end Waiter

namespace Pool

variable {limit : Nat} {p : Pool} {autocommit owesWake : Bool}

/-- The live waiters, first come first. -/
def line (p : Pool) : List Waiter := p.entry.waiters.filter (·.live)

/-- The first live waiter is an acquisition, and every slot is taken. -/
def Blocked (p : Pool) : Prop :=
  ∃ w, p.line.head? = some w ∧ w.kind = .acquisition ∧ p.entry.limit ≤ p.entry.inUse

/-- What it comes to that a lock retry lines up, with a ticket: how the pool is then, whether
the retry still owes its wake, and who was woken. -/
structure LinesUp (p : Pool) (autocommit owesWake : Bool) (q : Pool) (ticket : Nat) (owed : Bool)
    (woken : Option Waiter) : Prop where
  /-- Nobody is woken but the first live waiter.  The others stay in their order, and the retry
  stands behind them and is not woken. -/
  queue : ∃ rest, p.line = woken.toList ++ rest ∧ q.entry.waiters = rest ++ [⟨ticket, .retry, true⟩]
  /-- A slot is taken by an acquisition that is woken, and by nobody else. -/
  inUse : q.entry.inUse = p.entry.inUse + woken.toList.countP (·.kind == .acquisition)
  /-- It was free. -/
  free : ∀ w, woken = some w → w.kind = .acquisition → p.entry.inUse < p.entry.limit
  /-- The slots are enough. -/
  within : p.entry.inUse ≤ p.entry.limit → q.entry.inUse ≤ q.entry.limit
  /-- The rest of the books is as before. -/
  books : q.entry = { p.entry with waiters := q.entry.waiters, inUse := q.entry.inUse }
  /-- In autocommit mode the first live waiter is woken, unless he is blocked. -/
  wakes : autocommit → woken = p.line.head?.filter fun w =>
    w.kind == .retry || decide (p.entry.inUse < p.entry.limit)
  /-- In a transaction only a wake that was owed wakes somebody, and it is owed no longer. -/
  spends : autocommit = false → (woken.isSome ↔ owesWake ∧ owed = false)
  /-- A wake is still owed if it was, outside autocommit mode, and no acquisition is first that
  there is a slot for. -/
  keeps : owed ↔ owesWake ∧ autocommit = false ∧
    ∀ w, p.line.head? = some w → w.kind = .acquisition → p.entry.limit ≤ p.entry.inUse
  /-- A wake that was owed still is, or was handed to the first live waiter, or there was nobody
  who could take it. -/
  conserved : owesWake → owed ∧ woken = none ∨
    owed = false ∧ (woken.isSome ∧ woken = p.line.head? ∨
      woken = none ∧ (p.line = [] ∨ p.Blocked))

/-! ## The wake -/

/-- The first live waiter is an acquisition, and there is a slot for it. -/
theorem acquisitionReady_sweep_iff : p.sweep.entry.acquisitionReady ↔
    ∃ w, p.line.head? = some w ∧ w.kind = .acquisition ∧ p.entry.inUse < p.entry.limit := by
  show (p.line.head?.any (·.kind == .acquisition) && decide (p.entry.inUse < p.entry.limit)) ↔ _
  rw [Bool.and_eq_true_iff, Option.any_eq_true, decide_eq_true_iff]
  constructor
  · rintro ⟨⟨w, first, kind⟩, free⟩
    exact ⟨w, first, beq_iff_eq.mp kind, free⟩
  · rintro ⟨w, first, kind, free⟩
    exact ⟨⟨w, first, beq_iff_eq.mpr kind⟩, free⟩

/-- Whom a wake reaches when the dead have left. -/
theorem wake_sweep_woken (p : Pool) : p.sweep.wake.2 = p.line.head?.filter fun w =>
    w.kind == .retry || decide (p.entry.inUse < p.entry.limit) := by
  have first : p.line.find? (·.live) = p.line.head? := by
    rw [← List.head?_filter, line, List.filter_filter]
    simp only [Bool.and_self]
  have woken := p.sweep.wake_served.eq_find?
  rwa [show p.sweep.entry.waiters = p.line from rfl, first] at woken

/-- If it reaches nobody, then nobody could take it. -/
theorem wake_sweep_none (nobody : p.sweep.wake.2 = none) : p.line = [] ∨ p.Blocked := by
  rw [wake_sweep_woken, Option.filter_eq_none_iff] at nobody
  cases first : p.line.head? with
  | none => exact .inl (List.head?_eq_none_iff.mp first)
  | some w =>
      have unable := nobody w first
      refine .inr ⟨w, first, ?_, ?_⟩
      · cases kind : w.kind with
        | acquisition => rfl
        | retry => simp [kind] at unable
      · simp only [Bool.not_eq_true, Bool.or_eq_false_iff, decide_eq_false_iff_not] at unable
        exact Nat.le_of_not_lt unable.2

/-- The dead are gone, so a wake takes nobody out of the queue but whom it wakes. -/
theorem line_eq_wake_sweep (p : Pool) :
    p.line = p.sweep.wake.2.toList ++ p.sweep.wake.1.entry.waiters :=
  p.sweep.wake_served.of_live fun _ mem => (List.mem_filter.mp mem).2

/-- Whoever is woken is alive. -/
theorem live_of_wake {w : Waiter} (wakes : p.wake.2 = some w) : w.live := by
  have served := p.wake_served
  rw [wakes] at served
  exact served.woken.1

/-- A wake touches the queue and the slots, and nothing else of the books. -/
theorem wake_books (p : Pool) : p.wake.1.entry =
    { p.entry with waiters := p.wake.1.entry.waiters, inUse := p.wake.1.entry.inUse } := by
  rw [show p.wake.1.entry = p.entry.service.1 from p.settle_entry p.entry.service]
  rfl

/-- The slots that a wake takes, when the dead have left. -/
theorem wake_sweep_inUse (p : Pool) : p.sweep.wake.1.entry.inUse =
    p.entry.inUse + p.sweep.wake.2.toList.countP (·.kind == .acquisition) := by
  refine p.sweep.wake_served.eq_inUse.trans (congrArg (p.entry.inUse + ·) ?_)
  refine List.countP_congr fun w mem => ?_
  rw [Waiter.isAcquisition, live_of_wake (Option.mem_toList.mp mem), Bool.true_and]

/-- An acquisition is woken only where there is a slot for it. -/
theorem free_of_wake_sweep {w : Waiter} (wakes : p.sweep.wake.2 = some w)
    (kind : w.kind = .acquisition) : p.entry.inUse < p.entry.limit := by
  rw [wake_sweep_woken, Option.filter_eq_some_iff, kind] at wakes
  simpa using wakes.2

/-! ## Lining up -/

/-- The retry hands a wake on and then takes its place. -/
theorem LinesUp.waking (passes : p.passesOn autocommit owesWake) :
    LinesUp p autocommit owesWake p.sweep.wake.1.joinQueue p.fresh false p.sweep.wake.2 where
  queue := by
    refine ⟨p.sweep.wake.1.entry.waiters, p.line_eq_wake_sweep, ?_⟩
    show p.sweep.wake.1.entry.waiters ++ [⟨p.sweep.wake.1.fresh, .retry, true⟩] = _
    rw [p.sweep.wake_woke.fresh]
    rfl
  inUse := p.wake_sweep_inUse
  free := fun _ => free_of_wake_sweep
  within := by
    intro within
    show p.sweep.wake.1.entry.inUse ≤ p.sweep.wake.1.entry.limit
    rw [p.sweep.wake_books, p.wake_sweep_inUse]
    show p.entry.inUse + p.sweep.wake.2.toList.countP (·.kind == .acquisition) ≤ p.entry.limit
    cases wakes : p.sweep.wake.2 with
    | none => exact within
    | some w =>
        cases kind : w.kind with
        | retry => simpa [kind] using within
        | acquisition =>
            have free := free_of_wake_sweep wakes kind
            simp only [Option.toList_some, List.countP_singleton, kind, BEq.rfl, if_true]
            exact free
  books := by
    rw [joinQueue, withWaiters, p.sweep.wake_books]
    rfl
  wakes := fun _ => p.wake_sweep_woken
  spends := by
    intro transaction
    have ready : owesWake && p.sweep.entry.acquisitionReady := by
      simpa [passesOn, transaction] using passes
    obtain ⟨owes, ready⟩ := Bool.and_eq_true_iff.mp ready
    obtain ⟨w, first, kind, free⟩ := acquisitionReady_sweep_iff.mp ready
    refine iff_of_true ?_ ⟨owes, rfl⟩
    rw [wake_sweep_woken, first]
    simp [Option.filter, free]
  keeps := by
    refine iff_of_false Bool.false_ne_true ?_
    rintro ⟨owes, transaction, full⟩
    have ready : p.sweep.entry.acquisitionReady := by
      simpa [passesOn, transaction, owes] using passes
    obtain ⟨w, first, kind, free⟩ := acquisitionReady_sweep_iff.mp ready
    exact absurd (full w first kind) (Nat.not_le_of_lt free)
  conserved := by
    refine fun _ => .inr ⟨rfl, ?_⟩
    cases wakes : p.sweep.wake.2 with
    | none => exact .inr ⟨rfl, wake_sweep_none wakes⟩
    | some w =>
        have first := p.wake_sweep_woken.symm.trans wakes
        exact .inl ⟨rfl, (Option.filter_eq_some_iff.mp first).1.symm⟩

/-- The retry takes its place, and a wake it owes stays with it. -/
theorem LinesUp.waiting (keeps : p.passesOn autocommit owesWake = false) :
    LinesUp p autocommit owesWake p.sweep.joinQueue p.fresh owesWake none := by
  obtain ⟨transaction, unready⟩ := Bool.or_eq_false_iff.mp keeps
  refine
    { queue := ⟨p.line, rfl, rfl⟩
      inUse := rfl
      free := fun _ wakes => nomatch wakes
      within := id
      books := rfl
      wakes := fun auto => absurd (transaction.symm.trans auto) Bool.false_ne_true
      spends := fun _ => iff_of_false Bool.false_ne_true fun ⟨owes, spent⟩ =>
        absurd (spent.symm.trans owes) Bool.false_ne_true
      keeps := ?_
      conserved := fun owes => .inl ⟨owes, rfl⟩ }
  refine ⟨fun owes => ⟨owes, transaction, ?_⟩, fun owed => owed.1⟩
  intro w first kind
  by_contra free
  have ready := acquisitionReady_sweep_iff.mpr ⟨w, first, kind, Nat.lt_of_not_le free⟩
  rw [owes, Bool.true_and, ready] at unready
  cases unready

variable {q : Pool} {ticket : Nat} {owed : Bool} {woken : Option Waiter}

/-- A retry that lines up hands a wake on or does not, and then joins the queue. -/
theorem park_cases (lines : p.park autocommit owesWake = (q, ticket, owed, woken)) :
    ticket = p.fresh ∧
      (p.passesOn autocommit owesWake ∧ q = p.sweep.wake.1.joinQueue ∧ owed = false ∧
          woken = p.sweep.wake.2 ∨
        p.passesOn autocommit owesWake = false ∧ q = p.sweep.joinQueue ∧ owed = owesWake ∧
          woken = none) := by
  have joins := p.park_eq autocommit owesWake
  have owes := p.park_owed autocommit owesWake
  have wakes : (p.park autocommit owesWake).2.2.2 =
      if p.passesOn autocommit owesWake then p.sweep.wake.2 else none :=
    p.pauseParked_woken { id := 0, owesWake } autocommit
  have takes : (p.park autocommit owesWake).2.1 = p.fresh := rfl
  rw [lines] at joins owes wakes takes
  refine ⟨takes, ?_⟩
  cases passes : p.passesOn autocommit owesWake with
  | true =>
      rw [passes, Bool.not_true, Bool.and_false] at owes
      rw [passes] at joins wakes
      exact .inl ⟨rfl, joins, owes, wakes⟩
  | false =>
      rw [passes, Bool.not_false, Bool.and_true] at owes
      rw [passes] at joins wakes
      exact .inr ⟨rfl, joins, owes, wakes⟩

/-- A lock retry that lines up keeps the queue in order and loses no wake, whatever the books
are.  In a pool that steps lead to, the slots are enough, whoever is woken is told so and nobody
else is, and the retry is left to wait. -/
theorem park_keeps_wakes (lines : p.park autocommit owesWake = (q, ticket, owed, woken)) :
    LinesUp p autocommit owesWake q ticket owed woken ∧
    ∀ limit, Reachable limit p →
      q.entry.inUse ≤ limit ∧ q.isWoken ticket = false ∧
      (∀ w, woken = some w → q.isTold w.ticket w.kind) ∧
      ∀ t kind, q.isTold t kind →
        p.isTold t kind ∨ ∃ w, woken = some w ∧ w.ticket = t ∧ w.kind = kind := by
  have stays : LinesUp p autocommit owesWake q ticket owed woken := by
    obtain ⟨rfl, ⟨passes, rfl, rfl, rfl⟩ | ⟨keeps, rfl, rfl, rfl⟩⟩ := park_cases lines
    · exact .waking passes
    · exact .waiting keeps
  refine ⟨stays, fun limit reachable => ?_⟩
  have slots := reachable.slots
  obtain ⟨lost, run⟩ := reachable
  have pauses := run.pauses.sweep
  have within : q.entry.inUse ≤ limit := by
    have limits : q.entry.limit = limit := by rw [stays.books]; exact slots.limit_eq
    exact limits ▸ stays.within (slots.limit_eq ▸ slots.inUse_le)
  obtain ⟨rfl, ⟨-, rfl, -, rfl⟩ | ⟨-, rfl, -, rfl⟩⟩ := park_cases lines
  · refine ⟨within, ?_, ?_, ?_⟩
    · have asleep := isWoken_fresh _ (pauses.wake slots.sweep.waiters).receiver_lt
      rwa [p.sweep.wake_woke.fresh] at asleep
    · intro w wakes
      rw [isTold_joinQueue]
      exact isTold_wake slots.sweep pauses wakes
    · intro t kind told
      rw [isTold_joinQueue] at told
      exact isTold_of_wake told
  · refine ⟨within, isWoken_fresh p.sweep pauses.receiver_lt, ?_, ?_⟩
    · intro w wakes
      cases wakes
    · intro t kind told
      rw [isTold_joinQueue] at told
      exact .inl (by cases kind <;> exact told)

/-- The lock retry of `wokenRetry` took its wake and is locked out once more.  It lines up and
hands the wake to the acquisition, which has its slot then. -/
theorem park_keeps_wakes_wokenRetry :
    Reachable 1 (wokenRetry.after (.resume 1)) ∧
    (wokenRetry.after (.resume 1)).hasRetry 1 (·.owesWake) ∧
    ∃ q, (wokenRetry.after (.resume 1)).park false true =
        (q, 4, false, some ⟨3, .acquisition, true⟩) ∧
      LinesUp (wokenRetry.after (.resume 1)) false true q 4 false
        (some ⟨3, .acquisition, true⟩) ∧
      q.entry.inUse = 1 ∧ q.isWoken 4 = false ∧ q.isTold 3 .acquisition := by
  have reachable : Reachable 1 (wokenRetry.after (.resume 1)) :=
    ⟨0, wokenRetry_run.step (.resume 1) rfl⟩
  have lines : (wokenRetry.after (.resume 1)).park false true =
      ((wokenRetry.after (.resume 1)).park false true |>.1, 4, false,
        some ⟨3, .acquisition, true⟩) := rfl
  obtain ⟨linesUp, sound⟩ := park_keeps_wakes lines
  obtain ⟨-, asleep, told, -⟩ := sound 1 reachable
  exact ⟨reachable, rfl, _, rfl, linesUp, rfl, asleep, told _ rfl⟩

end Pool

end ConnectionPool
