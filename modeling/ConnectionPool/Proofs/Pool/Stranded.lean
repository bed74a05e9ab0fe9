import ConnectionPool.Proofs.Pool.Pauses

/-!
# Stranded acquisitions

An acquisition is stranded if it is first in line, there is a slot for it and no wake is
on its way.  Only a wake can bring it its slot, so it then waits for somebody else to
use the pool.

A slot that becomes free comes with one wake, and the wake may go to a lock retry that
stands before the acquisitions.  The operation then has the wake in hand until it passes
it on, and meanwhile the slot stays free.  So what has to be kept is a balance: while an
acquisition waits there are at most as many free slots as operations that have a wake in
hand.  An operation whose waiter still stands before an acquisition may have one in hand
from an earlier time; it does not count, since the next wake may go to it and be the
same one then.  `Pool.Covered` is this balance, up to a number of wakes that are missing.

Only one kind of step breaks the balance.  An operation that is cancelled, or whose
connection is closed, gives up a wake that was sent to it and that it has not taken.
The wake is lost: the operation owes none, so nothing is passed on.  The two theorems at
the end say that this is all that can happen.  As many slots as wakes were lost can be
left free for stranded acquisitions (`free_le_lost`), and if none was lost so far, a
step strands an acquisition exactly when it gives up the last wake on its way
(`stranded_iff_losesLastWake`).
-/

namespace ConnectionPool

/-! ## Waiters in the way -/

/-- A live waiter with the ticket stands before an acquisition. -/
def Waiter.blocks (ticket : Nat) : List Waiter → Bool
  | [] => false
  | w :: rest =>
    (w.live && w.ticket == ticket && rest.any isAcquisition) || blocks ticket rest

namespace Waiter

variable {ticket : Nat} {ws rest dead : List Waiter} {w : Waiter}

theorem blocks_dead (h : ∀ d ∈ dead, d.live = false) :
    blocks ticket (dead ++ ws) = blocks ticket ws := by
  induction dead with
  | nil => rfl
  | cons d dead ih =>
      have parts := List.forall_mem_cons.mp h
      rw [List.cons_append, blocks, parts.1, ih parts.2]
      rfl

theorem blocks_cons_ne (ne : w.ticket ≠ ticket) :
    blocks ticket (w :: rest) = blocks ticket rest := by
  rw [blocks, beq_eq_false_iff_ne.mpr ne, Bool.and_false, Bool.false_and, Bool.false_or]

theorem mem_of_blocks (h : blocks ticket ws) : ∃ w ∈ ws, w.live ∧ w.ticket = ticket := by
  induction ws with
  | nil => cases h
  | cons w rest ih =>
      simp only [blocks, Bool.or_eq_true, Bool.and_eq_true, beq_iff_eq] at h
      rcases h with ⟨⟨live, eq⟩, _⟩ | h
      · exact ⟨w, List.mem_cons_self, live, eq⟩
      · obtain ⟨v, mem, found⟩ := ih h
        exact ⟨v, List.mem_cons_of_mem w mem, found⟩

theorem any_filter_live : (ws.filter (·.live)).any isAcquisition = ws.any isAcquisition := by
  rw [List.any_filter]
  congr 1
  funext w
  cases live : w.live <;> simp [isAcquisition, live]

theorem blocks_filter : blocks ticket (ws.filter (·.live)) = blocks ticket ws := by
  induction ws with
  | nil => rfl
  | cons w rest ih =>
      cases live : w.live with
      | true => rw [List.filter_cons_of_pos live, blocks, blocks, ih, any_filter_live]
      | false =>
          rw [List.filter_cons_of_neg (by rw [live]; exact Bool.false_ne_true), blocks, ih, live]
          rfl

/-- A lock retry that joins is in nobody's way. -/
theorem blocks_append_retry (kind : w.kind = .retry) :
    blocks ticket (ws ++ [w]) = blocks ticket ws := by
  have no_acquisition : w.isAcquisition = false := by
    rw [isAcquisition, kind]
    exact Bool.and_false _
  induction ws with
  | nil => simp [blocks]
  | cons v rest ih =>
      rw [List.cons_append, blocks, blocks, ih, List.any_append, List.any_cons, no_acquisition]
      simp

/-- The waiters after some owner left. -/
def kill (ticket : Nat) (ws : List Waiter) : List Waiter :=
  replaceKey Waiter.ticket ticket (fun w => { w with live := false }) ws

/-- Who has no live waiter may leave unnoticed. -/
theorem kill_eq_self (h : ∀ w ∈ ws, w.live → w.ticket ≠ ticket) : kill ticket ws = ws := by
  rw [kill, replaceKey]
  conv => rhs; rw [← List.map_id ws]
  apply List.map_congr_left
  intro w mem
  split
  case isTrue is =>
    obtain ⟨ticket', kind, live⟩ := w
    cases live with
    | true => exact absurd is (h _ mem rfl)
    | false => rfl
  case isFalse => rfl

theorem any_of_kill {other : Nat} (h : (kill other ws).any isAcquisition) :
    ws.any isAcquisition := by
  obtain ⟨w, mem, is⟩ := List.any_eq_true.mp h
  rcases mem_replaceKey.mp mem with ⟨mem, -⟩ | ⟨_, _, _, rfl⟩
  · exact List.any_eq_true.mpr ⟨w, mem, is⟩
  · cases is

theorem blocks_of_kill {other : Nat} (h : blocks ticket (kill other ws)) : blocks ticket ws := by
  induction ws with
  | nil => cases h
  | cons w rest ih =>
      by_cases is : w.ticket = other
      · have rest_blocks : blocks ticket (kill other rest) := by
          rw [kill, replaceKey, List.map_cons, if_pos is, blocks] at h
          exact (Bool.or_eq_true_iff.mp h).resolve_left (by simp)
        rw [blocks, ih rest_blocks, Bool.or_true]
      · have parts : (w.live && w.ticket == ticket && (kill other rest).any isAcquisition ||
            blocks ticket (kill other rest)) = true := by
          rw [kill, replaceKey, List.map_cons, if_neg is, blocks] at h
          exact h
        rw [blocks]
        rcases Bool.or_eq_true_iff.mp parts with before | after
        · obtain ⟨this, acquisition⟩ := Bool.and_eq_true_iff.mp before
          rw [this, any_of_kill acquisition]
          rfl
        · rw [ih after, Bool.or_true]

end Waiter

/-! ## The balance -/

namespace Pool

/-- The operation waits and stands before an acquisition. -/
def isBlocking (p : Pool) (r : RetryState) : Bool :=
  r.ticket?.any (Waiter.blocks · p.entry.waiters)

/-- The operation has a wake in hand, and no other will come to it before it is passed
on to an acquisition. -/
def carries (p : Pool) (r : RetryState) : Bool := p.holds r && !p.isBlocking r

/-- The operations that have a wake in hand. -/
def carriers (p : Pool) : Nat := p.retries.countP p.carries

/-- While an acquisition waits, every free slot has its wake, except for some number. -/
def Covered (p : Pool) (missing : Int) : Prop :=
  p.needsWake → (p.entry.limit : Int) - p.entry.inUse ≤ p.carriers + missing

theorem needsWake_iff {p : Pool} : p.needsWake ↔
    p.entry.waiters.any Waiter.isAcquisition ∧ p.entry.inUse < p.entry.limit := by
  rw [needsWake, Bool.and_eq_true, decide_eq_true_eq]

/-- A wake that was sent is still in hand, if nobody joined in front of an acquisition. -/
theorem carries_of {p q : Pool} {r : RetryState}
    (woken : ∀ t, r.ticket? = some t → p.isWoken t → q.isWoken t)
    (blocks : ∀ t, r.ticket? = some t →
      Waiter.blocks t q.entry.waiters → Waiter.blocks t p.entry.waiters)
    (h : p.carries r) : q.carries r := by
  obtain ⟨id, owesWake, pause⟩ := r
  cases pause with
  | none => exact h
  | some pause =>
      cases pause with
      | delayed => exact h
      | parked t owed =>
          have parts : (owed || p.isWoken t) = true ∧
              (!Waiter.blocks t p.entry.waiters) = true := Bool.and_eq_true_iff.mp h
          refine Bool.and_eq_true_iff.mpr ⟨?_, ?_⟩
          · show (owed || q.isWoken t) = true
            rcases Bool.or_eq_true_iff.mp parts.1 with eq | eq
            · rw [eq, Bool.true_or]
            · rw [woken t rfl eq, Bool.or_true]
          · show (!Waiter.blocks t q.entry.waiters) = true
            rw [Bool.not_eq_true', Bool.eq_false_iff] at parts ⊢
            exact fun now => parts.2 (blocks t rfl now)

theorem carries_unparked (p : Pool) {r : RetryState} (unparked : r.ticket? = none) :
    p.carries r = r.owesWake := by
  obtain ⟨id, owesWake, pause⟩ := r
  cases pause with
  | none => exact Bool.and_true owesWake
  | some pause =>
      cases pause with
      | delayed => exact Bool.and_true owesWake
      | parked t owed => cases unparked

theorem holds_of_isWoken {p : Pool} {r : RetryState} {t : Nat} (parked : r.ticket? = some t)
    (woken : p.isWoken t) : p.holds r := by
  obtain ⟨id, owesWake, pause⟩ := r
  cases pause with
  | none => cases parked
  | some pause =>
      cases pause with
      | delayed => cases parked
      | parked u owed =>
          cases parked
          show (owed || p.isWoken t) = true
          rw [woken, Bool.or_true]

/-- The carriers of two pools that differ in one operation. -/
theorem carriers_le {p q : Pool} {l₁ l₂ : List RetryState} {r : RetryState}
    (new : List RetryState) (eq : p.retries = l₁ ++ r :: l₂) (eq' : q.retries = l₁ ++ new ++ l₂)
    (keeps : ∀ s ∈ l₁ ++ l₂, p.carries s → q.carries s) :
    p.carriers + new.countP q.carries ≤ q.carriers + (p.carries r).toNat := by
  have left := List.countP_mono_left fun s mem => keeps s (List.mem_append_left l₂ mem)
  have right := List.countP_mono_left fun s mem => keeps s (List.mem_append_right l₁ mem)
  rw [carriers, carriers, eq, eq']
  simp only [List.countP_append, List.countP_cons]
  cases p.carries r with
  | true => simp only [Bool.toNat_true, if_true]; omega
  | false => simp only [Bool.toNat_false, Bool.false_eq_true, if_false]; omega

theorem carriers_replace_le {p q : Pool} {l₁ l₂ : List RetryState} {r r' : RetryState}
    (eq : p.retries = l₁ ++ r :: l₂) (eq' : q.retries = l₁ ++ r' :: l₂)
    (keeps : ∀ s ∈ l₁ ++ l₂, p.carries s → q.carries s) :
    p.carriers + (q.carries r').toNat ≤ q.carriers + (p.carries r).toNat := by
  have balance := carriers_le [r'] eq (by rw [List.append_assoc]; exact eq') keeps
  have one : (if q.carries r' = true then 1 else 0) = (q.carries r').toNat := by
    cases q.carries r' <;> rfl
  rwa [List.countP_singleton, one] at balance

namespace Covered

variable {p q : Pool} {m : Int}

theorem mono (h : Covered p m) {n : Int} (le : m ≤ n) : Covered p n := by
  intro needs
  have := h needs
  omega

/-- Slots are taken, waiters leave, and no operation loses its wake. -/
theorem frame (h : Covered p m) (retries : q.retries = p.retries)
    (limit : q.entry.limit = p.entry.limit) (inUse : p.entry.inUse ≤ q.entry.inUse)
    (waits : q.needsWake → p.entry.waiters.any Waiter.isAcquisition)
    (keeps : q.needsWake → ∀ r ∈ p.retries, p.carries r → q.carries r) : Covered q m := by
  intro needs
  have free := (needsWake_iff.mp needs).2
  have before := h (needsWake_iff.mpr ⟨waits needs, by omega⟩)
  have le : p.carriers ≤ q.carriers := by
    rw [carriers, carriers, retries]
    exact List.countP_mono_left (keeps needs)
  omega

/-! ### Waking -/

theorem wake_retry (h : Covered p m) (pauses : Pauses p)
    (keyed : Keyed Waiter.ticket p.entry.waiters) {dead rest : List Waiter} {w : Waiter}
    (eq : p.entry.waiters = dead ++ w :: rest) (all_dead : ∀ d ∈ dead, d.live = false)
    (live : w.live = true) (kind : w.kind = .retry) :
    Covered ((p.withWaiters rest p.entry.inUse).sendWake w.ticket) (m - 1) := by
  let q : Pool := (p.withWaiters rest p.entry.inUse).sendWake w.ticket
  show Covered q (m - 1)
  intro needs
  obtain ⟨waits, free⟩ : rest.any Waiter.isAcquisition ∧ p.entry.inUse < p.entry.limit :=
    needsWake_iff.mp needs
  have mem : w ∈ p.entry.waiters := by simp [eq]
  obtain ⟨⟨r, hr, parked⟩, -⟩ := pauses.awaited w mem live kind
  obtain ⟨l₁, l₂, split, others, -, -⟩ := pauses.retries.split hr
  have fresh : ∀ v ∈ rest, v.ticket ≠ w.ticket :=
    fun v hv => Keyed.ne_of_mem_tail (eq ▸ keyed) hv
  -- The operation stood in the way and did not count; now it has a wake and does.
  have idle : p.carries r = false := by
    have blocking : p.isBlocking r = true := by
      rw [isBlocking, parked, eq]
      show Waiter.blocks w.ticket (dead ++ w :: rest) = true
      rw [Waiter.blocks_dead all_dead, Waiter.blocks, live, beq_self_eq_true, waits]
      rfl
    rw [carries, blocking, Bool.not_true, Bool.and_false]
  have carrying : q.carries r = true := by
    have woken : q.isWoken w.ticket := isWoken_sendWake _ (pauses.received r hr _ parked)
    have passed : Waiter.blocks w.ticket rest = false := by
      rw [Bool.eq_false_iff]
      intro blocks
      obtain ⟨v, hv, _, same⟩ := Waiter.mem_of_blocks blocks
      exact fresh v hv same
    rw [carries, holds_of_isWoken parked woken, isBlocking, parked]
    show (!Waiter.blocks w.ticket rest) = true
    rw [passed]
    rfl
  have keeps : ∀ s ∈ l₁ ++ l₂, p.carries s → q.carries s := by
    intro s hs
    have ne : ∀ t, s.ticket? = some t → t ≠ w.ticket := by
      intro t waits same
      have is := pauses.apart s (others s hs).1 r hr t waits (same ▸ parked)
      exact (others s hs).2 (congrArg RetryState.id is)
    refine carries_of ?_ ?_
    · intro t waits woken
      exact (isWoken_sendWake_ne _ (ne t waits)).trans woken
    · intro t waits blocks
      rw [eq, Waiter.blocks_dead all_dead, Waiter.blocks_cons_ne (Ne.symm (ne t waits))]
      exact blocks
  have balance := carriers_replace_le (q := q) split split keeps
  have before := h (needsWake_iff.mpr ⟨by simp only [eq, List.any_append, List.any_cons, waits,
    Bool.or_true], free⟩)
  rw [idle, carrying, Bool.toNat_false, Bool.toNat_true] at balance
  show (p.entry.limit : Int) - p.entry.inUse ≤ q.carriers + (m - 1)
  omega

/-- A wake settles one slot. -/
theorem wake (h : Covered p m) (pauses : Pauses p)
    (keyed : Keyed Waiter.ticket p.entry.waiters) : Covered p.wake.1 (m - 1) := by
  have woke := p.wake_woke
  generalize p.wake.1 = q at woke ⊢
  cases woke with
  | nobody _ =>
      intro needs
      exact absurd (needsWake_iff.mp needs).1 Bool.false_ne_true
  | retry eq dead live kind => exact h.wake_retry pauses keyed eq dead live kind
  | @granted dead rest w eq all_dead live kind _ =>
      intro needs
      obtain ⟨waits, free⟩ : rest.any Waiter.isAcquisition ∧ p.entry.inUse + 1 < p.entry.limit :=
        needsWake_iff.mp needs
      have before := h (needsWake_iff.mpr ⟨by simp only [eq, List.any_append, List.any_cons,
        waits, Bool.or_true], by omega⟩)
      have le : p.carriers ≤ ((p.withWaiters rest (p.entry.inUse + 1)).setStage w.ticket
          .granted).carriers := by
        apply List.countP_mono_left
        intro r _
        refine carries_of (fun _ _ woken => woken) ?_
        intro t _ blocks
        rw [eq, Waiter.blocks_dead all_dead, Waiter.blocks]
        exact Bool.or_eq_true_iff.mpr (.inr blocks)
      show (p.entry.limit : Int) - (p.entry.inUse + 1 : Nat) ≤ _ + (m - 1)
      omega
  | kept _ _ _ _ full =>
      intro needs
      exact absurd (needsWake_iff.mp needs).2 full

/-! ### Operations that may retry -/

theorem setRetry (h : Covered p m) {r : RetryState} (r' : RetryState)
    (keyed : Keyed RetryState.id p.retries) (mem : r ∈ p.retries) (same : r'.id = r.id) :
    Covered (p.setRetry r') (m + (p.carries r).toNat - (p.carries r').toNat) := by
  obtain ⟨l₁, l₂, split, -, replaced, -⟩ := keyed.split mem
  have eq : (p.setRetry r').retries = l₁ ++ r' :: l₂ :=
    (congrArg (fun k => replaceKey RetryState.id k (fun _ => r') p.retries) same).trans
      (replaced fun _ => r')
  have balance := carriers_replace_le (q := p.setRetry r') split eq fun s _ carrying => carrying
  have kept : (p.setRetry r').carries r' = p.carries r' := rfl
  rw [kept] at balance
  intro needs
  have before := h needs
  show (p.entry.limit : Int) - p.entry.inUse ≤ _
  omega

/-- A receiver goes at which no operation waits. -/
theorem dropReceiver (h : Covered p m) {ticket : Nat}
    (unused : ∀ r ∈ p.retries, r.ticket? ≠ some ticket) : Covered (p.dropReceiver ticket) m := by
  refine h.frame rfl rfl (Nat.le_refl _) ?_ ?_
  · intro needs
    exact Waiter.any_of_kill (needsWake_iff.mp needs).1
  · intro _ r hr
    refine carries_of ?_ fun t _ => Waiter.blocks_of_kill
    intro t waits woken
    have ne : t ≠ ticket := fun is => unused r hr (is ▸ waits)
    exact (isWoken_dropReceiver_ne p ne).trans woken

theorem endPause (h : Covered p m) (pauses : Pauses p) {r : RetryState} (mem : r ∈ p.retries)
    (owesWake : Bool) :
    Covered (p.endPause r owesWake) (m + (p.carries r).toNat - owesWake.toNat) := by
  have set := h.setRetry { r with owesWake, pause := none } pauses.retries mem rfl
  rw [carries_unparked p (r := { r with owesWake, pause := none }) rfl] at set
  rw [Pool.endPause]
  cases parked : r.ticket? with
  | none => exact set
  | some t =>
      refine set.dropReceiver ?_
      intro s hs waits
      rcases mem_replaceKey.mp hs with ⟨hs, ne⟩ | ⟨_, _, _, rfl⟩
      · rw [pauses.apart s hs r mem t waits parked] at ne
        exact ne rfl
      · cases waits

theorem forgetRetry (h : Covered p m) (pauses : Pauses p) {r : RetryState}
    (mem : r ∈ p.retries) : Covered (p.forgetRetry r) (m + (p.carries r).toNat) := by
  have ended := h.endPause pauses mem r.owesWake
  have pauses' := pauses.endPause mem r.owesWake
  have mem' : ({ r with pause := none } : RetryState) ∈ (p.endPause r r.owesWake).retries := by
    rw [endPause_retries]
    exact mem_replaceKey.mpr (.inr ⟨r, mem, rfl, rfl⟩)
  obtain ⟨l₁, l₂, split, -, -, removed⟩ := pauses'.retries.split mem'
  have eq : (p.forgetRetry r).retries = l₁ ++ [] ++ l₂ := by
    rw [List.append_nil, ← removed, Pool.forgetRetry, cancelPause_eq]
  have same : (p.forgetRetry r).entry = (p.endPause r r.owesWake).entry ∧
      (p.forgetRetry r).receivers = (p.endPause r r.owesWake).receivers := by
    rw [Pool.forgetRetry, cancelPause_eq]
    exact ⟨rfl, rfl⟩
  have keeps : ∀ s, (p.endPause r r.owesWake).carries s → (p.forgetRetry r).carries s := by
    intro s
    refine carries_of ?_ ?_
    · intro t _ woken
      rwa [isWoken, receiver?, same.2]
    · intro t _ blocks
      rwa [same.1] at blocks
  have balance := carriers_le [] split eq fun s _ => keeps s
  intro needs
  rw [needsWake, same.1] at needs
  have before := ended needs
  rw [same.1]
  rw [carries_unparked (p.endPause r r.owesWake) (r := { r with pause := none }) rfl] at balance
  simp only [List.countP_nil] at balance
  omega

/-- An operation that does not pause joins the queue. -/
theorem lineUp (h : Covered p m) (pauses : Pauses p)
    (waiter_lt : ∀ w ∈ p.entry.waiters, w.ticket < p.fresh) {r : RetryState}
    (mem : r ∈ p.retries) (awake : r.pause = none) (owed : Bool) :
    Covered (p.joinQueue.setRetry { r with pause := some (.parked p.fresh owed) })
      (m + r.owesWake.toNat - owed.toNat) := by
  let r' : RetryState := { r with pause := some (.parked p.fresh owed) }
  have waiting : p.joinQueue.entry.waiters.any Waiter.isAcquisition →
      p.entry.waiters.any Waiter.isAcquisition := by
    intro some
    rw [show p.joinQueue.entry.waiters = p.entry.waiters ++ [⟨p.fresh, .retry, true⟩] from rfl,
      List.any_append] at some
    simpa [Waiter.isAcquisition] using some
  have joined : Covered p.joinQueue m := by
    refine h.frame rfl rfl (Nat.le_refl _) (fun needs => waiting (needsWake_iff.mp needs).1) ?_
    intro _ s hs
    refine carries_of ?_ ?_
    · intro t waits woken
      obtain ⟨c, hc, same⟩ := pauses.received s hs t waits
      rwa [isWoken_joinQueue p (same ▸ pauses.receiver_lt c hc)]
    · intro t _ blocks
      exact (Waiter.blocks_append_retry rfl).symm.trans blocks
  -- Nobody had the ticket, so only the wake that the operation owes is in its hand.
  have set := joined.setRetry r' pauses.retries mem rfl
  have unparked : r.ticket? = none := by rw [RetryState.ticket?, awake]
  have free : Waiter.blocks p.fresh p.joinQueue.entry.waiters = false := by
    refine (Waiter.blocks_append_retry rfl).trans ?_
    rw [Bool.eq_false_iff]
    intro blocks
    obtain ⟨w, hw, _, same⟩ := Waiter.mem_of_blocks blocks
    exact Nat.ne_of_lt (waiter_lt w hw) same
  have owing : p.joinQueue.carries r' = owed := by
    show ((owed || p.joinQueue.isWoken p.fresh) &&
      !Waiter.blocks p.fresh p.joinQueue.entry.waiters) = owed
    rw [isWoken_fresh p pauses.receiver_lt, free, Bool.or_false, Bool.not_false, Bool.and_true]
  rwa [carries_unparked _ unparked, owing] at set

theorem sweep (h : Covered p m) : Covered p.sweep m := by
  refine h.frame rfl rfl (Nat.le_refl _) ?_ ?_
  · intro needs
    have waits := (needsWake_iff.mp needs).1
    rwa [show p.sweep.entry.waiters = p.entry.waiters.filter (·.live) from rfl,
      Waiter.any_filter_live] at waits
  · intro _ r _
    refine carries_of (fun _ _ woken => woken) ?_
    intro t _ blocks
    exact Waiter.blocks_filter.symm.trans blocks

theorem park (h : Covered p m) (pauses : Pauses p) {limit : Nat} (slots : Slots limit p)
    {r : RetryState} (mem : r ∈ p.retries) (awake : r.pause = none) (autocommit : Bool) :
    Covered (p.pauseParked r autocommit).1 m := by
  rw [pauseParked_eq]
  cases passes : p.passesOn autocommit r.owesWake with
  | true =>
      have keyed := slots.sweep.waiters
      have woke := p.sweep.wake_woke
      have covered := h.sweep.wake pauses.sweep keyed
      have pauses' := pauses.sweep.wake keyed
      have slots' := slots.sweep.wake
      have joined := covered.lineUp pauses' slots'.waiter_lt (woke.retries ▸ mem) awake
        (r.owesWake && !true)
      rw [woke.fresh] at joined
      refine joined.mono ?_
      rw [Bool.not_true, Bool.and_false, Bool.toNat_false]
      have := r.owesWake.toNat_le
      omega
  | false =>
      have joined := h.sweep.lineUp pauses.sweep slots.sweep.waiter_lt mem awake
        (r.owesWake && !false)
      refine joined.mono ?_
      rw [Bool.not_false, Bool.and_true]
      omega

/-- What an operation carries it owed before or was sent. -/
theorem carries_le (pauses : Pauses p) {r : RetryState} (mem : r ∈ p.retries) :
    (p.carries r).toNat ≤ r.owesWake.toNat + (!r.owesWake && p.hasWake r).toNat := by
  cases carrying : p.carries r with
  | false => exact Nat.zero_le _
  | true =>
      cases owes : r.owesWake with
      | true => exact Nat.le_add_right 1 _
      | false =>
          have holding := (Bool.and_eq_true_iff.mp carrying).1
          have has : p.hasWake r = true := by
            obtain ⟨id, owesWake, pause⟩ := r
            cases pause with
            | none => exact absurd (owes.symm.trans holding) Bool.false_ne_true
            | some pause =>
                cases pause with
                | delayed => exact absurd (owes.symm.trans holding) Bool.false_ne_true
                | parked t owed =>
                    cases owed with
                    | false => exact holding
                    | true =>
                        have was := pauses.owed _ mem t rfl
                        exact absurd (owes.symm.trans was) Bool.false_ne_true
          rw [has]
          exact Nat.le_refl 1

/-- A pause that ends brings no acquisition and takes no slot. -/
theorem needsWake_of_endPause {r : RetryState} {owesWake : Bool}
    (needs : (p.endPause r owesWake).needsWake) : p.needsWake := by
  rw [Pool.endPause] at needs
  cases parked : r.ticket? with
  | none =>
      rw [parked] at needs
      exact needs
  | some t =>
      rw [parked] at needs
      obtain ⟨waits, free⟩ := needsWake_iff.mp needs
      exact needsWake_iff.mpr ⟨Waiter.any_of_kill waits, free⟩

theorem cancelPause (h : Covered p m) (pauses : Pauses p) {id : Nat} {r : RetryState}
    (found : p.retry? id = some r) :
    Covered (p.cancelPause r) (m + (p.losesWake (.cancelPause id)).toNat) := by
  obtain ⟨mem, rfl⟩ := mem_of_findRetry found
  have le := carries_le pauses mem
  have ended := h.endPause pauses mem r.owesWake
  rw [cancelPause_eq]
  intro needs
  have needs' := needsWake_of_endPause needs
  have after := ended needs
  rw [losesWake, hasRetry, found, Option.any_some, needs', Bool.and_true]
  omega

theorem endRetries (h : Covered p m) (pauses : Pauses p) {limit : Nat} (slots : Slots limit p)
    (id : Nat) : Covered (p.endRetries id).1 (m + (p.losesWake (.endRetries id)).toNat) := by
  cases found : p.retry? id with
  | none =>
      rw [endRetries_none found]
      exact h.mono (by omega)
  | some r =>
      obtain ⟨mem, rfl⟩ := mem_of_findRetry found
      have forgotten := h.forgetRetry pauses mem
      have le := carries_le pauses mem
      rw [endRetries_some found]
      cases owes : r.owesWake with
      | true =>
          have passed := forgotten.wake (pauses.forgetRetry mem) (slots.forgetRetry r).waiters
          refine passed.mono ?_
          have := (p.carries r).toNat_le
          omega
      | false =>
          show Covered (p.forgetRetry r) _
          intro needs
          have ended : (p.endPause r r.owesWake).needsWake := by
            rw [← cancelPause_eq]
            exact needs
          have after := forgotten needs
          rw [losesWake, hasRetry, found, Option.any_some, needsWake_of_endPause ended,
            Bool.and_true]
          rw [owes, Bool.toNat_false, Nat.zero_add] at le
          rw [owes]
          omega

/-! ### Slots -/

/-- A slot that becomes free asks for one wake more. -/
theorem freeSlot (h : Covered p m) {limit : Nat} (slots : Slots limit p) (nonneg : 0 ≤ m) :
    Covered p.freeSlot (m + 1) := by
  intro needs
  obtain ⟨waits, -⟩ : p.entry.waiters.any Waiter.isAcquisition ∧
    p.entry.inUse - 1 < p.entry.limit := needsWake_iff.mp needs
  have within := slots.inUse_le
  have limit_eq := slots.limit_eq
  show (p.entry.limit : Int) - (p.entry.inUse - 1 : Nat) ≤ p.carriers + (m + 1)
  by_cases free : p.entry.inUse < p.entry.limit
  · have before := h (needsWake_iff.mpr ⟨waits, free⟩)
    omega
  · omega

theorem acquire (h : Covered p m) : Covered p.acquire.1 m := by
  by_cases free : p.entry.inUse < p.entry.limit
  · rw [acquire_granted free]
    exact h.frame rfl rfl (Nat.le_succ _) (fun needs => (needsWake_iff.mp needs).1)
      fun _ r _ => carries_of (fun _ _ woken => woken) fun _ _ blocks => blocks
  · rw [acquire_queued free]
    intro needs
    exact absurd (needsWake_iff.mp needs).2 free

theorem abandon (h : Covered p m) (pauses : Pauses p) {limit : Nat} (slots : Slots limit p)
    (nonneg : 0 ≤ m) (ticket : Nat) : Covered (p.abandon ticket).1 m := by
  cases found : p.stage? ticket with
  | none => rwa [abandon_none found]
  | some stage =>
      by_cases waits : stage = .queued
      · subst waits
        rw [abandon_queued found]
        refine h.frame rfl rfl (Nat.le_refl _) ?_ ?_
        · intro needs
          exact Waiter.any_of_kill (needsWake_iff.mp needs).1
        · intro _ r _
          exact carries_of (fun _ _ woken => woken) fun _ _ => Waiter.blocks_of_kill
      · rw [abandon_slot found waits]
        have freed : Covered (p.dropAcquisition ticket).freeSlot (m + 1) :=
          h.freeSlot slots nonneg
        have pauses' : Pauses (p.dropAcquisition ticket).freeSlot := { pauses with }
        exact (freed.wake pauses' slots.waiters).mono (by omega)

theorem release (h : Covered p m) (pauses : Pauses p) {limit : Nat} (slots : Slots limit p)
    (nonneg : 0 ≤ m) (conn : Nat) (deadline : Option Nat) :
    Covered (p.release conn deadline).1 m := by
  rw [release_eq]
  have given : Covered (p.giveBack conn deadline) (m + 1) := by
    cases deadline with
    | none => exact h.freeSlot slots nonneg
    | some _ => exact h.freeSlot slots nonneg
  have pauses' := pauses.giveBack conn deadline
  have keyed : Keyed Waiter.ticket (p.giveBack conn deadline).entry.waiters := by
    cases deadline with
    | none => exact slots.waiters
    | some _ => exact slots.waiters
  exact (given.wake pauses' keyed).mono (by omega)

theorem beginRetries (h : Covered p m) : Covered p.beginRetries.1 m := by
  intro needs
  have before := h needs
  have same : p.beginRetries.1.carriers = p.carriers := by
    show List.countP p.carries (p.retries ++ [{ id := p.fresh }]) = _
    rw [List.countP_append, List.countP_singleton]
    rfl
  rw [same]
  exact before

theorem claim (h : Covered p m) (ticket : Nat) (isOpen : Nat → Bool) :
    Covered (p.claim ticket isOpen).1 m := by
  rcases p.claim_cases ticket isOpen with ⟨_, _, _, _, eq⟩ | ⟨_, eq⟩
  · rw [eq]
    exact h
  · rw [eq]
    exact h

theorem fire (h : Covered p m) (timer : Nat) : Covered (p.fire timer).1 m := by
  rcases p.fire_cases timer with eq | ⟨_, _, _, eq⟩
  · rwa [eq]
  · rw [eq]
    exact h

/-- Every step keeps the balance, except for the wake it loses. -/
theorem after (h : Covered p m) (pauses : Pauses p) {limit : Nat} (slots : Slots limit p)
    (nonneg : 0 ≤ m) (e : Event) (permitted : p.permits e) :
    Covered (p.after e) (m + (p.losesWake e).toNat) := by
  have kept : Covered p (m + (false.toNat : Nat)) := h.mono (by omega)
  cases e with
  | beginOpen => exact kept
  | endOpen opened => cases opened <;> exact kept
  | closePrimary => exact kept
  | leasePrimary => exact kept
  | releasePrimary =>
      have woken := (h.wake pauses slots.waiters).mono (n := m + (false.toNat : Nat)) (by omega)
      exact woken
  | acquire => exact kept.acquire
  | claim ticket isOpen => exact kept.claim ticket isOpen
  | opened ticket conn => exact kept
  | lease ticket conn => exact kept
  | initializerFailed ticket conn => exact kept
  | abandon ticket => exact kept.abandon pauses slots (by omega) ticket
  | release conn deadline => exact kept.release pauses slots (by omega) conn deadline
  | fire timer => exact kept.fire timer
  | drainIdle => exact kept
  | beginShutdown => exact kept
  | endShutdown => exact kept
  | beginRetries => exact kept.beginRetries
  | park id autocommit =>
      obtain ⟨r, found, awake⟩ := retry_of_hasRetry permitted
      rw [Pool.after, withRetry_eq found]
      exact kept.park pauses slots (mem_of_findRetry found).1 (Option.isNone_iff_eq_none.mp awake)
        autocommit
  | delay id =>
      obtain ⟨r, found, awake⟩ := retry_of_hasRetry permitted
      have unparked : r.ticket? = none := by
        rw [RetryState.ticket?, Option.isNone_iff_eq_none.mp awake]
      rw [Pool.after, withRetry_eq found]
      have set := kept.setRetry { r with pause := some .delayed } pauses.retries
        (mem_of_findRetry found).1 rfl
      rw [carries_unparked p unparked, carries_unparked p rfl] at set
      refine set.mono ?_
      show m + (0 : Nat) + r.owesWake.toNat - r.owesWake.toNat ≤ m + (0 : Nat)
      omega
  | resume id =>
      obtain ⟨r, found, _⟩ := retry_of_hasRetry permitted
      rw [Pool.after, withRetry_eq found, resume_eq]
      refine (kept.endPause pauses (mem_of_findRetry found).1 (p.holds r)).mono ?_
      have le : (p.carries r).toNat ≤ (p.holds r).toNat := by
        rw [carries]
        cases p.holds r with
        | true => exact Bool.toNat_le _
        | false => exact Nat.le_refl 0
      show m + 0 + _ - _ ≤ m + 0
      omega
  | cancelPause id =>
      obtain ⟨r, found, _⟩ := retry_of_hasRetry permitted
      rw [Pool.after, withRetry_eq found]
      exact h.cancelPause pauses found
  | endRetries id => exact h.endRetries pauses slots id

end Covered

theorem Run.covered {limit lost : Nat} {p : Pool} (run : Run limit lost p) : Covered p lost := by
  induction run with
  | new =>
      intro needs
      cases needs
  | step e run permitted ih =>
      have after := ih.after run.pauses run.slots (by omega) e permitted
      rwa [Int.natCast_add]

/-! ## Stranded acquisitions -/

theorem isStranded_iff {p : Pool} : p.isStranded ↔ p.servesAcquisition ∧
    p.entry.inUse < p.entry.limit ∧ ∀ r ∈ p.retries, (r.owesWake || p.hasWake r) = false := by
  rw [isStranded, Bool.and_eq_true, Bool.and_eq_true, decide_eq_true_eq, and_assoc,
    Bool.not_eq_true', hasWakeOut, List.any_eq_false]
  simp only [Bool.not_eq_true]

theorem needsWake_of_servesAcquisition {p : Pool} (serves : p.servesAcquisition)
    (free : p.entry.inUse < p.entry.limit) : p.needsWake := by
  rw [servesAcquisition, Option.any_eq_true] at serves
  obtain ⟨w, first, acquisition⟩ := serves
  exact needsWake_iff.mpr
    ⟨List.any_eq_true.mpr ⟨w, List.mem_of_find?_eq_some first, acquisition⟩, free⟩

/-- At most as many slots are left free for stranded acquisitions as wakes were lost. -/
theorem free_le_lost {limit lost : Nat} {p : Pool} (run : Run limit lost p)
    (stranded : p.isStranded) : p.entry.limit - p.entry.inUse ≤ lost := by
  obtain ⟨serves, free, none⟩ := isStranded_iff.mp stranded
  have covered := run.covered (needsWake_of_servesAcquisition serves free)
  have no_carrier : p.carriers = 0 := by
    refine List.countP_eq_zero.mpr ?_
    intro r mem carrying
    have le := Covered.carries_le run.pauses mem
    obtain ⟨owes, has⟩ := Bool.or_eq_false_iff.mp (none r mem)
    rw [carrying, owes, has] at le
    exact absurd le (by decide)
  omega

/-- The step gives up the last wake on its way, with an acquisition first in line. -/
def losesLastWake (p : Pool) (e : Event) : Bool :=
  p.losesWake e && p.servesAcquisition &&
    match e with
    | .cancelPause id | .endRetries id =>
      p.retries.all fun r => r.id == id || !(r.owesWake || p.hasWake r)
    | _ => false

/-- An operation that was sent a wake has no live waiter. -/
theorem Pauses.left {p : Pool} (h : Pauses p) {r : RetryState} (mem : r ∈ p.retries) {t : Nat}
    (waits : r.ticket? = some t) (woken : p.isWoken t) :
    ∀ w ∈ p.entry.waiters, w.live → w.ticket ≠ t := by
  intro w hw live is
  cases kind : w.kind with
  | retry =>
      have unwoken := (h.awaited w hw live kind).2
      rw [is, woken] at unwoken
      cases unwoken
  | acquisition => exact h.separate w hw kind r mem (is ▸ waits)

/-- Giving up a wake leaves the books as they are. -/
theorem Pauses.cancelPause_entry {p : Pool} (h : Pauses p) {r : RetryState}
    (mem : r ∈ p.retries) (has : p.hasWake r) : (p.cancelPause r).entry = p.entry := by
  obtain ⟨id, owesWake, pause⟩ := r
  cases pause with
  | none => rfl
  | some pause =>
      cases pause with
      | delayed => rfl
      | parked t owed =>
          have same : Waiter.kill t p.entry.waiters = p.entry.waiters :=
            Waiter.kill_eq_self (h.left mem rfl has)
          show { p.entry with waiters := Waiter.kill t p.entry.waiters } = p.entry
          rw [same]

/-- Giving up a wake leaves the wakes of others as they are. -/
theorem Pauses.cancelPause_hasWake {p : Pool} (h : Pauses p) {r s : RetryState}
    (mem : r ∈ p.retries) (hs : s ∈ p.retries) (ne : s.id ≠ r.id) :
    (p.cancelPause r).hasWake s = p.hasWake s := by
  rw [cancelPause_eq]
  exact h.endPause_hasWake mem hs ne r.owesWake

/-- Who is on the way with a wake once an operation gave up one that it did not owe. -/
theorem Pauses.hasWakeOut_of_cancelPause {p q : Pool} (h : Pauses p) {r : RetryState}
    (mem : r ∈ p.retries) (owes : r.owesWake = false) (has : ∀ s, q.hasWake s =
      (p.cancelPause r).hasWake s)
    (retries : ∀ s ∈ p.retries, s.id ≠ r.id → s ∈ q.retries)
    (retries' : ∀ s ∈ q.retries, s ∈ p.retries ∧ s.id ≠ r.id ∨ s = { r with pause := none }) :
    q.hasWakeOut = !(p.retries.all fun s => s.id == r.id || !(s.owesWake || p.hasWake s)) := by
  rw [Bool.eq_iff_iff, hasWakeOut, List.any_eq_true, Bool.not_eq_true', List.all_eq_false]
  constructor
  · rintro ⟨s, hs, out⟩
    rcases retries' s hs with ⟨old, ne⟩ | rfl
    · rw [has, h.cancelPause_hasWake mem old ne] at out
      refine ⟨s, old, ?_⟩
      rw [out, beq_eq_false_iff_ne.mpr ne]
      exact Bool.false_ne_true
    · rw [hasWake_eq] at out
      exact absurd (owes.symm.trans ((Bool.or_false _).symm.trans out)) Bool.false_ne_true
  · rintro ⟨s, hs, out⟩
    rw [Bool.not_eq_true, Bool.or_eq_false_iff, Bool.not_eq_false', beq_eq_false_iff_ne] at out
    refine ⟨s, retries s hs out.1, ?_⟩
    rw [has, h.cancelPause_hasWake mem hs out.1]
    exact out.2

/-- A pool with the same books whose other wakes are gone is stranded if nobody else is
on the way with one. -/
theorem isStranded_eq {p q : Pool} {id : Nat} (entry : q.entry = p.entry)
    (out : q.hasWakeOut = !(p.retries.all fun s => s.id == id || !(s.owesWake || p.hasWake s)))
    (needs : p.needsWake) : q.isStranded = (p.servesAcquisition &&
      p.retries.all fun s => s.id == id || !(s.owesWake || p.hasWake s)) := by
  rw [isStranded, servesAcquisition, entry, out, Bool.not_not,
    decide_eq_true (needsWake_iff.mp needs).2, Bool.and_true]
  rfl

/-- A pause that is given up with a wake strands an acquisition if nobody else has one. -/
theorem isStranded_of_cancelPause {p : Pool} (pauses : Pauses p) {id : Nat}
    (loses : p.losesWake (.cancelPause id)) :
    (p.after (.cancelPause id)).isStranded = p.losesLastWake (.cancelPause id) := by
  obtain ⟨lost, needs⟩ := Bool.and_eq_true_iff.mp loses
  obtain ⟨r, found, unowed⟩ := retry_of_hasRetry lost
  obtain ⟨mem, rfl⟩ := mem_of_findRetry found
  obtain ⟨owes, has⟩ := Bool.and_eq_true_iff.mp unowed
  rw [Bool.not_eq_true'] at owes
  rw [after, withRetry_eq found, losesLastWake, loses, Bool.true_and]
  refine isStranded_eq (pauses.cancelPause_entry mem has) ?_ needs
  refine pauses.hasWakeOut_of_cancelPause mem owes (fun _ => rfl) ?_ ?_
  · intro s hs ne
    rw [cancelPause_eq, endPause_retries]
    exact mem_replaceKey.mpr (.inl ⟨hs, ne⟩)
  · intro s hs
    rw [cancelPause_eq, endPause_retries] at hs
    rcases mem_replaceKey.mp hs with old | ⟨_, _, _, eq⟩
    · exact .inl old
    · exact .inr eq

/-- The others are still there when an operation is forgotten. -/
theorem mem_retries_forgetRetry {p : Pool} {r s : RetryState} :
    s ∈ (p.forgetRetry r).retries ↔ s ∈ p.retries ∧ s.id ≠ r.id := by
  rw [forgetRetry, cancelPause_eq]
  show s ∈ removeKey _ _ (p.endPause r r.owesWake).retries ↔ _
  rw [endPause_retries, mem_removeKey, mem_replaceKey]
  constructor
  · rintro ⟨old | ⟨_, _, _, rfl⟩, ne⟩
    · exact old
    · exact absurd rfl ne
  · rintro ⟨hs, ne⟩
    exact ⟨.inl ⟨hs, ne⟩, ne⟩

/-- So does an operation that ends with a wake it did not take. -/
theorem isStranded_of_endRetries {p : Pool} (pauses : Pauses p) {id : Nat}
    (loses : p.losesWake (.endRetries id)) :
    (p.after (.endRetries id)).isStranded = p.losesLastWake (.endRetries id) := by
  obtain ⟨lost, needs⟩ := Bool.and_eq_true_iff.mp loses
  obtain ⟨r, found, unowed⟩ := retry_of_hasRetry lost
  obtain ⟨mem, rfl⟩ := mem_of_findRetry found
  obtain ⟨owes, has⟩ := Bool.and_eq_true_iff.mp unowed
  rw [Bool.not_eq_true'] at owes
  rw [after, endRetries_some found, owes, if_neg Bool.false_ne_true, losesLastWake, loses,
    Bool.true_and]
  refine isStranded_eq (pauses.cancelPause_entry mem has) ?_ needs
  refine pauses.hasWakeOut_of_cancelPause mem owes (fun _ => rfl) ?_ ?_
  · exact fun s hs ne => mem_retries_forgetRetry.mpr ⟨hs, ne⟩
  · exact fun s hs => .inl (mem_retries_forgetRetry.mp hs)

/-- While no wake was lost no acquisition is stranded, and a step strands one exactly when
it gives up the last wake on its way, with an acquisition first in line and a slot free. -/
theorem stranded_iff_losesLastWake {limit : Nat} {p : Pool} (run : Run limit 0 p) :
    p.isStranded = false ∧
      ∀ e, p.permits e → (p.after e).isStranded = p.losesLastWake e := by
  have safe : ∀ {q}, Run limit 0 q → q.isStranded = false := by
    intro q run
    rw [Bool.eq_false_iff]
    intro stranded
    have free := (isStranded_iff.mp stranded).2.1
    have le := free_le_lost run stranded
    omega
  refine ⟨safe run, ?_⟩
  intro e permitted
  cases loses : p.losesWake e with
  | false =>
      have next := run.step e permitted
      rw [loses] at next
      rw [safe next]
      simp only [losesLastWake, loses, Bool.false_and]
  | true =>
      cases e with
      | cancelPause id => exact isStranded_of_cancelPause run.pauses loses
      | endRetries id => exact isStranded_of_endRetries run.pauses loses
      | _ => cases loses

/-! ### A lost wake -/

/-- A pool with one slot.  Its connection was given back, and the wake went to a lock
retry that stood before an acquisition. -/
def wokenRetry : Pool where
  entry := { limit := 1, waiters := [⟨3, .acquisition, true⟩] }
  acquisitions := [⟨3, .queued⟩]
  receivers := [⟨2, true⟩]
  retries := [{ id := 1, pause := some (.parked 2 false) }]
  fresh := 4

theorem wokenRetry_run : Run 1 0 wokenRetry := by
  have granted := (@Run.new 1).step .acquire rfl
  have opening := granted.step (.claim 0 fun _ => true) rfl
  have opened := opening.step (.opened 0 7) rfl
  have leased := opened.step (.lease 0 7) rfl
  have operating := leased.step .beginRetries rfl
  have parked := operating.step (.park 1 false) rfl
  have waiting := parked.step .acquire rfl
  exact waiting.step (.release 7 none) rfl

theorem stranded_iff_losesLastWake_wokenRetry : Run 1 0 wokenRetry ∧
    wokenRetry.isStranded = false ∧
      ∀ e, wokenRetry.permits e →
        (wokenRetry.after e).isStranded = wokenRetry.losesLastWake e :=
  ⟨wokenRetry_run, stranded_iff_losesLastWake wokenRetry_run⟩

/-- The operation is cancelled before it takes its wake, and the acquisition is stranded:
its slot is free and nobody has a wake for it. -/
theorem stranded_by_cancelled_retry :
    Reachable 1 (wokenRetry.after (.endRetries 1)) ∧
      (wokenRetry.after (.endRetries 1)).isStranded :=
  ⟨⟨1, wokenRetry_run.step (.endRetries 1) rfl⟩, rfl⟩

end Pool

end ConnectionPool
