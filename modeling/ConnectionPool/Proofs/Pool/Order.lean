import Mathlib.Data.List.Induction
import ConnectionPool.Proofs.Pool.Stranded

/-!
# The order in which slots are granted

Waiters stand in the queue in the order in which they came, and the first live one is
served first.  So an acquisition that waits gets its slot before every acquisition that
waits behind it.  `Pool.Fair` says so of what happens between two pools, and every step is
fair except one: an acquisition that comes while a slot is free takes it at once, and does
not ask whether others wait.

Others can wait then.  A wake that was spent on a lock retry leaves its slot free while
acquisitions stand behind the retry.  `served_before_iff` says that this is the one way to
overtake an acquisition that waits.
-/

namespace ConnectionPool

namespace Pool

/-- An acquisition waits for a slot. -/
def Waits (p : Pool) (ticket : Nat) : Prop :=
  ∃ w ∈ p.entry.waiters, w.isAcquisition ∧ w.ticket = ticket

/-- An acquisition has a slot. -/
def HasSlot (p : Pool) (ticket : Nat) : Prop :=
  ∃ a ∈ p.acquisitions, a.hasSlot ∧ a.ticket = ticket

/-- Waiters stand in the order in which they came. -/
def InLine (p : Pool) : Prop := (p.entry.waiters.map Waiter.ticket).Pairwise (· < ·)

/-- No acquisition overtakes another on the way from one pool to the other. -/
structure Fair (p q : Pool) : Prop where
  /-- Tickets are not given out again. -/
  fresh : p.fresh ≤ q.fresh
  /-- Waiters still stand in the order in which they came. -/
  inLine : p.InLine → q.InLine
  /-- Who waits, waited before or is new. -/
  waits : ∀ {t}, q.Waits t → p.Waits t ∨ p.fresh ≤ t
  /-- Who gets a slot came before those who still wait. -/
  served : p.InLine → ∀ {t u}, q.Waits t → q.HasSlot u → ¬p.HasSlot u → u < t

namespace Fair

variable {p q r : Pool}

theorem trans (h : Fair p q) (h' : Fair q r)
    (lt : ∀ a ∈ q.acquisitions, a.ticket < q.fresh) : Fair p r where
  fresh := Nat.le_trans h.fresh h'.fresh
  inLine order := h'.inLine (h.inLine order)
  waits waits := by
    rcases h'.waits waits with waits | new
    · exact h.waits waits
    · exact .inr (Nat.le_trans h.fresh new)
  served order := by
    intro t u waits slot slotless
    by_cases before : q.HasSlot u
    · rcases h'.waits waits with waits | new
      · exact h.served order waits before slotless
      · obtain ⟨a, ha, _, rfl⟩ := before
        exact Nat.lt_of_lt_of_le (lt a ha) new
    · exact h'.served (h.inLine order) waits slot before

/-- Waiters may leave. -/
theorem shrink (fresh : p.fresh ≤ q.fresh)
    (sub : List.Sublist q.entry.waiters p.entry.waiters)
    (slots : ∀ u, q.HasSlot u → p.HasSlot u) : Fair p q where
  fresh := fresh
  inLine order := List.Pairwise.sublist (sub.map Waiter.ticket) order
  waits := fun ⟨w, mem, waits⟩ => .inl ⟨w, sub.subset mem, waits⟩
  served _ _ u _ slot slotless := absurd (slots u slot) slotless

theorem stay (fresh : p.fresh ≤ q.fresh) (same : q.entry.waiters = p.entry.waiters)
    (slots : ∀ u, q.HasSlot u → p.HasSlot u) : Fair p q :=
  shrink fresh (same ▸ List.Sublist.refl _) slots

theorem kill {ticket : Nat} (fresh : p.fresh ≤ q.fresh)
    (killed : q.entry.waiters = Waiter.kill ticket p.entry.waiters)
    (slots : ∀ u, q.HasSlot u → p.HasSlot u) : Fair p q where
  fresh := fresh
  inLine order := by
    have same : (Waiter.kill ticket p.entry.waiters).map Waiter.ticket =
        p.entry.waiters.map Waiter.ticket := map_replaceKey Waiter.ticket fun _ => rfl
    rw [InLine, killed, same]
    exact order
  waits := by
    rintro _ ⟨w, mem, acquisition, rfl⟩
    rw [killed] at mem
    rcases mem_replaceKey.mp mem with ⟨old, -⟩ | ⟨_, _, _, rfl⟩
    · exact .inl ⟨w, old, acquisition, rfl⟩
    · cases acquisition
  served _ _ u _ slot slotless := absurd (slots u slot) slotless

/-- A waiter may join at the end. -/
theorem join {w : Waiter} (fresh : p.fresh ≤ q.fresh)
    (joined : q.entry.waiters = p.entry.waiters ++ [w]) (new : w.ticket = p.fresh)
    (lt : ∀ v ∈ p.entry.waiters, v.ticket < p.fresh)
    (slots : ∀ u, q.HasSlot u → p.HasSlot u) : Fair p q where
  fresh := fresh
  inLine order := by
    rw [InLine, joined, List.map_append, List.pairwise_append]
    refine ⟨order, List.pairwise_singleton _ _, ?_⟩
    intro n mem m last
    obtain ⟨v, hv, rfl⟩ := List.mem_map.mp mem
    rw [List.map_singleton, List.mem_singleton, new] at last
    exact last ▸ lt v hv
  waits := by
    rintro _ ⟨v, mem, acquisition, rfl⟩
    rw [joined] at mem
    rcases List.mem_append.mp mem with old | last
    · exact .inl ⟨v, old, acquisition, rfl⟩
    · exact .inr (Nat.le_of_eq (by rw [List.mem_singleton.mp last, new]))
  served _ _ u _ slot slotless := absurd (slots u slot) slotless

/-- The first live waiter is served, and all others came later. -/
theorem wake (p : Pool) : Fair p p.wake.1 := by
  have woke := p.wake_woke
  generalize p.wake.1 = q at woke ⊢
  have sub := woke.waiters
  have fresh := Nat.le_of_eq woke.fresh.symm
  cases woke with
  | nobody _ => exact .shrink fresh sub fun _ slot => slot
  | retry _ _ _ _ => exact .shrink fresh sub fun _ slot => slot
  | kept _ _ _ _ _ => exact .shrink fresh sub fun _ slot => slot
  | @granted dead rest w eq _ _ _ _ =>
      refine { Fair.shrink (q := p.withWaiters rest p.entry.inUse) fresh sub fun _ slot => slot with
        served := ?_ }
      rintro order t u ⟨v, hv, _, rfl⟩ ⟨a, ha, slot, rfl⟩ slotless
      have ahead : w.ticket < v.ticket := by
        rw [InLine, eq, List.map_append, List.map_cons] at order
        have behind := (List.pairwise_cons.mp (List.pairwise_append.mp order).2.1).1
        exact behind v.ticket (List.mem_map_of_mem hv)
      rcases mem_replaceKey.mp ha with ⟨old, -⟩ | ⟨b, _, is, rfl⟩
      · exact absurd ⟨a, old, slot, rfl⟩ slotless
      · exact is ▸ ahead

/-! ### Steps -/

/-- An acquisition with a slot may get on. -/
theorem setStage {ticket : Nat} {old : Acquisition.Stage} (found : p.stage? ticket = some old)
    (slot : (⟨ticket, old⟩ : Acquisition).hasSlot) (stage : Acquisition.Stage) :
    Fair p (p.setStage ticket stage) := by
  refine stay (Nat.le_refl _) rfl ?_
  rintro _ ⟨a, ha, has, rfl⟩
  rcases mem_replaceKey.mp ha with ⟨mem, -⟩ | ⟨b, _, is, rfl⟩
  · exact ⟨a, mem, has, rfl⟩
  · exact ⟨_, mem_of_stage? found, slot, is.symm⟩

theorem dropAcquisition_slot {ticket u : Nat} (slot : (p.dropAcquisition ticket).HasSlot u) :
    p.HasSlot u := by
  obtain ⟨a, ha, has⟩ := slot
  exact ⟨a, (mem_removeKey.mp ha).1, has⟩

theorem claim {ticket : Nat} (found : p.stage? ticket = some .granted) (isOpen : Nat → Bool) :
    Fair p (p.claim ticket isOpen).1 := by
  rcases p.claim_cases ticket isOpen with ⟨_, _, _, _, eq⟩ | ⟨_, eq⟩
  · rw [eq]
    exact stay (Nat.le_refl _) rfl fun _ slot => dropAcquisition_slot slot
  · rw [eq]
    exact { setStage found rfl .opening with }

theorem abandon {limit : Nat} (slots : Slots limit p) (ticket : Nat) :
    Fair p (p.abandon ticket).1 := by
  cases found : p.stage? ticket with
  | none =>
      rw [abandon_none found]
      exact stay (Nat.le_refl _) rfl fun _ slot => slot
  | some stage =>
      by_cases waits : stage = .queued
      · rw [abandon_queued (waits ▸ found)]
        exact kill (Nat.le_refl _) rfl fun _ slot => dropAcquisition_slot slot
      · rw [abandon_slot found waits]
        have left : Fair p (p.dropAcquisition ticket).freeSlot :=
          stay (Nat.le_refl _) rfl fun _ slot => dropAcquisition_slot slot
        exact left.trans (wake _) fun a mem =>
          slots.acquisition_lt a (mem_removeKey.mp mem).1

theorem release {limit : Nat} (slots : Slots limit p) (conn : Nat) (deadline : Option Nat) :
    Fair p (p.release conn deadline).1 := by
  rw [release_eq]
  cases deadline with
  | none =>
      have back : Fair p (p.giveBack conn none) := stay (Nat.le_refl _) rfl fun _ slot => slot
      exact back.trans (wake _) slots.acquisition_lt
  | some deadline =>
      have back : Fair p (p.giveBack conn (some deadline)) :=
        stay (Nat.le_succ _) rfl fun _ slot => slot
      exact back.trans (wake _) fun a mem =>
        Nat.lt_succ_of_lt (slots.acquisition_lt a mem)

theorem park {limit : Nat} (slots : Slots limit p) (autocommit owesWake : Bool) :
    Fair p (p.park autocommit owesWake).1 := by
  have sweep : Fair p p.sweep := shrink (Nat.le_refl _) List.filter_sublist fun _ slot => slot
  rw [park_eq]
  split
  · have awake := slots.sweep.wake
    have woken : Fair p p.sweep.wake.1 := sweep.trans (wake _) slots.sweep.acquisition_lt
    exact woken.trans (join (Nat.le_succ _) rfl rfl awake.waiter_lt fun _ slot => slot)
      awake.acquisition_lt
  · exact sweep.trans (join (Nat.le_succ _) rfl rfl slots.sweep.waiter_lt fun _ slot => slot)
      slots.sweep.acquisition_lt

theorem endPause (p : Pool) (r : RetryState) (owesWake : Bool) :
    Fair p (p.endPause r owesWake) := by
  rw [Pool.endPause]
  cases r.ticket? with
  | none => exact stay (Nat.le_refl _) rfl fun _ slot => slot
  | some ticket => exact kill (Nat.le_refl _) rfl fun _ slot => slot

theorem endRetries {limit : Nat} (slots : Slots limit p) (id : Nat) :
    Fair p (p.endRetries id).1 := by
  cases found : p.retry? id with
  | none =>
      rw [endRetries_none found]
      exact stay (Nat.le_refl _) rfl fun _ slot => slot
  | some r =>
      have forget : Fair p (p.forgetRetry r) := by
        rw [forgetRetry, cancelPause_eq]
        exact { endPause p r r.owesWake with }
      rw [endRetries_some found]
      split
      · exact forget.trans (wake _) (slots.forgetRetry r).acquisition_lt
      · exact forget

theorem ofRetry {id : Nat} {f : RetryState → Pool} (fair : ∀ r, Fair p (f r)) :
    Fair p (p.withRetry id f) := by
  rw [withRetry]
  split
  · exact fair _
  · exact stay (Nat.le_refl _) rfl fun _ slot => slot

/-- Every step is fair, except that an acquisition takes a free slot at once. -/
theorem after {limit : Nat} (slots : Slots limit p) (e : Event) (permitted : p.permits e)
    (waits : e = .acquire → ¬p.entry.inUse < p.entry.limit) : Fair p (p.after e) := by
  cases e with
  | beginRetries => exact stay (Nat.le_succ _) rfl fun _ slot => slot
  | beginOpen | closePrimary | leasePrimary | drainIdle | beginShutdown | endShutdown =>
      exact stay (Nat.le_refl _) rfl fun _ slot => slot
  | endOpen opened => cases opened <;> exact stay (Nat.le_refl _) rfl fun _ slot => slot
  | releasePrimary => exact { wake p with }
  | acquire =>
      rw [Pool.after, acquire_queued (waits rfl)]
      refine join (Nat.le_succ _) rfl rfl slots.waiter_lt ?_
      rintro u ⟨a, ha, has, is⟩
      rcases List.mem_append.mp ha with mem | mem
      · exact ⟨a, mem, has, is⟩
      · rw [List.mem_singleton.mp mem] at has
        cases has
  | claim ticket isOpen => exact claim (beq_iff_eq.mp permitted) isOpen
  | opened ticket conn => exact setStage (beq_iff_eq.mp permitted) rfl _
  | lease ticket conn => exact stay (Nat.le_refl _) rfl fun _ slot => dropAcquisition_slot slot
  | initializerFailed ticket conn => exact setStage (beq_iff_eq.mp permitted) rfl _
  | abandon ticket => exact abandon slots ticket
  | release conn deadline => exact release slots conn deadline
  | fire timer =>
      rw [Pool.after]
      rcases p.fire_cases timer with eq | ⟨_, _, _, eq⟩ <;> rw [eq] <;>
        exact stay (Nat.le_refl _) rfl fun _ slot => slot
  | park id autocommit => exact ofRetry fun r => { park slots autocommit r.owesWake with }
  | delay id => exact ofRetry fun r => stay (Nat.le_refl _) rfl fun _ slot => slot
  | resume id =>
      refine ofRetry fun r => ?_
      rw [resume_eq]
      exact endPause p r (p.holds r)
  | cancelPause id =>
      refine ofRetry fun r => ?_
      rw [cancelPause_eq]
      exact endPause p r r.owesWake
  | endRetries id => exact endRetries slots id

end Fair

/-! ## Runs -/

theorem Run.inLine {limit lost : Nat} {p : Pool} (run : Run limit lost p) : InLine p := by
  induction run with
  | new => exact List.Pairwise.nil
  | @step lost p e run permitted ih =>
      by_cases newcomer : e = .acquire ∧ p.entry.inUse < p.entry.limit
      · obtain ⟨rfl, free⟩ := newcomer
        rw [after, acquire_granted free]
        exact ih
      · exact (Fair.after run.slots e permitted fun is free => newcomer ⟨is, free⟩).inLine ih

variable {limit : Nat} {p : Pool} {t u : Nat}

/-- A step gives a slot to an acquisition while one that came before it waits, if and only
if it is the arrival of the former and a slot is free. -/
theorem overtakes_iff (h : Reachable limit p) {e : Event} (permitted : p.permits e)
    (waits : (p.after e).Waits t) (later : t < u) (slotless : ¬p.HasSlot u) :
    (p.after e).HasSlot u ↔ e = .acquire ∧ p.fresh = u ∧ p.entry.inUse < p.entry.limit := by
  obtain ⟨lost, run⟩ := h
  constructor
  · intro slot
    by_cases newcomer : e = .acquire ∧ p.entry.inUse < p.entry.limit
    · obtain ⟨rfl, free⟩ := newcomer
      refine ⟨rfl, ?_, free⟩
      rw [after, acquire_granted free] at slot
      obtain ⟨a, mem, has, rfl⟩ := slot
      rcases List.mem_append.mp mem with old | new
      · exact absurd ⟨a, old, has, rfl⟩ slotless
      · rw [List.mem_singleton.mp new]
    · have fair := Fair.after run.slots e permitted fun is free => newcomer ⟨is, free⟩
      exact absurd later (Nat.lt_asymm (fair.served run.inLine waits slot slotless))
  · rintro ⟨rfl, rfl, free⟩
    rw [after, acquire_granted free]
    exact ⟨⟨p.fresh, .granted⟩, List.mem_append_right _ List.mem_cons_self, rfl, rfl⟩

/-- An acquisition that waits after a step waited before it, if it had come by then. -/
theorem waits_of_after (slots : Slots limit p) {e : Event} (permitted : p.permits e)
    (old : t < p.fresh) (waits : (p.after e).Waits t) : p.Waits t := by
  by_cases newcomer : e = .acquire ∧ p.entry.inUse < p.entry.limit
  · obtain ⟨rfl, free⟩ := newcomer
    rw [after, acquire_granted free] at waits
    exact waits
  · have fair := Fair.after slots e permitted fun is free => newcomer ⟨is, free⟩
    exact (fair.waits waits).resolve_right (Nat.not_le_of_gt old)

theorem fresh_le_after (slots : Slots limit p) {e : Event} (permitted : p.permits e) :
    p.fresh ≤ (p.after e).fresh := by
  by_cases newcomer : e = .acquire ∧ p.entry.inUse < p.entry.limit
  · obtain ⟨rfl, free⟩ := newcomer
    rw [after, acquire_granted free]
    exact Nat.le_succ p.fresh
  · exact (Fair.after slots e permitted fun is free => newcomer ⟨is, free⟩).fresh

/-! ### Any number of steps -/

/-- The pool after some steps. -/
def afterAll (p : Pool) (es : List Event) : Pool := es.foldl after p

/-- Each of some steps is somebody's turn. -/
def PermitsAll (p : Pool) (es : List Event) : Prop :=
  ∀ before e, before ++ [e] <+: es → (p.afterAll before).permits e

theorem afterAll_concat (p : Pool) (es : List Event) (e : Event) :
    p.afterAll (es ++ [e]) = (p.afterAll es).after e := by
  rw [afterAll, List.foldl_append]
  rfl

theorem PermitsAll.init {es : List Event} {e : Event} (h : p.PermitsAll (es ++ [e])) :
    p.PermitsAll es ∧ (p.afterAll es).permits e :=
  ⟨fun before f le => h before f (le.trans (List.prefix_append es [e])),
    h es e (List.prefix_refl _)⟩

theorem Reachable.afterAll (h : Reachable limit p) {es : List Event} (permitted : p.PermitsAll es) :
    Reachable limit (p.afterAll es) ∧ p.fresh ≤ (p.afterAll es).fresh := by
  induction es using List.reverseRecOn with
  | nil => exact ⟨h, Nat.le_refl _⟩
  | append_singleton es e ih =>
      obtain ⟨reachable, fresh⟩ := ih permitted.init.1
      rw [afterAll_concat]
      exact ⟨reachable.step e permitted.init.2,
        Nat.le_trans fresh (fresh_le_after reachable.slots permitted.init.2)⟩

/-- As long as an acquisition waits, one that came after it gets a slot if and only if it
finds a slot free when it comes.  So slots are granted in the order of arrival as long as
nobody comes while a slot is free that an acquisition waits for. -/
theorem served_before_iff (h : Reachable limit p) (waits : p.Waits t) (later : t < u)
    (slotless : ¬p.HasSlot u) {es : List Event} (permitted : p.PermitsAll es)
    (still : (p.afterAll es).Waits t) :
    (∃ before, before <+: es ∧ (p.afterAll before).HasSlot u) ↔
      ∃ before, before ++ [.acquire] <+: es ∧ (p.afterAll before).fresh = u ∧
        (p.afterAll before).entry.inUse < (p.afterAll before).entry.limit := by
  constructor
  · induction es using List.reverseRecOn with
    | nil =>
        rintro ⟨before, le, slot⟩
        rw [List.prefix_nil.mp le] at slot
        exact absurd slot slotless
    | append_singleton es e ih =>
        obtain ⟨permitted, permits⟩ := permitted.init
        obtain ⟨reachable, fresh⟩ := h.afterAll permitted
        rw [afterAll_concat] at still
        obtain ⟨w, mem, _, rfl⟩ := waits
        have old : w.ticket < (p.afterAll es).fresh :=
          Nat.lt_of_lt_of_le (h.slots.waiter_lt w mem) fresh
        -- it waits all the time, so an arrival that was found before is one of these
        have earlier := ih permitted (waits_of_after reachable.slots permits old still)
        have sooner : (∃ before, before <+: es ∧ (p.afterAll before).HasSlot u) →
            ∃ before, before ++ [.acquire] <+: es ++ [e] ∧ (p.afterAll before).fresh = u ∧
              (p.afterAll before).entry.inUse < (p.afterAll before).entry.limit := by
          intro served
          obtain ⟨before, le, free⟩ := earlier served
          exact ⟨before, le.trans (List.prefix_append es [e]), free⟩
        rintro ⟨before, le, slot⟩
        by_cases had : (p.afterAll es).HasSlot u
        · exact sooner ⟨es, List.prefix_refl es, had⟩
        · rcases List.prefix_concat_iff.mp le with rfl | le
          · rw [afterAll_concat] at slot
            obtain ⟨rfl, is, free⟩ := (overtakes_iff reachable permits still later had).mp slot
            exact ⟨es, List.prefix_refl _, is, free⟩
          · exact sooner ⟨before, le, slot⟩
  · rintro ⟨before, le, rfl, free⟩
    refine ⟨_, le, ?_⟩
    rw [afterAll_concat, after, acquire_granted free]
    exact ⟨⟨_, .granted⟩, List.mem_append_right _ List.mem_cons_self, rfl, rfl⟩

/-- An acquisition waits behind a lock retry that was sent the wake, and its slot is free
when another comes. -/
theorem served_before_iff_wokenRetry : Reachable 1 wokenRetry ∧ wokenRetry.Waits 3 ∧
    wokenRetry.PermitsAll [.acquire] ∧ (wokenRetry.afterAll [.acquire]).Waits 3 ∧
    ((∃ before, before <+: [.acquire] ∧ (wokenRetry.afterAll before).HasSlot 4) ↔
      ∃ before, before ++ [.acquire] <+: [.acquire] ∧ (wokenRetry.afterAll before).fresh = 4 ∧
        (wokenRetry.afterAll before).entry.inUse < (wokenRetry.afterAll before).entry.limit) := by
  have reachable : Reachable 1 wokenRetry := ⟨0, wokenRetry_run⟩
  have waits : wokenRetry.Waits 3 := ⟨_, List.mem_cons_self, rfl, rfl⟩
  have slotless : ¬wokenRetry.HasSlot 4 := by
    rintro ⟨a, mem, has, _⟩
    rw [List.mem_singleton.mp mem] at has
    cases has
  have permitted : wokenRetry.PermitsAll [.acquire] := by
    intro before e le
    have is : before = [] ∧ e = .acquire := by
      rcases before with _ | ⟨_, _ | _⟩ <;> simp_all
    obtain ⟨rfl, rfl⟩ := is
    rfl
  have still : (wokenRetry.afterAll [.acquire]).Waits 3 := ⟨_, List.mem_cons_self, rfl, rfl⟩
  exact ⟨reachable, waits, permitted, still,
    served_before_iff reachable waits (by decide) slotless permitted still⟩

/-- The newcomer takes the slot, and the acquisition that waited goes on waiting. -/
theorem newcomer_overtakes_waiting : Reachable 1 wokenRetry ∧ wokenRetry.Waits 3 ∧
    wokenRetry.fresh = 4 ∧ (wokenRetry.after .acquire).Waits 3 ∧
    (wokenRetry.after .acquire).HasSlot 4 :=
  ⟨⟨0, wokenRetry_run⟩, ⟨_, List.mem_cons_self, rfl, rfl⟩, rfl, ⟨_, List.mem_cons_self, rfl, rfl⟩,
    ⟨⟨4, .granted⟩, .tail _ List.mem_cons_self, rfl, rfl⟩⟩

end Pool

end ConnectionPool
