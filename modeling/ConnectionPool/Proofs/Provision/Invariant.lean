import ConnectionPool.Proofs.Provision.System

/-!
# What acquisitions did

What an acquisition did can be told from its stage and from how far its initializer is:
`Provision.Stands`.  Nobody else does anything with the connection that it opened.  `Kept`
is the invariant that says so, together with the pool's own and with the handles.

An acquisition that is over does nothing any more, and a connection that is nowhere in the
pool does not come back.
-/

namespace ConnectionPool

namespace Provision

variable {limit t c : Nat} {s s' : Provision} {e : Event} {stage : Acquisition.Stage}

/-! ## What every event keeps -/

/-- What an acquisition did until now with the connection that it opened. -/
def course (t c : Nat) : Initializing → List Deed
  | .pending => [⟨t, c, .opens⟩]
  | .running => [⟨t, c, .opens⟩, ⟨t, c, .begins⟩]
  | .succeeded => [⟨t, c, .opens⟩, ⟨t, c, .begins⟩, ⟨t, c, .succeeds⟩]
  | .failed => [⟨t, c, .opens⟩, ⟨t, c, .begins⟩, ⟨t, c, .fails⟩]

/-- What is known of an acquisition in a stage. -/
def Stands (s : Provision) (t : Nat) : Acquisition.Stage → Prop
  | .queued | .granted | .opening => s.initializing t = .pending ∧ s.deeds t = []
  | .preparing c | .closing c =>
    s.deeds t = course t c (s.initializing t) ∧ s.about c = s.deeds t

/-- The acquisition is over. -/
def Gone (s : Provision) (t : Nat) : Prop := s.pool.stage? t = none ∧ t < s.pool.fresh

/-- The pool, the handles and what acquisitions did agree. -/
structure Kept (limit : Nat) (s : Provision) : Prop where
  /-- The pool comes about by steps. -/
  pool : s.pool.Reachable limit
  /-- A connection is in one place at most. -/
  once : ∀ c, s.pool.places c ≤ 1
  /-- No handle leads to one that is not opened yet, and nothing was done with it. -/
  unopened : ∀ c, s.fresh ≤ c → s.handles c = 0 ∧ s.about c = []
  /-- An acquisition that is to come did nothing. -/
  unborn : ∀ t, s.pool.fresh ≤ t → s.initializing t = .pending ∧ s.deeds t = []
  /-- One that is there did what its stage says. -/
  stands : ∀ t stage, s.pool.stage? t = some stage → s.Stands t stage
  /-- An initializer that was run was given. -/
  given : ∀ t, s.initializing t ≠ .pending → t ∈ s.given
  /-- Whoever gave a slot back is over. -/
  returned : ∀ t ∈ s.returned, s.Gone t

theorem deeds_of_other (other : e.isOf t = false) : (s.after e).deeds t = s.deeds t := by
  rw [deeds_after, List.filter_eq_nil_iff.mpr, List.append_nil]
  intro d mem is
  have own := isOf_of_recorded mem
  rw [beq_iff_eq.mp is, other] at own
  cases own

theorem initializing_of_other (other : e.isOf t = false) :
    (s.after e).initializing t = s.initializing t := by
  cases e with
  | begins u c | succeeds u c | fails u c =>
      exact Function.update_of_ne (Ne.symm (beq_eq_false_iff_ne.mp other)) _ _
  | _ => rfl

/-- An acquisition goes on with the connection that it opened. -/
theorem Stands.act {act : Act} (stands : s.Stands t (.preparing c))
    (does : s.recorded e = [⟨t, c, act⟩])
    (goes : course t c ((s.after e).initializing t) =
      course t c (s.initializing t) ++ [⟨t, c, act⟩]) : (s.after e).Stands t (.preparing c) := by
  have deeds : (s.after e).deeds t = s.deeds t ++ [⟨t, c, act⟩] := by
    simp [deeds_after, does]
  have about : (s.after e).about c = s.about c ++ [⟨t, c, act⟩] := by
    simp [about_after, does]
  exact ⟨by rw [deeds, goes, stands.1], by rw [deeds, about, stands.2]⟩

namespace Kept

theorem new (limit : Nat) : Kept limit (new limit) where
  pool := .new limit
  once _ := Nat.zero_le _
  unopened _ _ := ⟨rfl, rfl⟩
  unborn _ _ := ⟨rfl, rfl⟩
  stands := by intro t stage there; cases there
  given := by intro t ran; exact absurd rfl ran
  returned := by intro t mem; cases mem

/-- A connection that the pool has was opened. -/
theorem lt_of_places (h : Kept limit s) (there : 0 < s.pool.places c) : c < s.fresh := by
  by_contra new
  have none := (h.unopened c (Nat.le_of_not_lt new)).1
  have some := handles_pos_of_places there
  omega

/-- Nobody else does anything with a connection that an acquisition has. -/
theorem about_of_other (h : Kept limit s) (permitted : s.permits e) (other : e.isOf t = false)
    (there : s.pool.stage? t = some stage) (has : (⟨t, stage⟩ : Acquisition).has c) :
    (s.after e).about c = s.about c := by
  rw [about_after, List.filter_eq_nil_iff.mpr, List.append_nil]
  intro d mem is
  obtain rfl : d.conn = c := beq_iff_eq.mp is
  rcases recorded_cases permitted mem with ⟨i, idle, is⟩ | ⟨-, new⟩ | preparing
  · exact Pool.not_idle_of_has (h.once _) there has i idle is
  · have old := h.lt_of_places (Pool.places_pos_of_has there has)
    omega
  · have same := Pool.eq_of_has h.pool.slots (h.once _) there has preparing
      (beq_self_eq_true d.conn)
    have own := isOf_of_recorded mem
    rw [← same, other] at own
    cases own

/-- What others do changes nothing in what is known of an acquisition. -/
theorem stands_of_other (h : Kept limit s) (permitted : s.permits e) (other : e.isOf t = false)
    (there : s.pool.stage? t = some stage) : (s.after e).Stands t stage := by
  have stands := h.stands t stage there
  have deeds := deeds_of_other (s := s) other
  have initializing := initializing_of_other (s := s) other
  cases stage with
  | queued | granted | opening => exact ⟨initializing.trans stands.1, deeds.trans stands.2⟩
  | preparing c | closing c =>
      have about := h.about_of_other permitted other there (beq_self_eq_true c)
      refine ⟨?_, ?_⟩
      · rw [deeds, initializing]
        exact stands.1
      · rw [about, deeds]
        exact stands.2

/-- An acquisition that takes a step did what its new stage says. -/
theorem stands_of_own (h : Kept limit s) (permitted : s.permits e) (own : e.isOf t)
    (there : (s.after e).pool.stage? t = some stage) : (s.after e).Stands t stage := by
  have slots := h.pool.slots
  cases e with
  | claim u =>
      obtain rfl : u = t := beq_iff_eq.mp own
      have granted : s.pool.stage? u = some .granted := beq_iff_eq.mp (permits_of_booked permitted rfl)
      have stands := h.stands u _ granted
      have result := Pool.stage?_claim granted s.isOpen
      rw [← show (s.after (.claim u)).pool = (s.pool.claim u s.isOpen).1 from rfl, there] at result
      cases taken : (s.pool.claim u s.isOpen).2 with
      | none =>
          rw [taken] at result
          obtain rfl : stage = .opening := Option.some.inj result
          refine ⟨stands.1, ?_⟩
          rw [deeds_after, recorded, taken, stands.2]
          rfl
      | some c =>
          rw [taken] at result
          cases result
  | opened u c =>
      obtain rfl : u = t := beq_iff_eq.mp own
      have opening : s.pool.stage? u = some .opening := beq_iff_eq.mp (permits_of_booked permitted rfl)
      have new : s.fresh ≤ c := of_decide_eq_true (ready_of_permits permitted)
      have stands := h.stands u _ opening
      have set : (s.after (.opened u c)).pool.stage? u = some (.preparing c) :=
        Pool.stage?_setStage opening _
      obtain rfl : stage = .preparing c := Option.some.inj (there.symm.trans set)
      have deeds : (s.after (.opened u c)).deeds u = [⟨u, c, .opens⟩] := by
        rw [deeds_after, stands.2]
        simp [recorded]
      have about : (s.after (.opened u c)).about c = [⟨u, c, .opens⟩] := by
        rw [about_after, (h.unopened c new).2]
        simp [recorded]
      have pending : (s.after (.opened u c)).initializing u = .pending := stands.1
      refine ⟨?_, about.trans deeds.symm⟩
      rw [deeds, pending, course]
  | begins u c =>
      obtain rfl : u = t := beq_iff_eq.mp own
      obtain ⟨preparing, -, pending⟩ := begins_ready permitted
      have now : (s.after (.begins u c)).initializing u = .running := Function.update_self ..
      obtain rfl : stage = .preparing c := Option.some.inj (there.symm.trans preparing)
      exact Stands.act (h.stands u _ preparing) rfl (by rw [now, pending]; rfl)
  | succeeds u c =>
      obtain rfl : u = t := beq_iff_eq.mp own
      obtain ⟨preparing, running⟩ := succeeds_ready permitted
      have now : (s.after (.succeeds u c)).initializing u = .succeeded := Function.update_self ..
      obtain rfl : stage = .preparing c := Option.some.inj (there.symm.trans preparing)
      exact Stands.act (h.stands u _ preparing) rfl (by rw [now, running]; rfl)
  | fails u c =>
      obtain rfl : u = t := beq_iff_eq.mp own
      have preparing : s.pool.stage? u = some (.preparing c) :=
        beq_iff_eq.mp (permits_of_booked permitted rfl)
      have running : s.initializing u = .running := beq_iff_eq.mp (ready_of_permits permitted)
      have now : (s.after (.fails u c)).initializing u = .failed := Function.update_self ..
      have set : (s.after (.fails u c)).pool.stage? u = some (.closing c) :=
        Pool.stage?_setStage preparing _
      obtain rfl : stage = .closing c := Option.some.inj (there.symm.trans set)
      exact Stands.act (h.stands u _ preparing) rfl (by rw [now, running]; rfl)
  | lease u c =>
      obtain rfl : u = t := beq_iff_eq.mp own
      have gone : (s.after (.lease u c)).pool.stage? u = none := s.pool.stage?_dropAcquisition u
      rw [gone] at there
      cases there
  | ends u exit =>
      obtain rfl : u = t := beq_iff_eq.mp own
      have gone : (s.after (.ends u exit)).pool.stage? u = none := Pool.stage?_abandon slots u
      rw [gone] at there
      cases there
  | _ => cases own

/-- A newcomer did nothing. -/
theorem stands_of_new (h : Kept limit s) {given : Bool}
    (there : (s.after (.acquire given)).pool.stage? s.pool.fresh = some stage) :
    (s.after (.acquire given)).Stands s.pool.fresh stage := by
  obtain ⟨pending, none⟩ := h.unborn s.pool.fresh (Nat.le_refl _)
  have deeds : (s.after (.acquire given)).deeds s.pool.fresh = [] := (deeds_of_other rfl).trans none
  have joined : (s.after (.acquire given)).pool.stage? s.pool.fresh =
      some (if s.pool.entry.inUse < s.pool.entry.limit then .granted else .queued) :=
    Pool.stage?_acquire h.pool.slots
  obtain rfl := Option.some.inj (there.symm.trans joined)
  split <;> exact ⟨pending, deeds⟩

theorem stands_after (h : Kept limit s) (permitted : s.permits e)
    (there : (s.after e).pool.stage? t = some stage) : (s.after e).Stands t stage := by
  cases own : e.isOf t with
  | true => exact h.stands_of_own permitted own there
  | false =>
      by_cases newcomer : s.booked e = some .acquire ∧ t = s.pool.fresh
      · obtain ⟨booked, rfl⟩ := newcomer
        have ready := ready_of_permits permitted
        cases e with
        | acquire given => exact h.stands_of_new there
        | aside a =>
            cases booked
            cases ready
        | _ => cases booked
      · have left := leftAlone_after h.pool.slots permitted own fun booked is =>
          newcomer ⟨booked, is⟩
        rcases left with same | ⟨waited, granted⟩
        · exact h.stands_of_other permitted own (same.symm.trans there)
        · obtain rfl := Option.some.inj (there.symm.trans granted)
          have waits := h.stands_of_other permitted own waited
          exact waits

theorem unopened_after (h : Kept limit s) (permitted : s.permits e)
    (new : (s.after e).fresh ≤ c) : (s.after e).handles c = 0 ∧ (s.after e).about c = [] := by
  obtain ⟨none, nothing⟩ := h.unopened c (Nat.le_trans (fresh_le_after permitted) new)
  have old : ∀ u, e ≠ .opened u c := by
    rintro u rfl
    exact Nat.not_succ_le_self c new
  refine ⟨handles_after h.pool.slots permitted ?_ none, ?_⟩
  · cases e with
    | opened u conn => exact beq_false_of_ne fun is => old u (is ▸ rfl)
    | _ => rfl
  · rw [about_after, nothing, List.nil_append, List.filter_eq_nil_iff]
    intro d mem is
    obtain rfl : d.conn = c := beq_iff_eq.mp is
    -- what is done is done with a connection to which a handle leads, or with a new one
    have some : ¬0 < s.pool.places d.conn := fun there => by
      have handles := handles_pos_of_places there
      omega
    rcases recorded_cases permitted mem with ⟨i, idle, is⟩ | ⟨opens, -⟩ | preparing
    · exact some (is ▸ Pool.places_pos_of_idle idle)
    · exact old _ opens
    · exact some (Pool.places_pos_of_has preparing (beq_self_eq_true d.conn))

theorem given_after (h : Kept limit s) (permitted : s.permits e)
    (ran : (s.after e).initializing t ≠ .pending) : t ∈ (s.after e).given := by
  have grows : s.given ⊆ (s.after e).given := by
    cases e with
    | acquire given => cases given with
      | true => exact List.subset_cons_self _ _
      | false => exact List.Subset.refl _
    | _ => exact List.Subset.refl _
  refine grows ?_
  cases own : e.isOf t with
  | false => exact h.given t (initializing_of_other own ▸ ran)
  | true =>
      cases e with
      | begins u c =>
          obtain rfl : u = t := beq_iff_eq.mp own
          exact (begins_ready permitted).2.1
      | succeeds u c =>
          obtain rfl : u = t := beq_iff_eq.mp own
          exact h.given u (by rw [(succeeds_ready permitted).2]; nofun)
      | fails u c =>
          obtain rfl : u = t := beq_iff_eq.mp own
          have running : s.initializing u = .running := beq_iff_eq.mp (ready_of_permits permitted)
          exact h.given u (by rw [running]; nofun)
      | claim | opened | lease | ends => exact h.given t ran
      | _ => cases own

theorem gone_after (h : Kept limit s) (permitted : s.permits e) (gone : s.Gone t) :
    (s.after e).Gone t :=
  ⟨stage?_none_after h.pool.slots permitted gone.2 gone.1,
    Nat.lt_of_lt_of_le gone.2 (tickets_le_after h.pool.slots permitted)⟩

/-- Whoever ends is over. -/
theorem gone_of_ends (h : Kept limit s) {exit : Exit} (permitted : s.permits (.ends t exit)) :
    (s.after (.ends t exit)).Gone t := by
  obtain ⟨stage, there⟩ := pending_of_isOf permitted (beq_self_eq_true t)
  have old := h.pool.slots.lt_of_stage? there
  exact ⟨Pool.stage?_abandon h.pool.slots t,
    Nat.lt_of_lt_of_le old (tickets_le_after h.pool.slots permitted)⟩

theorem returned_after (h : Kept limit s) (permitted : s.permits e)
    (mem : t ∈ (s.after e).returned) : (s.after e).Gone t := by
  cases e with
  | ends u exit =>
      rcases List.mem_append.mp mem with mem | mem
      · exact h.gone_after permitted (h.returned t mem)
      · obtain rfl := List.eq_of_mem_replicate mem
        exact h.gone_of_ends permitted
  | _ => exact h.gone_after permitted (h.returned t mem)

/-- Every event keeps it. -/
theorem after (h : Kept limit s) (permitted : s.permits e) : Kept limit (s.after e) where
  pool := reachable_after h.pool permitted
  once := by
    intro c
    have moved := places_after h.pool.slots permitted c
    have before := h.once c
    cases e with
    | opened u conn =>
        have new : s.fresh ≤ conn := of_decide_eq_true (ready_of_permits permitted)
        by_cases is : conn = c
        · have none := (h.unopened c (is ▸ new)).1
          rw [handles] at none
          split at moved <;> omega
        · rw [show (Event.opened u conn).brings c = false from beq_false_of_ne is] at moved
          exact Nat.le_trans moved before
    | _ => exact Nat.le_trans moved before
  unopened := fun c new => h.unopened_after permitted new
  unborn := by
    intro t new
    have young : s.pool.fresh ≤ t := Nat.le_trans (tickets_le_after h.pool.slots permitted) new
    have other : e.isOf t = false := by
      by_contra own
      obtain ⟨stage, there⟩ := pending_of_isOf permitted (Bool.not_eq_false _ ▸ own)
      have old := h.pool.slots.lt_of_stage? there
      omega
    obtain ⟨pending, none⟩ := h.unborn t young
    exact ⟨(initializing_of_other other).trans pending, (deeds_of_other other).trans none⟩
  stands := fun t stage there => h.stands_after permitted there
  given := fun t ran => h.given_after permitted ran
  returned := fun t mem => h.returned_after permitted mem

theorem steps (h : Kept limit s) (steps : Steps s s') : Kept limit s' := by
  induction steps with
  | refl => exact h
  | tail e _ permitted ih => exact ih.after permitted

end Kept

theorem Reachable.kept (h : Reachable limit s) : Kept limit s := (Kept.new limit).steps h

/-! ## Ever after -/

/-- Whoever is over does nothing any more, and gives nothing back. -/
theorem Gone.steps (h : Kept limit s) (gone : s.Gone t) (steps : Steps s s') :
    s'.Gone t ∧ s'.deeds t = s.deeds t ∧ s'.returned.count t = s.returned.count t := by
  induction steps with
  | refl => exact ⟨gone, rfl, rfl⟩
  | @tail s' e before permitted ih =>
      obtain ⟨ended, deeds, returned⟩ := ih
      have other : e.isOf t = false := by
        by_contra own
        obtain ⟨stage, there⟩ := pending_of_isOf permitted (Bool.not_eq_false _ ▸ own)
        rw [ended.1] at there
        cases there
      refine ⟨(h.steps before).gone_after permitted ended, (deeds_of_other other).trans deeds, ?_⟩
      rw [← returned]
      cases e with
      | ends u exit =>
          have ne : u ≠ t := beq_eq_false_iff_ne.mp other
          show (s'.returned ++ List.replicate _ u).count t = _
          rw [List.count_append, List.count_replicate, if_neg (by simpa using ne), Nat.add_zero]
      | _ => rfl

/-- A connection that is in no place never comes back, and one that is closed stays closed. -/
theorem Steps.lost (h : Kept limit s) (steps : Steps s s') (old : c < s.fresh)
    (nowhere : s.pool.places c = 0) :
    s'.pool.places c = 0 ∧ (s.isOpen c = false → s'.isOpen c = false) := by
  have kept : c < s'.fresh ∧ s'.pool.places c = 0 ∧ (s.isOpen c = false → s'.isOpen c = false) := by
    induction steps with
    | refl => exact ⟨old, nowhere, id⟩
    | @tail s' e before permitted ih =>
        obtain ⟨lt, none, shut⟩ := ih
        have slots := (h.steps before).pool.slots
        have moved := places_after slots permitted c
        rw [brings_of_lt permitted lt, none] at moved
        exact ⟨Nat.lt_of_lt_of_le lt (fresh_le_after permitted), Nat.le_zero.mp moved,
          fun was => isOpen_after slots permitted lt (shut was)⟩
  exact kept.2

end Provision

end ConnectionPool
