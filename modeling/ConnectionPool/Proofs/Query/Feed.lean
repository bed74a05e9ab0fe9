import ConnectionPool.Proofs.Query.Trial

/-!
# Handing rows to a callback

A `Feed` is the work on a query whose rows go to a callback one by one.  Two sides run at the
same time and meet at a channel with room for one row.  The worker of the connection reads a
row, waits until the channel has room, puts the row in and counts it, and then reads on.  The
caller takes rows from the channel and hands them to the callback, and returns when the worker
is done and the channel is empty.  Each of the two may do its next step at any time.

What the attempts yield is given: rows, and then an end or an error.  The worker tries again
after a lock error only if it counted no row in any attempt.  `decides_eq` says that this is the
test of `QueryAttempt.isRetried`, which looks at the rows of the one attempt.

`Fed` says what the callback gets and what is returned.
-/

namespace ConnectionPool

namespace Feed

/-- How far the worker is. -/
inductive Stage where
  /-- Its work waits in the queue of the connection. -/
  | queued
  /-- It reads, and these rows are left. -/
  | reading (left : List Row)
  /-- It read a row and waits for room in the channel. -/
  | offering (row : Row) (left : List Row)
  /-- It put a row into the channel and did not count it yet. -/
  | counting (left : List Row)
  /-- It waits to try again. -/
  | waiting
  /-- It is done. -/
  | finished (result : Except ConnectionError Nat)
  /-- It was dropped, because the caller left. -/
  | dropped

end Feed

/-- The work on a query whose rows go to a callback. -/
structure Feed where
  /-- The number of the attempt. -/
  attempt : Nat := 0
  /-- How far the worker is. -/
  stage : Feed.Stage := .queued
  /-- The rows counted in all attempts. -/
  progress : Nat := 0
  /-- The rows counted in this attempt. -/
  count : Nat := 0
  /-- The rows in the channel. -/
  channel : List Row := []
  /-- The rows the callback got. -/
  received : List Row := []
  /-- The caller left. -/
  left : Bool := false
  /-- What was returned to the caller. -/
  returned : Option (Except ConnectionError Nat) := none

namespace Feed

/-- What happens. -/
inductive Event where
  /-- The worker begins. -/
  | start
  /-- The connection refuses or cancels the work before it begins. -/
  | refuse (e : ConnectionError)
  /-- The worker reads on. -/
  | read
  /-- The worker puts its row into the channel. -/
  | hand
  /-- The worker counts the row it put in. -/
  | count
  /-- The worker finds that nobody takes rows any more. -/
  | stop
  /-- The worker tries again. -/
  | resume
  /-- The connection closes while the worker waits. -/
  | cancel
  /-- The caller takes a row. -/
  | take
  /-- The caller returns. -/
  | finish
  /-- The caller leaves. -/
  | leave
  /-- The work is dropped, because the caller left. -/
  | drop

/-- It can happen. -/
def permits (f : Feed) : Event → Prop
  | .start => f.stage = .queued
  | .refuse e => f.stage = .queued ∧ (e = .closed ∨ e = .cancelled)
  | .read => ∃ left, f.stage = .reading left
  | .hand => f.left = false ∧ f.channel = [] ∧ ∃ row left, f.stage = .offering row left
  | .count => ∃ left, f.stage = .counting left
  | .stop => f.left ∧ ∃ row left, f.stage = .offering row left
  | .resume | .cancel => f.stage = .waiting
  | .take => f.left = false ∧ f.channel ≠ []
  | .finish => f.left = false ∧ f.returned = none ∧ f.channel = [] ∧ ∃ r, f.stage = .finished r
  | .leave => f.left = false ∧ f.returned = none
  | .drop => f.left ∧ f.stage ≠ .dropped ∧ ∀ r, f.stage ≠ .finished r

/-- The worker tries again after an error. -/
def decides (g : Trial.Setting) (f : Feed) (e : ConnectionError) : Bool :=
  e.isLock && f.progress == 0 && !retriesExhausted g.limit f.attempt

/-- An attempt has ended. -/
def ended (g : Trial.Setting) (f : Feed) : Feed :=
  match (g.attempts f.attempt).result with
  | .ok _ => { f with stage := .finished (.ok f.count) }
  | .error e => { f with stage := if f.decides g e then .waiting else .finished (.error e) }

/-- The worker reads on. -/
def read (g : Trial.Setting) (f : Feed) : Feed :=
  match f.stage with
  | .reading (row :: left) => { f with stage := .offering row left }
  | .reading [] => f.ended g
  | _ => f

/-- The worker puts its row into the channel. -/
def hand (f : Feed) : Feed :=
  match f.stage with
  | .offering row left => { f with channel := f.channel ++ [row], stage := .counting left }
  | _ => f

/-- The worker counts a row. -/
def tally (f : Feed) : Feed :=
  match f.stage with
  | .counting left =>
    { f with count := f.count + 1, progress := f.progress + 1, stage := .reading left }
  | _ => f

/-- An attempt begins. -/
def tries (g : Trial.Setting) (f : Feed) (attempt : Nat) : Feed :=
  { f with attempt, count := 0, stage := .reading (g.attempts attempt).delivered }

/-- The caller takes a row. -/
def take (f : Feed) : Feed :=
  match f.channel with
  | [] => f
  | row :: rest => { f with channel := rest, received := f.received ++ [row] }

/-- The caller returns. -/
def finish (f : Feed) : Feed :=
  match f.stage with
  | .finished r => { f with returned := some r }
  | _ => f

/-- The feed after an event. -/
def after (g : Trial.Setting) (f : Feed) : Event → Feed
  | .start => f.tries g 0
  | .refuse e => { f with stage := .finished (.error e) }
  | .read => f.read g
  | .hand => f.hand
  | .count => f.tally
  | .stop => { f with stage := .finished (.ok f.count) }
  | .resume => f.tries g (f.attempt + 1)
  | .cancel => { f with stage := .finished (.error .cancelled) }
  | .take => f.take
  | .finish => f.finish
  | .leave => { f with left := true }
  | .drop => { f with stage := .dropped }

/-- Events, one after the other, from one feed to another. -/
inductive Run (g : Trial.Setting) (f : Feed) : List Event → Feed → Prop where
  | refl : Run g f [] f
  | tail {events : List Event} {f' : Feed} (e : Event) : Run g f events f' → f'.permits e →
      Run g f (events ++ [e]) (f'.after g e)

variable {g : Trial.Setting} {f f' : Feed} {events : List Event}

/-! ## What holds all along -/

/-- The rows that were put into the channel. -/
def handed (f : Feed) : List Row := f.received ++ f.channel

/-- The rows that an attempt yields. -/
def rowsOf (g : Trial.Setting) (n : Nat) : List Row := (g.attempts n).delivered

/-- How far a worker can be at an attempt, when rows were put into the channel and counted. -/
inductive Stands (g : Trial.Setting) (left : Bool) (attempt : Nat) (rows : List Row) :
    (counted : Nat) → Stage → Prop where
  | queued : attempt = 0 → rows = [] → Stands g left attempt rows 0 .queued
  | reading {unread : List Row} : rows ++ unread = rowsOf g attempt →
      Stands g left attempt rows rows.length (.reading unread)
  | offering {row : Row} {unread : List Row} : rows ++ row :: unread = rowsOf g attempt →
      Stands g left attempt rows rows.length (.offering row unread)
  | counting {counted : Nat} {unread : List Row} : rows ++ unread = rowsOf g attempt →
      rows.length = counted + 1 → Stands g left attempt rows counted (.counting unread)
  | waiting : rows = [] → Trial.Again g attempt → Stands g left attempt rows 0 .waiting
  | finished {r : QueryResult} : rows = rowsOf g attempt → (g.attempts attempt).result = .ok r →
      Stands g left attempt rows rows.length (.finished (.ok rows.length))
  | failed {e : ConnectionError} : rows = rowsOf g attempt →
      (g.attempts attempt).result = .error e → ¬ Trial.Again g attempt →
      Stands g left attempt rows rows.length (.finished (.error e))
  | cancelled : rows = [] → Trial.Again g attempt →
      Stands g left attempt rows 0 (.finished (.error .cancelled))
  | refused {e : ConnectionError} : attempt = 0 → rows = [] → e = .closed ∨ e = .cancelled →
      Stands g left attempt rows 0 (.finished (.error e))
  | stopped {counted : Nat} : left → rows <+: rowsOf g attempt →
      Stands g left attempt rows counted (.finished (.ok counted))
  | dropped {counted : Nat} : left → rows <+: rowsOf g attempt →
      Stands g left attempt rows counted .dropped

/-- What holds of a feed at any time. -/
structure Inv (g : Trial.Setting) (f : Feed) : Prop where
  /-- Each earlier attempt was followed by another. -/
  earlier : ∀ i < f.attempt, Trial.Again g i
  /-- All rows that were counted were counted in this attempt. -/
  counts : f.progress = f.count
  /-- How far the worker is. -/
  stands : Stands g f.left f.attempt f.handed f.count f.stage
  /-- The channel never holds more than it has room for. -/
  room : f.channel.length ≤ 1
  /-- A caller to whom something was returned stayed, and has taken all rows. -/
  returned : ∀ r, f.returned = some r → f.left = false ∧ f.channel = [] ∧ f.stage = .finished r

theorem Inv.standing {stage : Stage} (inv : Inv g f) (is : f.stage = stage) :
    Stands g f.left f.attempt f.handed f.count stage := is ▸ inv.stands

theorem Stands.leave {left : Bool} {attempt counted : Nat} {rows : List Row} {stage : Stage}
    (h : Stands g left attempt rows counted stage) : Stands g true attempt rows counted stage := by
  cases h with
  | queued first none => exact .queued first none
  | reading whole => exact .reading whole
  | offering whole => exact .offering whole
  | counting whole counted => exact .counting whole counted
  | waiting none again => exact .waiting none again
  | finished whole result => exact .finished whole result
  | failed whole result last => exact .failed whole result last
  | cancelled none again => exact .cancelled none again
  | refused first none e => exact .refused first none e
  | stopped _ part => exact .stopped rfl part
  | dropped _ part => exact .dropped rfl part

/-- At no time were other rows put in than those of the attempt, from the first on. -/
theorem Stands.isPrefix {left : Bool} {attempt counted : Nat} {rows : List Row} {stage : Stage}
    (h : Stands g left attempt rows counted stage) : rows <+: rowsOf g attempt := by
  cases h with
  | queued _ none | waiting none _ | cancelled none _ | refused _ none _ =>
      exact none ▸ List.nil_prefix
  | reading whole | offering whole | counting whole _ => exact ⟨_, whole⟩
  | finished whole _ | failed whole _ _ => exact whole ▸ List.prefix_refl _
  | stopped _ part | dropped _ part => exact part

theorem handed_take (f : Feed) : f.take.handed = f.handed := by
  unfold take handed
  split
  · rfl
  · rename_i row rest channel
    simp [channel]

/-- The worker's test whether it tries again is that of an attempt. -/
theorem decides_eq {e : ConnectionError} (inv : Inv g f) (drained : f.stage = .reading [])
    (failed : (g.attempts f.attempt).result = .error e) :
    f.decides g e = (g.attempts f.attempt).isRetried g.limit f.attempt := by
  have stands := inv.standing drained
  generalize counted : f.count = count at stands
  cases stands with
  | reading whole =>
      rw [List.append_nil] at whole
      have none : (f.progress == 0) = (g.attempts f.attempt).delivered.isEmpty := by
        rw [inv.counts, counted, whole, rowsOf]
        cases (g.attempts f.attempt).delivered <;> rfl
      rw [decides, QueryAttempt.isRetried, failed, none]

/-- Nothing was returned before the worker is done. -/
theorem Inv.unreturned {stage : Stage} (inv : Inv g f) (stands : f.stage = stage)
    (going : ∀ r, stage ≠ .finished r) (r : Except ConnectionError Nat) : f.returned ≠ some r :=
  fun returned => going r (stands ▸ (inv.returned r returned).2.2)

/-- Only how far the worker is changes. -/
theorem Inv.put {stage : Stage} (inv : Inv g f) (unreturned : ∀ r, f.returned ≠ some r)
    (stands : Stands g f.left f.attempt f.handed f.count stage) : Inv g { f with stage } :=
  ⟨inv.earlier, inv.counts, stands, inv.room, fun r returned => absurd returned (unreturned r)⟩

theorem Inv.tries {n : Nat} (inv : Inv g f) (unreturned : ∀ r, f.returned ≠ some r)
    (earlier : ∀ i < n, Trial.Again g i) (none : f.handed = []) (uncounted : f.progress = 0) :
    Inv g (f.tries g n) where
  earlier := earlier
  counts := uncounted
  stands := by
    show Stands g f.left n f.handed 0 (.reading (rowsOf g n))
    rw [none]
    exact .reading rfl
  room := inv.room
  returned r returned := absurd returned (unreturned r)

theorem Inv.ended (inv : Inv g f) (drained : f.stage = .reading []) : Inv g (f.ended g) := by
  have unreturned := inv.unreturned drained (fun _ => nofun)
  have decides {e : ConnectionError} := decides_eq (e := e) inv drained
  have stands := inv.standing drained
  generalize counted : f.count = count at stands
  cases stands with
  | reading whole =>
      rw [List.append_nil] at whole
      rw [Feed.ended]
      cases result : (g.attempts f.attempt).result with
      | ok r =>
          refine inv.put unreturned ?_
          rw [counted]
          exact .finished whole result
      | error e =>
          refine inv.put unreturned ?_
          rw [decides result, counted]
          split
          · rename_i again
            have none : f.handed = [] :=
              whole.trans (QueryAttempt.isRetried_iff.mp again).1.choose_spec.2.2.2
            rw [none]
            exact .waiting rfl again
          · rename_i last
            exact .failed whole result last

theorem Inv.read (inv : Inv g f) : Inv g (f.read g) := by
  unfold Feed.read
  split
  · rename_i row left reading
    refine inv.put (inv.unreturned reading (fun _ => nofun)) ?_
    have stands := inv.standing reading
    generalize f.count = count at stands ⊢
    cases stands with
    | reading whole => exact .offering whole
  · rename_i drained
    exact inv.ended drained
  · exact inv

theorem Inv.hand (inv : Inv g f) (room : f.channel = []) : Inv g f.hand := by
  unfold Feed.hand
  split
  · rename_i row left offering
    have unreturned := inv.unreturned offering (fun _ => nofun)
    refine ⟨inv.earlier, inv.counts, ?_, ?_, fun r eq => absurd eq (unreturned r)⟩
    · have more : f.handed ++ [row] = f.received ++ (f.channel ++ [row]) := List.append_assoc ..
      show Stands g f.left f.attempt (f.received ++ (f.channel ++ [row])) f.count (.counting left)
      rw [← more]
      have stands := inv.standing offering
      generalize f.count = count at stands ⊢
      cases stands with
      | offering whole =>
          exact .counting (by rw [List.append_assoc]; exact whole) List.length_append
    · rw [room]
      exact Nat.le_refl 1
  · exact inv

theorem Inv.tally (inv : Inv g f) : Inv g f.tally := by
  unfold Feed.tally
  split
  · rename_i left counting
    have unreturned := inv.unreturned counting (fun _ => nofun)
    refine ⟨inv.earlier, congrArg (· + 1) inv.counts, ?_, inv.room,
      fun r eq => absurd eq (unreturned r)⟩
    have stands := inv.standing counting
    show Stands g f.left f.attempt f.handed (f.count + 1) (.reading left)
    generalize f.count = count at stands ⊢
    cases stands with
    | counting whole counted =>
        rw [← counted]
        exact .reading whole
  · exact inv

theorem Inv.take (inv : Inv g f) : Inv g f.take := by
  have handed := handed_take f
  unfold Feed.take at handed ⊢
  split at handed
  · exact inv
  · rename_i row rest channel
    refine ⟨inv.earlier, inv.counts, handed ▸ inv.stands, ?_, ?_⟩
    · have room := inv.room
      rw [channel] at room
      exact Nat.le_trans (Nat.le_succ _) room
    · intro r returned
      rw [(inv.returned r returned).2.1] at channel
      cases channel

/-- A worker that waits has put no row in. -/
theorem Inv.waiting (inv : Inv g f) (waits : f.stage = .waiting) :
    f.handed = [] ∧ f.count = 0 ∧ Trial.Again g f.attempt := by
  have stands := inv.standing waits
  generalize f.count = count at stands ⊢
  cases stands with
  | waiting none again => exact ⟨none, rfl, again⟩

theorem Inv.queued (inv : Inv g f) (waits : f.stage = .queued) :
    f.attempt = 0 ∧ f.handed = [] ∧ f.count = 0 := by
  have stands := inv.standing waits
  generalize f.count = count at stands ⊢
  cases stands with
  | queued first none => exact ⟨first, none, rfl⟩

theorem Inv.finish (inv : Inv g f) (stayed : f.left = false) (drained : f.channel = []) :
    Inv g f.finish := by
  unfold Feed.finish
  split
  · rename_i r finished
    refine ⟨inv.earlier, inv.counts, inv.stands, inv.room, fun r' returned => ?_⟩
    exact Option.some.inj returned ▸ ⟨stayed, drained, finished⟩
  · exact inv

theorem Inv.after (inv : Inv g f) {e : Event} (permitted : f.permits e) :
    Inv g (f.after g e) := by
  cases e with
  | start =>
      obtain ⟨first, none, uncounted⟩ := inv.queued permitted
      exact inv.tries (inv.unreturned permitted fun _ => nofun)
        (fun i lt => absurd lt (Nat.not_lt_zero i)) none (inv.counts.trans uncounted)
  | refuse e =>
      obtain ⟨queued, kind⟩ := permitted
      obtain ⟨first, none, uncounted⟩ := inv.queued queued
      refine inv.put (inv.unreturned queued fun _ => nofun) ?_
      rw [uncounted]
      exact .refused first none kind
  | read => exact inv.read
  | hand => exact inv.hand permitted.2.1
  | count => exact inv.tally
  | stop =>
      obtain ⟨left, row, unread, offering⟩ := permitted
      exact inv.put (inv.unreturned offering fun _ => nofun) (.stopped left inv.stands.isPrefix)
  | resume =>
      obtain ⟨none, uncounted, again⟩ := inv.waiting permitted
      exact inv.tries (inv.unreturned permitted fun _ => nofun)
        (Nat.forall_lt_succ_right.mpr ⟨inv.earlier, again⟩) none (inv.counts.trans uncounted)
  | cancel =>
      obtain ⟨none, uncounted, again⟩ := inv.waiting permitted
      refine inv.put (inv.unreturned permitted fun _ => nofun) ?_
      rw [uncounted]
      exact .cancelled none again
  | take => exact inv.take
  | finish => exact inv.finish permitted.1 permitted.2.2.1
  | leave =>
      refine ⟨inv.earlier, inv.counts, inv.stands.leave, inv.room, fun r returned => ?_⟩
      cases returned.symm.trans permitted.2
  | drop =>
      refine inv.put (fun r returned => ?_) (.dropped permitted.1 inv.stands.isPrefix)
      exact permitted.2.2 r (inv.returned r returned).2.2

theorem Run.inv (h : Run g {} events f) : Inv g f := by
  induction h with
  | refl =>
      exact ⟨fun i lt => absurd lt (Nat.not_lt_zero i), rfl, .queued rfl rfl, Nat.zero_le 1,
        fun _ => nofun⟩
  | tail e _ permitted ih => exact ih.after permitted

/-! ## No row twice -/

/-- Once a row was put into the channel, no other attempt is begun. -/
theorem Inv.keeps (inv : Inv g f) (some : f.handed ≠ []) {e : Event} (permitted : f.permits e) :
    (f.after g e).attempt = f.attempt ∧ (f.after g e).handed ≠ [] := by
  cases e with
  | start => exact absurd (inv.queued permitted).2.1 some
  | resume => exact absurd (inv.waiting permitted).1 some
  | read =>
      simp only [Feed.after]
      unfold Feed.read Feed.ended
      repeat' split
      all_goals exact ⟨rfl, some⟩
  | hand =>
      simp only [Feed.after]
      unfold Feed.hand
      split
      · exact ⟨rfl, by simp [handed]⟩
      · exact ⟨rfl, some⟩
  | count =>
      simp only [Feed.after]
      unfold Feed.tally
      split <;> exact ⟨rfl, some⟩
  | take =>
      refine ⟨?_, by rwa [Feed.after, handed_take]⟩
      simp only [Feed.after]
      unfold Feed.take
      split <;> rfl
  | finish =>
      simp only [Feed.after]
      unfold Feed.finish
      split <;> exact ⟨rfl, some⟩
  | refuse e | stop | cancel | leave | drop => exact ⟨rfl, some⟩

theorem Run.keeps (h : Run g f events f') (inv : Inv g f) (some : f.handed ≠ []) :
    Inv g f' ∧ f'.attempt = f.attempt ∧ f'.handed ≠ [] := by
  induction h with
  | refl => exact ⟨inv, rfl, some⟩
  | tail e _ permitted ih =>
      obtain ⟨inv', same, some'⟩ := ih
      obtain ⟨same', some''⟩ := inv'.keeps some' permitted
      exact ⟨inv'.after permitted, same'.trans same, some''⟩

/-! ## Coming to an end -/

/-- What the attempts before the final one have still to do, and it. -/
def ahead (g : Trial.Setting) (n attempt : Nat) : Nat :=
  if attempt < n then 4 * (rowsOf g n).length + 3 * (n - attempt) else 0

/-- An upper bound for what the worker has to do. -/
def Stage.load (g : Trial.Setting) (n attempt : Nat) : Stage → Nat
  | .queued => 4 * (rowsOf g n).length + 3 * n + 3
  | .reading left => 4 * left.length + ahead g n attempt + 2
  | .offering _ left => 4 * left.length + ahead g n attempt + 5
  | .counting left => 4 * left.length + ahead g n attempt + 3
  | .waiting => ahead g n attempt + 1
  | .finished _ => 0
  | .dropped => 0

/-- An upper bound for what can still happen when the attempt of a number is the final one. -/
def load (g : Trial.Setting) (n : Nat) (f : Feed) : Nat :=
  f.stage.load g n f.attempt + f.channel.length + (if f.returned.isSome then 0 else 1) +
    if f.left then 0 else 1

variable {n : Nat}

theorem Inv.attempt_le (inv : Inv g f) (final : Trial.Final g n) : f.attempt ≤ n :=
  Nat.le_of_not_lt fun lt => (Trial.final_iff.mp final).1 (inv.earlier n lt)

theorem ahead_of_again (final : Trial.Final g n) (le : f.attempt ≤ n)
    (again : Trial.Again g f.attempt) : f.attempt < n :=
  Nat.lt_of_le_of_ne le fun eq => (Trial.final_iff.mp final).1 (eq ▸ again)

theorem Stage.load_pos {stage : Stage} (going : ∀ r, stage ≠ .finished r) (kept : stage ≠ .dropped)
    (attempt : Nat) : 0 < stage.load g n attempt := by
  cases stage with
  | finished r => exact absurd rfl (going r)
  | dropped => exact absurd rfl kept
  | _ => exact Nat.succ_pos _

/-- When only the worker goes on, only its part counts. -/
theorem load_lt (channel : f'.channel = f.channel) (returned : f'.returned = f.returned)
    (left : f'.left = f.left) (lt : f'.stage.load g n f'.attempt < f.stage.load g n f.attempt) :
    f'.load g n < f.load g n := by
  simp only [load, channel, returned, left]
  omega

theorem load_put {stage : Stage} (lt : stage.load g n f.attempt < f.stage.load g n f.attempt) :
    ({ f with stage } : Feed).load g n < f.load g n :=
  load_lt rfl rfl rfl lt

/-- When the worker is done, nothing is left for it to do. -/
theorem load_finished {stage : Stage} (r : Except ConnectionError Nat) (stands : f.stage = stage)
    (going : ∀ r, stage ≠ .finished r) (kept : stage ≠ .dropped) :
    ({ f with stage := .finished r } : Feed).load g n < f.load g n := by
  refine load_put ?_
  rw [stands]
  exact Stage.load_pos going kept _

/-- What is left to do when an attempt begins. -/
theorem load_reading {m : Nat} (earlier : ∀ i < m, Trial.Again g i) (final : Trial.Final g n) :
    (Stage.reading (rowsOf g m)).load g n m ≤ 4 * (rowsOf g n).length + 3 * (n - m) + 2 := by
  have le : m ≤ n := Nat.le_of_not_lt fun lt => (Trial.final_iff.mp final).1 (earlier n lt)
  rw [Stage.load, ahead]
  split
  · rename_i lt
    have none : rowsOf g m = [] := (final.2 m lt).1.choose_spec.2.2.2
    rw [none, List.length_nil]
    omega
  · have last : m = n := by omega
    subst last
    omega

/-- When an attempt begins, there is less to do than before. -/
theorem load_tries {m : Nat} (earlier : ∀ i < m, Trial.Again g i) (final : Trial.Final g n)
    (lt : 4 * (rowsOf g n).length + 3 * (n - m) + 2 < f.stage.load g n f.attempt) :
    (f.tries g m).load g n < f.load g n :=
  load_lt rfl rfl rfl (Nat.lt_of_le_of_lt (load_reading earlier final) lt)

theorem load_read {left : List Row} (reading : f.stage = .reading left) :
    (f.read g).load g n < f.load g n := by
  cases left with
  | cons row left =>
      rw [Feed.read, reading]
      refine load_put ?_
      rw [reading, Stage.load, Stage.load, List.length_cons]
      omega
  | nil =>
      rw [Feed.read, reading, Feed.ended]
      cases (g.attempts f.attempt).result with
      | ok r => exact load_finished _ reading (fun _ => nofun) nofun
      | error e =>
          simp only
          split
          · refine load_put ?_
            rw [reading, Stage.load, Stage.load]
            omega
          · exact load_finished _ reading (fun _ => nofun) nofun

/-- Whatever happens, less is left to happen. -/
theorem Inv.load_after (inv : Inv g f) (final : Trial.Final g n) {e : Event}
    (permitted : f.permits e) : (f.after g e).load g n < f.load g n := by
  cases e with
  | start =>
      refine load_tries (fun i lt => absurd lt (Nat.not_lt_zero i)) final ?_
      rw [show f.stage = .queued from permitted, Stage.load]
      omega
  | resume =>
      obtain ⟨-, -, again⟩ := inv.waiting permitted
      have lt := ahead_of_again final (inv.attempt_le final) again
      refine load_tries (Nat.forall_lt_succ_right.mpr ⟨inv.earlier, again⟩) final ?_
      rw [show f.stage = .waiting from permitted, Stage.load, ahead, if_pos lt]
      omega
  | refuse e => exact load_finished _ permitted.1 (fun _ => nofun) nofun
  | cancel => exact load_finished _ permitted (fun _ => nofun) nofun
  | stop =>
      obtain ⟨-, row, left, offering⟩ := permitted
      exact load_finished _ offering (fun _ => nofun) nofun
  | drop => exact load_put (Stage.load_pos permitted.2.2 permitted.2.1 _)
  | read =>
      obtain ⟨left, reading⟩ := permitted
      exact load_read reading
  | hand =>
      obtain ⟨-, room, row, left, offering⟩ := permitted
      simp only [Feed.after, Feed.hand, load, offering, Stage.load, List.length_append,
        List.length_singleton]
      omega
  | count =>
      obtain ⟨left, counting⟩ := permitted
      simp only [Feed.after, Feed.tally, counting, load, Stage.load]
      omega
  | take =>
      obtain ⟨-, some⟩ := permitted
      obtain ⟨row, rest, channel⟩ := List.exists_cons_of_ne_nil some
      simp only [Feed.after, Feed.take, load, channel, List.length_cons]
      omega
  | finish =>
      obtain ⟨-, unreturned, -, r, finished⟩ := permitted
      simp [Feed.after, Feed.finish, load, finished, unreturned]
  | leave =>
      simp only [Feed.after, load, permitted.1]
      exact Nat.lt_succ_self _

/-- So many events at most can happen. -/
theorem Run.length_le (h : Run g f events f') (inv : Inv g f) (final : Trial.Final g n) :
    Inv g f' ∧ events.length + f'.load g n ≤ f.load g n := by
  induction h with
  | refl => exact ⟨inv, by simp⟩
  | tail e _ permitted ih =>
      obtain ⟨inv', le⟩ := ih
      have lt := inv'.load_after final permitted
      refine ⟨inv'.after permitted, ?_⟩
      rw [List.length_append, List.length_singleton]
      omega

/-- As long as the caller waits for the result, something else than that it leaves can happen. -/
theorem Inv.exists_permitted (inv : Inv g f) (stayed : f.left = false)
    (unreturned : f.returned = none) : ∃ e, e ≠ .leave ∧ f.permits e := by
  by_cases room : f.channel = []
  · cases stage : f.stage with
    | queued => exact ⟨.start, nofun, stage⟩
    | reading left => exact ⟨.read, nofun, left, stage⟩
    | offering row left => exact ⟨.hand, nofun, stayed, room, row, left, stage⟩
    | counting left => exact ⟨.count, nofun, left, stage⟩
    | waiting => exact ⟨.resume, nofun, stage⟩
    | finished r => exact ⟨.finish, nofun, stayed, unreturned, room, r, stage⟩
    | dropped =>
        have stands := inv.standing stage
        generalize f.count = count at stands
        cases stands with
        | dropped left _ => cases stayed.symm.trans left
  · exact ⟨.take, nofun, stayed, room⟩

/-! ## What is returned -/

/-- What a query returns that keeps something of each row. -/
def mapped {β : Type} (f : Feed) (h : Row → β) : Option (Except ConnectionError (List β)) :=
  f.returned.map fun r => r.map fun _ => f.received.map h

theorem Inv.returned_ok {count : Nat} (inv : Inv g f) (returned : f.returned = some (.ok count)) :
    Trial.Final g f.attempt ∧ (∃ r, (g.attempts f.attempt).result = .ok r) ∧
      f.received = rowsOf g f.attempt ∧ count = f.received.length := by
  obtain ⟨stayed, drained, finished⟩ := inv.returned _ returned
  have received : f.handed = f.received := by rw [handed, drained, List.append_nil]
  have stands := inv.standing finished
  rw [received, stayed] at stands
  generalize f.count = counted at stands
  cases stands with
  | finished whole result =>
      refine ⟨Trial.final_iff.mpr ⟨fun again => ?_, inv.earlier⟩, ⟨_, result⟩, whole, rfl⟩
      obtain ⟨e, failed, -⟩ := (QueryAttempt.isRetried_iff.mp again).1
      cases result.symm.trans failed
  | stopped left _ => cases left

theorem Inv.returned_error {e : ConnectionError} (inv : Inv g f)
    (returned : f.returned = some (.error e)) :
    (Trial.Final g f.attempt ∧ (g.attempts f.attempt).result = .error e ∧
      f.received = rowsOf g f.attempt) ∨ f.received = [] ∧ (e = .cancelled ∨ e = .closed) := by
  obtain ⟨-, drained, finished⟩ := inv.returned _ returned
  have received : f.handed = f.received := by rw [handed, drained, List.append_nil]
  have stands := inv.standing finished
  rw [received] at stands
  generalize f.count = counted at stands
  cases stands with
  | failed whole result last =>
      exact .inl ⟨Trial.final_iff.mpr ⟨last, inv.earlier⟩, result, whole⟩
  | cancelled none _ => exact .inr ⟨none, .inl rfl⟩
  | refused _ none kind => exact .inr ⟨none, kind.symm⟩

end Feed

/-! ## The same answers for another query -/

variable {s : Statement}

/-- A query for all rows gives the rows that another hands to its callback, and fails with the
same errors. -/
theorem Answer.attempt_all (answer : Answer) (s : Statement) :
    answer.attempt .all s =
      ⟨[], (answer.attempt .each s).result.map fun _ =>
        .rows (answer.attempt .each s).delivered⟩ := by
  simp only [attempt]
  cases s.prepare with
  | error e => rfl
  | ok prepared =>
      cases answer with
      | unreadable rows what => rfl
      | outcome o =>
          simp only [QueryAttempt.ofOutcome]
          cases o.failure <;> rfl

theorem Answer.attempt_all_retryable {answer : Answer}
    (retryable : (answer.attempt .each s).Retryable) : (answer.attempt .all s).Retryable := by
  obtain ⟨e, failed, code, other, -⟩ := retryable
  refine ⟨e, ?_, code, other, ?_⟩
  · rw [attempt_all, failed]
    rfl
  · rw [attempt_all]

namespace Feed

variable {limit : Option Nat} {delay : Nat} {answers : Nat → Answer}

theorem final_all {n : Nat} {r : QueryResult}
    (final : Trial.Final (.of limit delay .each s answers) n)
    (ended : ((answers n).attempt .each s).result = .ok r) :
    Trial.Final (.of limit delay .all s answers) n := by
  refine ⟨.inl ?_, fun i lt => ⟨Answer.attempt_all_retryable (final.2 i lt).1, (final.2 i lt).2⟩⟩
  rintro ⟨e, failed, -⟩
  simp only [Trial.Setting.of, Answer.attempt_all, ended] at failed
  cases failed

/-- What the callback gets, and what is returned, when the attempts at a statement meet these
answers. -/
structure Fed (limit : Option Nat) (delay : Nat) (s : Statement) (answers : Nat → Answer)
    (f : Feed) : Prop where
  /-- All attempts before this one failed with a lock error, and without a row. -/
  earlier : ∀ i < f.attempt, ((answers i).attempt .each s).Retryable
  /-- The callback has got the first rows of this attempt, in order and each once. -/
  received : f.received <+: ((answers f.attempt).attempt .each s).delivered
  /-- When a number is returned, the attempt has come to its end, and the callback has got all
  its rows, which are so many. -/
  ok : ∀ count, f.returned = some (.ok count) →
    (∃ r, ((answers f.attempt).attempt .each s).result = .ok r) ∧
      f.received = ((answers f.attempt).attempt .each s).delivered ∧ count = f.received.length
  /-- When an error is returned, it is that of the attempt, or the work was refused or cancelled
  between two attempts. -/
  error : ∀ e, f.returned = some (.error e) →
    ((answers f.attempt).attempt .each s).result = .error e ∧
        f.received = ((answers f.attempt).attempt .each s).delivered ∨
      f.received = [] ∧ (e = .cancelled ∨ e = .closed)
  /-- What is returned comes of the final attempt, unless the connection closes. -/
  final : ∀ r, f.returned = some r → r ≠ .error .cancelled → r ≠ .error .closed →
    Trial.Final (.of limit delay .each s answers) f.attempt
  /-- A query that keeps something of each row returns what it keeps of the rows that a query
  for all rows returns. -/
  mapped : ∀ (β : Type) (h : Row → β) (list : List β), f.mapped h = some (.ok list) →
    ∃ rows, list = rows.map h ∧
      (∃ t, Trial.Steps (.of limit delay .all s answers) {} t ∧
        t.stage = .finished (.ok (.rows rows))) ∧
      ∀ t result, Trial.Steps (.of limit delay .all s answers) {} t → t.closing = false →
        t.stage = .finished result → result = .ok (.rows rows)
  /-- Once a row was handed over, no other attempt is made. -/
  once : f.received ++ f.channel ≠ [] → ∀ events f',
    Run (.of limit delay .each s answers) f events f' → f'.attempt = f.attempt
  /-- As long as the caller waits, something can happen. -/
  onward : f.left = false → f.returned = none → ∃ e, e ≠ .leave ∧ f.permits e
  /-- If there is a final attempt, not more than so much can happen. -/
  bounded : ∀ n, Trial.Final (.of limit delay .each s answers) n → ∃ bound, ∀ events f',
    Run (.of limit delay .each s answers) f events f' → events.length ≤ bound

/-- What a query for all rows returns when another has handed all of them to its callback. -/
theorem Inv.mapped (inv : Inv (.of limit delay .each s answers) f) {β : Type} {h : Row → β}
    {list : List β} (returned : f.mapped h = some (.ok list)) :
    ∃ rows, list = rows.map h ∧
      (∃ t, Trial.Steps (.of limit delay .all s answers) {} t ∧
        t.stage = .finished (.ok (.rows rows))) ∧
      ∀ t result, Trial.Steps (.of limit delay .all s answers) {} t → t.closing = false →
        t.stage = .finished result → result = .ok (.rows rows) := by
  obtain ⟨count, told, rfl⟩ : ∃ count, f.returned = some (.ok count) ∧ list = f.received.map h := by
    unfold Feed.mapped at returned
    cases told : f.returned with
    | none => simp [told] at returned
    | some r =>
        cases r with
        | error e => simp [told, Except.map] at returned
        | ok count =>
            rw [told] at returned
            cases returned
            exact ⟨count, rfl, rfl⟩
  obtain ⟨final, ⟨r, ended⟩, received, -⟩ := inv.returned_ok told
  have all := final_all final ended
  have result : ((answers f.attempt).attempt .all s).result = .ok (.rows f.received) := by
    rw [Answer.attempt_all, show ((answers f.attempt).attempt .each s).result = .ok r from ended,
      received]
    rfl
  refine ⟨f.received, rfl, ?_, ?_⟩
  · obtain ⟨t, steps, -, finished⟩ := Trial.Steps.refl.ends rfl nofun all
    exact ⟨t, steps, finished.trans (congrArg _ result)⟩
  · intro t told steps opened finished
    obtain ⟨n, final', -, rfl⟩ := steps.inv.result opened finished
    obtain rfl := all.unique final'
    exact result

/-- A query hands each row to its callback once, however the two sides take turns. -/
theorem fed_of_run (h : Run (.of limit delay .each s answers) {} events f) :
    Fed limit delay s answers f where
  earlier i lt := (QueryAttempt.isRetried_iff.mp (h.inv.earlier i lt)).1
  received := (List.prefix_append f.received f.channel).trans h.inv.stands.isPrefix
  ok count returned := (h.inv.returned_ok returned).2
  error e returned := (h.inv.returned_error returned).imp_left (·.2)
  final r returned uncancelled unrefused := by
    cases r with
    | ok count => exact (h.inv.returned_ok returned).1
    | error e =>
        rcases h.inv.returned_error returned with ⟨final, -⟩ | ⟨-, rfl | rfl⟩
        · exact final
        · exact absurd rfl uncancelled
        · exact absurd rfl unrefused
  mapped _ _ _ returned := h.inv.mapped returned
  once some _ _ h' := (h'.keeps h.inv some).2.1
  onward stayed unreturned := h.inv.exists_permitted stayed unreturned
  bounded n final := ⟨_, fun _ _ h' => Nat.le_trans (Nat.le_add_right _ _)
    (h'.length_le h.inv final).2⟩

/-- A lock, and then two rows.  The second is read before the first is taken. -/
theorem fed_of_run_second :
    let rows := [Record.ofList [("v", .integer 1)], Record.ofList [("v", .integer 2)]]
    let answers := fun n =>
      if n = 0 then Answer.outcome { failure := some (.database 5 "database is locked") }
      else .outcome { rows }
    let s : Statement := ⟨"SELECT v FROM t", .none⟩
    ∃ events f, Run (.of (some 3) 50 .each s answers) {} events f ∧ f.returned = some (.ok 2) ∧
      f.attempt = 1 ∧ f.received = rows ∧ Fed (some 3) 50 s answers f := by
  intro rows answers s
  have none : Run (.of (some 3) 50 .each s answers) {} [] {} := .refl
  have locked := (none.tail .start rfl).tail .read ⟨[], rfl⟩
  have first := (((locked.tail .resume rfl).tail .read ⟨_, rfl⟩).tail .hand
    ⟨rfl, rfl, _, _, rfl⟩).tail .count ⟨_, rfl⟩
  have second := (((first.tail .read ⟨_, rfl⟩).tail .take ⟨rfl, nofun⟩).tail .hand
    ⟨rfl, rfl, _, _, rfl⟩).tail .count ⟨_, rfl⟩
  have run := ((second.tail .read ⟨_, rfl⟩).tail .take ⟨rfl, nofun⟩).tail .finish
    ⟨rfl, rfl, rfl, _, rfl⟩
  exact ⟨_, _, run, rfl, rfl, rfl, fed_of_run run⟩

end Feed

end ConnectionPool
