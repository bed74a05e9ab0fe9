import ConnectionPool.Query

/-!
# Trying a statement

A `Trial` is the work on one statement, from the first attempt to the result.  What the engine
answers to the attempts is given, one answer for each; everything else may happen at any time:
other connections come and go, so that the work waits now in line and now for a delay, a wake
comes or the delay passes, the connection closes, the caller leaves.

After an attempt the work waits or is over, as `QueryAttempt.isRetried` says.  When it looks how
its pause stands it goes on as `PauseState.of` says.  When its pause is over and the connection
closes, it may notice either first.

`Settled` says when a trial is over, after how many attempts, and with which result.
-/

namespace ConnectionPool

/-! ## Attempts -/

/-- What an attempt at a prepared statement meets. -/
inductive Answer where
  /-- The engine did what it does with the text. -/
  | outcome (o : Engine.Outcome)
  /-- After these rows came one that cannot be read. -/
  | unreadable (rows : List Row) (what : String)

/-- The attempt that meets an answer. -/
def Answer.attempt (kind : QueryKind) (s : Statement) (answer : Answer) : QueryAttempt :=
  match s.prepare with
  | .error e => ⟨[], .error e⟩
  | .ok _ =>
    match answer with
    | .outcome o => .ofOutcome kind s o
    | .unreadable rows what =>
      ⟨if kind.streams then rows else [], .error (.unsupportedDatatype what)⟩

/-- The attempt met a lock, and what it did can be done again. -/
def QueryAttempt.Retryable (a : QueryAttempt) : Prop :=
  ∃ e, a.result = .error (.engine e) ∧ (e.code % 256 = 5 ∨ e.code % 256 = 6) ∧ e.code ≠ 517 ∧
    a.delivered = []

variable {kind : QueryKind} {s : Statement} {a : QueryAttempt} {limit : Option Nat} {n : Nat}

theorem Engine.attempt_eq (e : Engine) (session : Nat) (kind : QueryKind) (s : Statement) :
    ∃ o, (e.attempt session kind s).2 = (Answer.outcome o).attempt kind s := by
  unfold Engine.attempt Answer.attempt
  cases s.prepare with
  | error error => exact ⟨{}, rfl⟩
  | ok prepared => exact ⟨_, rfl⟩

theorem EngineError.isLock_iff (e : EngineError) :
    e.isLock ↔ (e.code % 256 = 5 ∨ e.code % 256 = 6) ∧ e.code ≠ 517 := by
  simp [isLock, primaryCode, busyCode, lockedCode, staleSnapshotCode, and_comm]

theorem retriesExhausted_eq_false_iff :
    retriesExhausted limit n = false ↔ ∀ m, limit = some m → n < m := by
  cases limit <;> simp [retriesExhausted]

theorem QueryAttempt.isRetried_iff :
    a.isRetried limit n ↔ a.Retryable ∧ ∀ m, limit = some m → n < m := by
  obtain ⟨delivered, result⟩ := a
  cases result with
  | ok r => simp [isRetried, Retryable]
  | error e =>
      cases e with
      | engine e =>
          simp only [isRetried, Retryable, ConnectionError.isLock, Bool.and_eq_true,
            Bool.not_eq_true', retriesExhausted_eq_false_iff, EngineError.isLock_iff,
            List.isEmpty_iff, Except.error.injEq, ConnectionError.engine.injEq, exists_eq_left',
            and_assoc]
      | _ => simp [isRetried, Retryable, ConnectionError.isLock]

/-- Preparing a statement never fails in the engine. -/
theorem Statement.prepare_ne_engine (s : Statement) (e : EngineError) :
    s.prepare ≠ .error (.engine e) := by
  unfold Statement.prepare
  repeat' split
  all_goals simp

/-- An attempt that fails in the engine tells what the engine told, with the statement as it
was submitted. -/
theorem Answer.attempt_engine {answer : Answer} {e : EngineError}
    (failed : (answer.attempt kind s).result = .error (.engine e)) :
    ∃ o code text, answer = .outcome o ∧ o.failure = some (.database code text) ∧
      e = ⟨code, text, some s.sql, some s.args⟩ := by
  cases prepared : s.prepare with
  | error error =>
      simp only [attempt, prepared, Except.error.injEq] at failed
      exact absurd (failed ▸ prepared) (s.prepare_ne_engine e)
  | ok _ =>
      cases answer with
      | unreadable rows what => simp [attempt, prepared] at failed
      | outcome o =>
          simp only [attempt, prepared, QueryAttempt.ofOutcome] at failed
          cases failure : o.failure with
          | none => simp [failure] at failed
          | some error =>
              cases error <;>
                simp [failure, ConnectionError.ofDriver, DriverError.engine?,
                  EngineError.withStatement] at failed
              exact ⟨o, _, _, rfl, failure, failed.symm⟩

/-! ## Trials -/

namespace Trial

/-- What a trial goes by. -/
structure Setting where
  /-- The limit on retries. -/
  limit : Option Nat
  /-- How long a pause lasts. -/
  delay : Nat
  /-- What comes of each attempt. -/
  attempts : Nat → QueryAttempt

/-- The attempts at a statement that meet these answers. -/
def Setting.of (limit : Option Nat) (delay : Nat) (kind : QueryKind) (s : Statement)
    (answers : Nat → Answer) : Setting :=
  ⟨limit, delay, fun n => (answers n).attempt kind s⟩

/-- How far a trial is. -/
inductive Stage where
  /-- The next attempt can be made. -/
  | ready
  /-- It waits to try again, and its pause may be over. -/
  | waiting (strategy : RetryStrategy) (isOver : Bool)
  /-- It is over. -/
  | finished (result : Except ConnectionError QueryResult)
  /-- It was dropped, because the caller left. -/
  | dropped

end Trial

/-- The work on a statement. -/
structure Trial where
  /-- The number of the attempt. -/
  attempt : Nat := 0
  /-- How far it is. -/
  stage : Trial.Stage := .ready
  /-- The connection closes. -/
  closing : Bool := false
  /-- The attempts that were made, in order. -/
  made : List QueryAttempt := []

namespace Trial

/-- What happens. -/
inductive Event where
  /-- An attempt is made, while so many connections to the path are open. -/
  | attempt (connections : Nat)
  /-- A wake comes. -/
  | wake
  /-- The delay has passed. -/
  | elapse
  /-- The work looks how its pause stands. -/
  | look
  /-- The work notices that the connection closes. -/
  | notice
  /-- The connection closes. -/
  | close
  /-- The caller leaves. -/
  | leave

/-- It can happen. -/
def permits (t : Trial) : Event → Prop
  | .attempt _ => t.stage = .ready
  | .wake => t.stage = .waiting .queued false
  | .elapse => ∃ strategy, t.stage = .waiting strategy false
  | .look => ∃ strategy isOver, t.stage = .waiting strategy isOver
  | .notice => t.closing ∧ ∃ strategy isOver, t.stage = .waiting strategy isOver
  | .close => True
  | .leave => ∀ result, t.stage ≠ .finished result

/-- An attempt was made, while so many connections to the path are open. -/
def tried (g : Setting) (t : Trial) (a : QueryAttempt) (connections : Nat) : Trial :=
  { t with
    made := t.made ++ [a]
    stage :=
      if a.isRetried g.limit t.attempt then
        .waiting (.forOpenConnections connections g.delay) false
      else .finished a.result }

/-- The pause of a trial is over. -/
def endPause (t : Trial) : Trial :=
  match t.stage with
  | .waiting strategy _ => { t with stage := .waiting strategy true }
  | _ => t

/-- A trial looks how its pause stands. -/
def look (t : Trial) : Trial :=
  match t.stage with
  | .waiting _ isOver =>
    match PauseState.of isOver t.closing with
    | .passed => { t with attempt := t.attempt + 1, stage := .ready }
    | .cancelled => { t with stage := .finished (.error .cancelled) }
    | .lasts => t
  | _ => t

/-- The trial after an event. -/
def after (g : Setting) (t : Trial) : Event → Trial
  | .attempt connections => t.tried g (g.attempts t.attempt) connections
  | .wake | .elapse => t.endPause
  | .look => t.look
  | .notice => { t with stage := .finished (.error .cancelled) }
  | .close => { t with closing := true }
  | .leave => { t with stage := .dropped }

/-- Any number of events, from one trial to another. -/
inductive Steps (g : Setting) (t : Trial) : Trial → Prop where
  | refl : Steps g t t
  | tail {t' : Trial} (e : Event) : Steps g t t' → t'.permits e → Steps g t (t'.after g e)

variable {g : Setting} {t t' t'' : Trial}

theorem Steps.trans (h : Steps g t t') (h' : Steps g t' t'') : Steps g t t'' := by
  induction h' with
  | refl => exact h
  | tail e _ permitted ih => exact ih.tail e permitted

/-! ## What holds all along -/

/-- The attempt of this number is followed by another. -/
def Again (g : Setting) (n : Nat) : Prop := (g.attempts n).isRetried g.limit n

/-- How far a trial can be that made so many attempts. -/
inductive Stands (g : Setting) (attempt : Nat) (closing : Bool) : Nat → Stage → Prop where
  | ready : Stands g attempt closing attempt .ready
  | waiting {strategy : RetryStrategy} {isOver : Bool} : Again g attempt →
      Stands g attempt closing (attempt + 1) (.waiting strategy isOver)
  | answered : ¬ Again g attempt →
      Stands g attempt closing (attempt + 1) (.finished (g.attempts attempt).result)
  | cancelled : closing → Again g attempt →
      Stands g attempt closing (attempt + 1) (.finished (.error .cancelled))
  | unasked : Stands g attempt closing attempt .dropped
  | left : Again g attempt → Stands g attempt closing (attempt + 1) .dropped

/-- What holds of a trial at any time. -/
structure Inv (g : Setting) (t : Trial) : Prop where
  /-- The attempts that were made are the first ones. -/
  made : t.made = (List.range t.made.length).map g.attempts
  /-- Each earlier attempt was followed by another. -/
  earlier : ∀ i < t.attempt, Again g i
  /-- How far it is. -/
  stands : Stands g t.attempt t.closing t.made.length t.stage

theorem Stands.close {closing : Bool} {attempt made : Nat} {stage : Stage}
    (h : Stands g attempt closing made stage) : Stands g attempt true made stage := by
  cases h with
  | ready => exact .ready
  | waiting again => exact .waiting again
  | answered last => exact .answered last
  | cancelled _ again => exact .cancelled rfl again
  | unasked => exact .unasked
  | left again => exact .left again

theorem Inv.standing {stage : Stage} (inv : Inv g t) (is : t.stage = stage) :
    Stands g t.attempt t.closing t.made.length stage := is ▸ inv.stands

/-- Only how far the trial is changes. -/
theorem Inv.put {stage : Stage} (inv : Inv g t)
    (stands : Stands g t.attempt t.closing t.made.length stage) : Inv g { t with stage } :=
  ⟨inv.made, inv.earlier, stands⟩

theorem Inv.tried (inv : Inv g t) (ready : t.stage = .ready) (connections : Nat) :
    Inv g (t.tried g (g.attempts t.attempt) connections) := by
  have stands := inv.standing ready
  generalize made : t.made.length = asked at stands
  cases stands
  refine ⟨?_, inv.earlier, ?_⟩
  · have first := inv.made
    rw [made] at first
    simp only [Trial.tried, List.length_append, List.length_singleton, List.range_succ,
      List.map_append, List.map_singleton, made, ← first]
  · simp only [Trial.tried, List.length_append, List.length_singleton, made]
    split
    · rename_i again
      exact .waiting again
    · rename_i last
      exact .answered last

/-- How a trial that waits stands. -/
theorem Inv.waiting {strategy : RetryStrategy} {isOver : Bool} (inv : Inv g t)
    (waits : t.stage = .waiting strategy isOver) :
    t.made.length = t.attempt + 1 ∧ Again g t.attempt := by
  have stands := inv.standing waits
  generalize t.made.length = asked at stands
  cases stands with
  | waiting again => exact ⟨rfl, again⟩

theorem Inv.cancel {strategy : RetryStrategy} {isOver : Bool} (inv : Inv g t)
    (waits : t.stage = .waiting strategy isOver) (closing : t.closing) :
    Inv g { t with stage := .finished (.error .cancelled) } := by
  obtain ⟨made, again⟩ := inv.waiting waits
  refine inv.put ?_
  rw [made]
  exact .cancelled closing again

theorem Inv.look (inv : Inv g t) : Inv g t.look := by
  rw [Trial.look]
  split
  · rename_i strategy isOver waits
    obtain ⟨made, again⟩ := inv.waiting waits
    split
    · refine ⟨inv.made, Nat.forall_lt_succ_right.mpr ⟨inv.earlier, again⟩, ?_⟩
      show Stands g (t.attempt + 1) t.closing t.made.length .ready
      rw [made]
      exact .ready
    · rename_i cancelled
      refine inv.cancel waits ?_
      cases isOver <;> cases closing : t.closing <;> simp_all [PauseState.of]
    · exact inv
  · exact inv

theorem Inv.endPause (inv : Inv g t) : Inv g t.endPause := by
  rw [Trial.endPause]
  split
  · rename_i waits
    obtain ⟨made, again⟩ := inv.waiting waits
    refine inv.put ?_
    rw [made]
    exact .waiting again
  · exact inv

theorem Inv.leave (inv : Inv g t) (going : ∀ result, t.stage ≠ .finished result) :
    Inv g { t with stage := .dropped } := by
  refine inv.put ?_
  have stands := inv.stands
  generalize t.made.length = asked at stands ⊢
  generalize stage : t.stage = stage at stands
  cases stands with
  | ready => exact .unasked
  | waiting again => exact .left again
  | answered _ | cancelled _ _ => exact absurd stage (going _)
  | unasked => exact .unasked
  | left again => exact .left again

theorem Inv.after (inv : Inv g t) {e : Event} (permitted : t.permits e) : Inv g (t.after g e) := by
  cases e with
  | attempt connections => exact inv.tried permitted connections
  | wake | elapse => exact inv.endPause
  | look => exact inv.look
  | notice =>
      obtain ⟨closing, _, _, waits⟩ := permitted
      exact inv.cancel waits closing
  | close => exact ⟨inv.made, inv.earlier, inv.stands.close⟩
  | leave => exact inv.leave permitted

theorem Steps.inv (h : Steps g {} t) : Inv g t := by
  induction h with
  | refl => exact ⟨rfl, fun i lt => absurd lt (Nat.not_lt_zero i), .ready⟩
  | tail e _ permitted ih => exact ih.after permitted

/-! ## When a trial is over -/

/-- The attempt of this number is the first that is not retryable, or the last that the limit
leaves room for. -/
def Final (g : Setting) (n : Nat) : Prop :=
  (¬ (g.attempts n).Retryable ∨ g.limit = some n) ∧
    ∀ i < n, (g.attempts i).Retryable ∧ g.limit ≠ some i

theorem final_iff {n : Nat} : Final g n ↔ ¬ Again g n ∧ ∀ i < n, Again g i := by
  simp only [Final, Again, QueryAttempt.isRetried_iff]
  cases g.limit with
  | none => simp
  | some m =>
      simp only [Option.some.injEq, forall_eq', ne_eq]
      constructor
      · rintro ⟨last, before⟩
        have le : n ≤ m := Nat.le_of_not_lt fun lt => (before m lt).2 rfl
        refine ⟨fun ⟨retryable, lt⟩ => ?_, fun i lt => ⟨(before i lt).1, by omega⟩⟩
        exact last.elim (· retryable) (Nat.ne_of_gt lt)
      · rintro ⟨last, before⟩
        refine ⟨?_, fun i lt => ⟨(before i lt).1, Nat.ne_of_gt (before i lt).2⟩⟩
        rcases Nat.lt_trichotomy n m with lt | rfl | gt
        · exact .inl fun retryable => last ⟨retryable, lt⟩
        · exact .inr rfl
        · exact absurd (before m gt).2 (Nat.lt_irrefl m)

/-- No other attempt is the final one. -/
theorem Final.unique {n m : Nat} (final : Final g n) (final' : Final g m) : n = m := by
  rw [final_iff] at final final'
  rcases Nat.lt_trichotomy n m with lt | eq | gt
  · exact absurd (final'.2 n lt) final.1
  · exact eq
  · exact absurd (final.2 m gt) final'.1

/-- A trial that waits may go on to its next attempt. -/
theorem steps_resumed {strategy : RetryStrategy} {isOver : Bool}
    (waits : t.stage = .waiting strategy isOver) :
    Steps g t { t with attempt := t.attempt + 1, stage := .ready } := by
  have ended : Steps g t { t with stage := .waiting strategy true } := by
    cases isOver with
    | true => exact waits ▸ .refl
    | false =>
        have elapsed : Steps g t (t.after g .elapse) := .tail _ .refl ⟨strategy, waits⟩
        rwa [Trial.after, endPause, waits] at elapsed
  exact ended.tail .look ⟨strategy, true, rfl⟩

/-- A trial goes on: it makes another attempt. -/
theorem exists_tried (going : ∀ result, t.stage ≠ .finished result) (kept : t.stage ≠ .dropped) :
    ∃ t', Steps g t t' ∧ t'.made.length = t.made.length + 1 ∧ t'.stage ≠ .dropped ∧
      t'.closing = t.closing := by
  have attempts (t : Trial) (ready : t.stage = .ready) : ∃ t', Steps g t t' ∧
      t'.made.length = t.made.length + 1 ∧ t'.stage ≠ .dropped ∧ t'.closing = t.closing := by
    refine ⟨t.after g (.attempt 1), .tail _ .refl ready, ?_, ?_, rfl⟩
    · exact List.length_append
    · simp only [Trial.after, tried]
      split <;> exact nofun
  cases stage : t.stage with
  | ready => exact attempts t stage
  | finished result => exact absurd stage (going result)
  | dropped => exact absurd stage kept
  | waiting strategy isOver =>
      obtain ⟨t', steps, rest⟩ := attempts { t with attempt := t.attempt + 1, stage := .ready } rfl
      exact ⟨t', (steps_resumed stage).trans steps, rest⟩

/-- What a trial has come to. -/
structure Settled (g : Setting) (t : Trial) : Prop where
  /-- The attempts that were made are the first ones, in order. -/
  made : t.made = (List.range t.made.length).map g.attempts
  /-- While it is not over, each of them was retryable and not the last the limit allows. -/
  pending : (∀ result, t.stage ≠ .finished result) →
    ∀ i < t.made.length, (g.attempts i).Retryable ∧ g.limit ≠ some i
  /-- It is over exactly when the final attempt was made. -/
  finished : t.closing = false → t.stage ≠ .dropped →
    ((∃ result, t.stage = .finished result) ↔ ∃ n, Final g n ∧ t.made.length = n + 1)
  /-- The result is that of the final attempt. -/
  result : t.closing = false → ∀ result, t.stage = .finished result →
    ∃ n, Final g n ∧ t.made.length = n + 1 ∧ result = (g.attempts n).result
  /-- A retryable error is told only when the limit is reached. -/
  locked : t.closing = false → (∃ result, t.stage = .finished result) →
    ∀ n, t.made.length = n + 1 → (g.attempts n).Retryable → g.limit = some n
  /-- When the connection closes during a pause, the work looks and is cancelled. -/
  cancelled : t.closing → ∀ strategy, t.stage = .waiting strategy false →
    t.permits .look ∧ (t.after g .look).stage = .finished (.error .cancelled)
  /-- When the connection closes, there is no other result than that and the final attempt's. -/
  interrupted : ∀ result, t.stage = .finished result →
    (∃ n, Final g n ∧ t.made.length = n + 1 ∧ result = (g.attempts n).result) ∨
      t.closing ∧ result = .error .cancelled
  /-- If there is a final attempt, it can always be reached. -/
  ends : t.closing = false → t.stage ≠ .dropped → ∀ n, Final g n →
    ∃ t', Steps g t t' ∧ t'.made.length = n + 1 ∧ t'.stage = .finished (g.attempts n).result

theorem Inv.pending (inv : Inv g t) (going : ∀ result, t.stage ≠ .finished result) :
    ∀ i < t.made.length, Again g i := by
  have stands := inv.stands
  generalize t.made.length = asked at stands
  generalize stage : t.stage = stage at stands
  cases stands with
  | ready | unasked => exact inv.earlier
  | waiting again | left again => exact Nat.forall_lt_succ_right.mpr ⟨inv.earlier, again⟩
  | answered _ | cancelled _ _ => exact absurd stage (going _)

theorem Inv.finished (inv : Inv g t) {result : Except ConnectionError QueryResult}
    (finished : t.stage = .finished result) :
    (∃ n, Final g n ∧ t.made.length = n + 1 ∧ result = (g.attempts n).result) ∨
      t.closing ∧ result = .error .cancelled := by
  have stands := inv.standing finished
  generalize t.made.length = asked at stands
  cases stands with
  | answered last => exact .inl ⟨t.attempt, final_iff.mpr ⟨last, inv.earlier⟩, rfl, rfl⟩
  | cancelled closing _ => exact .inr ⟨closing, rfl⟩

theorem Inv.result (inv : Inv g t) (opened : t.closing = false)
    {result : Except ConnectionError QueryResult} (finished : t.stage = .finished result) :
    ∃ n, Final g n ∧ t.made.length = n + 1 ∧ result = (g.attempts n).result :=
  (inv.finished finished).resolve_right fun ⟨closing, _⟩ => by simp [opened] at closing

theorem Steps.ends {t : Trial} {n : Nat} (h : Steps g {} t) (opened : t.closing = false)
    (kept : t.stage ≠ .dropped) (final : Final g n) :
    ∃ t', Steps g t t' ∧ t'.made.length = n + 1 ∧ t'.stage = .finished (g.attempts n).result := by
  by_cases finished : ∃ result, t.stage = .finished result
  · obtain ⟨result, finished⟩ := finished
    obtain ⟨m, final', length, rfl⟩ := h.inv.result opened finished
    obtain rfl := final.unique final'
    exact ⟨t, .refl, length, finished⟩
  · have going : ∀ result, t.stage ≠ .finished result := fun result eq => finished ⟨result, eq⟩
    have left : t.made.length ≤ n := Nat.le_of_not_lt fun lt =>
      (final_iff.mp final).1 (h.inv.pending going n lt)
    obtain ⟨t', steps, length, kept', closing⟩ := exists_tried (g := g) going kept
    obtain ⟨t'', steps', reached⟩ := (h.trans steps).ends (closing.trans opened) kept' final
    exact ⟨t'', steps.trans steps', reached⟩
termination_by n + 1 - t.made.length

/-- What holds of every trial, whatever its attempts come to. -/
theorem Steps.settled (h : Steps g {} t) : Settled g t where
  made := h.inv.made
  pending going i lt := by
    have again := QueryAttempt.isRetried_iff.mp (h.inv.pending going i lt)
    exact ⟨again.1, fun limit => Nat.lt_irrefl i (again.2 i limit)⟩
  finished opened kept := by
    constructor
    · rintro ⟨result, finished⟩
      obtain ⟨n, final, length, -⟩ := h.inv.result opened finished
      exact ⟨n, final, length⟩
    · rintro ⟨n, final, length⟩
      refine Classical.byContradiction fun going => ?_
      have again := h.inv.pending (fun result eq => going ⟨result, eq⟩) n (by omega)
      exact (final_iff.mp final).1 again
  result opened _ finished := h.inv.result opened finished
  locked opened := by
    rintro ⟨result, finished⟩ n length retryable
    obtain ⟨m, final, length', -⟩ := h.inv.result opened finished
    obtain rfl : n = m := by omega
    exact final.1.resolve_left (· retryable)
  cancelled closing strategy waits := by
    refine ⟨⟨strategy, false, waits⟩, ?_⟩
    rw [Trial.after, Trial.look, waits]
    simp [closing, PauseState.of]
  interrupted _ finished := h.inv.finished finished
  ends opened kept _ final := h.ends opened kept final

/-- A trial settles as it must, whatever the engine answers, and an error of the engine is told
with the statement as it was submitted. -/
theorem settled_of_steps {limit : Option Nat} {delay : Nat} {kind : QueryKind} {s : Statement}
    {answers : Nat → Answer} (h : Steps (.of limit delay kind s answers) {} t) :
    Settled (.of limit delay kind s answers) t ∧
      ∀ e, t.stage = .finished (.error (.engine e)) → ∃ n o code text, t.made.length = n + 1 ∧
        answers n = .outcome o ∧ o.failure = some (.database code text) ∧
        e = ⟨code, text, some s.sql, some s.args⟩ := by
  refine ⟨h.settled, fun e failed => ?_⟩
  rcases h.inv.finished failed with ⟨n, -, length, result⟩ | ⟨-, cancelled⟩
  · obtain ⟨o, code, text, eq, failure, rfl⟩ := Answer.attempt_engine result.symm
    exact ⟨n, o, code, text, length, eq, failure, rfl⟩
  · cases cancelled

/-- With one retry, a lock that stays is told after two attempts, between which another
connection came and went. -/
theorem settled_of_steps_locked :
    let g : Setting := .of (some 1) 50 .run ⟨"INSERT", .none⟩ fun _ =>
      .outcome { failure := some (.database 5 "database is locked") }
    ∃ t, Steps g {} t ∧ t.made.length = 2 ∧
      t.stage = .finished (.error (.engine ⟨5, "database is locked", some "INSERT", some .none⟩)) ∧
      Settled g t := by
  intro g
  have tried : Steps g {} _ := .tail (.attempt 2) .refl rfl
  have resumed := (tried.tail .wake rfl).tail .look ⟨_, true, rfl⟩
  have steps := resumed.tail (.attempt 1) rfl
  exact ⟨_, steps, rfl, rfl, (settled_of_steps steps).1⟩

end Trial

end ConnectionPool
