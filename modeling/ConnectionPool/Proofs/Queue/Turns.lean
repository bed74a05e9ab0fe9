import ConnectionPool.WorkQueue

/-!
# Turns of a queue

`Turned` lists what `WorkQueue.turn` can do, each with what is known of the queue then.  When
a caller leaves, its operation is marked, and the queue stays as it is.
-/

namespace ConnectionPool

namespace WorkQueue

variable {α : Type}

/-- What `turn` does. -/
inductive Turned (q : WorkQueue α) : WorkQueue α × Turn α → Prop where
  /-- Nothing. -/
  | rest : q.ended ∨ q.current.isSome ∨ q.pending = [] → Turned q (q, .rest)
  /-- It passes over an operation whose caller left. -/
  | skip {i : WorkItem α} {rest : List (WorkItem α)} : q.pending = i :: rest →
      q.current = none → q.closing = false → i.isGivenUp →
      Turned q ({ q with pending := rest }, .skip i)
  /-- It starts an operation. -/
  | start {i : WorkItem α} {rest : List (WorkItem α)} : q.pending = i :: rest →
      q.current = none → q.closing = false → i.isGivenUp = false →
      Turned q ({ q with pending := rest, current := some i }, .start i)
  /-- It ends. -/
  | finish : q.current = none → q.closing →
      Turned q ({ q with pending := [], ended := true }, .finish q.pending)

theorem turned (q : WorkQueue α) : Turned q q.turn := by
  rw [turn]
  by_cases busy : q.ended || q.current.isSome
  · rw [if_pos busy]
    rcases Bool.or_eq_true_iff.mp busy with ended | current
    · exact .rest (.inl ended)
    · exact .rest (.inr (.inl current))
  · rw [if_neg busy]
    have idle : q.current = none := by
      rw [Bool.or_eq_true, not_or] at busy
      exact Option.not_isSome_iff_eq_none.mp busy.2
    by_cases closing : q.closing
    · rw [if_pos closing]
      exact .finish idle closing
    · rw [if_neg closing]
      have accepts := Bool.eq_false_iff.mpr closing
      cases pending : q.pending with
      | nil => exact .rest (.inr (.inr pending))
      | cons i rest =>
          by_cases left : i.isGivenUp
          · simp only [if_pos left]
            exact .skip pending idle accepts left
          · simp only [if_neg left]
            exact .start pending idle accepts (Bool.eq_false_iff.mpr left)

/-! ## Callers that leave -/

/-- The mark that the caller left changes nothing else of an operation. -/
theorem markAbandoned_same (id : Nat) (i : WorkItem α) : (markAbandoned id i).work = i.work ∧
    (markAbandoned id i).id = i.id ∧ (markAbandoned id i).detached = i.detached := by
  rw [markAbandoned]
  split <;> exact ⟨rfl, rfl, rfl⟩

theorem items_leave (q : WorkQueue α) (id : Nat) :
    (q.leave id).current.toList ++ (q.leave id).pending =
      (q.current.toList ++ q.pending).map (markAbandoned id) := by
  rw [List.map_append]
  exact congrArg (· ++ _) Option.toList_map

end WorkQueue

end ConnectionPool
