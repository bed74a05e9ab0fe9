import Mathlib.Data.List.Nodup

/-!
# Lists with keys

Acquisitions and waiters have tickets, retries and timers have numbers.  A list is
`Keyed` when no two of its items have the same key.  An update that speaks of a key
then changes one item, and `Keyed.split` says where: the list is cut at the item, and
both ways of changing it are read off the parts.
-/

namespace ConnectionPool

variable {α κ : Type}

/-- No two items have the same key. -/
def Keyed (key : α → κ) (l : List α) : Prop := (l.map key).Nodup

variable {key : α → κ} {k : κ} {f : α → α} {a b : α} {l l' : List α}

namespace Keyed

theorem eq_of_mem (keyed : Keyed key l) (ha : a ∈ l) (hb : b ∈ l) (eq : key a = key b) :
    a = b :=
  List.inj_on_of_nodup_map keyed ha hb eq

theorem sublist (keyed : Keyed key l) (sub : List.Sublist l' l) : Keyed key l' :=
  List.Nodup.sublist (sub.map key) keyed

/-- What comes behind an item has other keys. -/
theorem ne_of_mem_tail (keyed : Keyed key (l ++ a :: l')) (mem : b ∈ l') : key b ≠ key a := by
  intro same
  have tail : Keyed key (a :: l') := keyed.sublist (List.sublist_append_right l (a :: l'))
  exact (List.nodup_cons.mp tail).1 (same ▸ List.mem_map_of_mem mem)

theorem append (keyed : Keyed key l) (new : ∀ b ∈ l, key b ≠ key a) :
    Keyed key (l ++ [a]) := by
  rw [Keyed, List.map_append]
  refine List.nodup_append.mpr ⟨keyed, by simp, ?_⟩
  intro x hx y hy
  obtain ⟨b, mem, rfl⟩ := List.mem_map.mp hx
  rw [List.map_singleton, List.mem_singleton] at hy
  exact hy ▸ new b mem

theorem append_fresh {number : α → Nat} (keyed : Keyed number l)
    (lt : ∀ b ∈ l, number b < number a) : Keyed number (l ++ [a]) :=
  keyed.append fun b mem => Nat.ne_of_lt (lt b mem)

end Keyed

/-- Once the first number that is free is given out, the next one is. -/
theorem lt_succ_of_mem_append {number : α → Nat} (lt : ∀ b ∈ l, number b < number a) :
    ∀ b ∈ l ++ [a], number b < number a + 1 := by
  intro b mem
  rcases List.mem_append.mp mem with mem | mem
  · exact Nat.lt_succ_of_lt (lt b mem)
  · rw [List.mem_singleton.mp mem]
    exact Nat.lt_succ_self (number a)

/-! ## Updates by key -/

variable [DecidableEq κ]

/-- The item with a key is changed by a function. -/
def replaceKey (key : α → κ) (k : κ) (f : α → α) (l : List α) : List α :=
  l.map fun a => if key a = k then f a else a

/-- The item with a key is removed. -/
def removeKey (key : α → κ) (k : κ) (l : List α) : List α := l.filter (key · != k)

theorem mem_removeKey : a ∈ removeKey key k l ↔ a ∈ l ∧ key a ≠ k := by
  simp [removeKey]

theorem mem_replaceKey : b ∈ replaceKey key k f l ↔
    (b ∈ l ∧ key b ≠ k) ∨ ∃ a ∈ l, key a = k ∧ b = f a := by
  rw [replaceKey, List.mem_map]
  constructor
  · rintro ⟨a, mem, rfl⟩
    by_cases eq : key a = k
    · exact .inr ⟨a, mem, eq, if_pos eq⟩
    · rw [if_neg eq]
      exact .inl ⟨mem, eq⟩
  · rintro (⟨mem, ne⟩ | ⟨a, mem, eq, rfl⟩)
    · exact ⟨b, mem, if_neg ne⟩
    · exact ⟨a, mem, if_pos eq⟩

theorem forall_mem_replaceKey {P : α → Prop} (keeps : ∀ a, P a → P (f a)) (all : ∀ b ∈ l, P b) :
    ∀ b ∈ replaceKey key k f l, P b := by
  intro b mem
  rcases mem_replaceKey.mp mem with ⟨old, -⟩ | ⟨a, old, -, rfl⟩
  · exact all b old
  · exact keeps a (all a old)

theorem map_replaceKey {β : Type} (g : α → β) (same : ∀ a, g (f a) = g a) :
    (replaceKey key k f l).map g = l.map g := by
  rw [replaceKey, List.map_map]
  apply List.map_congr_left
  intro a _
  show g (if key a = k then f a else a) = g a
  split
  · exact same a
  · rfl

theorem replaceKey_of_ne (ne : ∀ a ∈ l, key a ≠ k) : replaceKey key k f l = l := by
  rw [replaceKey]
  conv => rhs; rw [← List.map_id l]
  apply List.map_congr_left
  intro a mem
  exact if_neg (ne a mem)

theorem removeKey_of_ne (ne : ∀ a ∈ l, key a ≠ k) : removeKey key k l = l := by
  rw [removeKey, List.filter_eq_self]
  intro a mem
  simpa using ne a mem

/-- What changes an item does not matter once it is removed. -/
theorem removeKey_replaceKey (same : ∀ a, key a = k → key (f a) = k) :
    removeKey key k (replaceKey key k f l) = removeKey key k l := by
  induction l with
  | nil => rfl
  | cons a rest ih =>
      have tail : replaceKey key k f (a :: rest) =
          (if key a = k then f a else a) :: replaceKey key k f rest := rfl
      by_cases is : key a = k
      · rw [tail, if_pos is, removeKey, removeKey, List.filter_cons_of_neg (by simp [same a is]),
          List.filter_cons_of_neg (by simp [is])]
        exact ih
      · rw [tail, if_neg is, removeKey, removeKey, List.filter_cons_of_pos (by simp [is]),
          List.filter_cons_of_pos (by simp [is])]
        exact congrArg _ ih

namespace Keyed

theorem remove (keyed : Keyed key l) : Keyed key (removeKey key k l) :=
  keyed.sublist List.filter_sublist

theorem replace (keyed : Keyed key l) (same : ∀ a, key (f a) = key a) :
    Keyed key (replaceKey key k f l) := by
  rw [Keyed, map_replaceKey key same]
  exact keyed

/-- A list is cut at the item that an update by key changes. -/
theorem split (keyed : Keyed key l) (mem : a ∈ l) : ∃ l₁ l₂, l = l₁ ++ a :: l₂ ∧
    (∀ b ∈ l₁ ++ l₂, b ∈ l ∧ key b ≠ key a) ∧
    (∀ f, replaceKey key (key a) f l = l₁ ++ f a :: l₂) ∧
    removeKey key (key a) l = l₁ ++ l₂ := by
  obtain ⟨l₁, l₂, rfl⟩ := List.append_of_mem mem
  have other : ∀ b ∈ l₁ ++ l₂, key b ≠ key a := by
    intro b hb eq
    have nodup : (key a :: (l₁ ++ l₂).map key).Nodup := by
      refine (List.Perm.nodup_iff ?_).mp keyed
      simp [List.perm_middle]
    exact (List.nodup_cons.mp nodup).1 (eq ▸ List.mem_map_of_mem hb)
  have left : ∀ b ∈ l₁, key b ≠ key a := fun b hb => other b (List.mem_append_left _ hb)
  have right : ∀ b ∈ l₂, key b ≠ key a := fun b hb => other b (List.mem_append_right _ hb)
  refine ⟨l₁, l₂, rfl, ?_, ?_, ?_⟩
  · intro b hb
    refine ⟨?_, other b hb⟩
    rcases List.mem_append.mp hb with hb | hb
    · exact List.mem_append_left _ hb
    · exact List.mem_append_right _ (List.mem_cons_of_mem _ hb)
  · intro f
    have parts : replaceKey key (key a) f (l₁ ++ a :: l₂) =
        replaceKey key (key a) f l₁ ++ f a :: replaceKey key (key a) f l₂ := by
      simp [replaceKey]
    rw [parts, replaceKey_of_ne left, replaceKey_of_ne right]
  · have parts : removeKey key (key a) (l₁ ++ a :: l₂) =
        removeKey key (key a) l₁ ++ removeKey key (key a) l₂ := by
      simp [removeKey]
    rw [parts, removeKey_of_ne left, removeKey_of_ne right]

end Keyed

/-- A search by key finds the item. -/
theorem Keyed.find?_eq (keyed : Keyed key l) (mem : a ∈ l) :
    l.find? (key · == key a) = some a := by
  cases found : l.find? (key · == key a) with
  | none => simpa using List.find?_eq_none.mp found a mem
  | some b =>
      have is : key b = key a := by simpa using List.find?_some found
      rw [keyed.eq_of_mem (List.mem_of_find?_eq_some found) mem is]

theorem Keyed.filter_key (keyed : Keyed key l) (mem : a ∈ l) :
    l.filter (key · == key a) = [a] := by
  obtain ⟨l₁, l₂, rfl, other, -, -⟩ := keyed.split mem
  have none : ∀ l' : List α, (∀ b ∈ l', b ∈ l₁ ++ l₂) → l'.filter (key · == key a) = [] := by
    intro l' sub
    rw [List.filter_eq_nil_iff]
    intro b hb
    simpa using (other b (sub b hb)).2
  rw [List.filter_append, List.filter_cons, none l₁ fun b => List.mem_append_left l₂,
    none l₂ fun b => List.mem_append_right l₁]
  simp

theorem countP_replaceKey (keyed : Keyed key l) (mem : a ∈ l) (eq : key a = k) (q : α → Bool) :
    (replaceKey key k f l).countP q + (if q a then 1 else 0) =
      l.countP q + (if q (f a) then 1 else 0) := by
  subst eq
  obtain ⟨l₁, l₂, rfl, -, replaced, -⟩ := keyed.split mem
  rw [replaced f]
  simp only [List.countP_append, List.countP_cons]
  omega

theorem countP_replaceKey_le {q : α → Bool} (keeps : ∀ a, q (f a) → q a) :
    (replaceKey key k f l).countP q ≤ l.countP q := by
  rw [replaceKey, List.countP_map]
  apply List.countP_mono_left
  intro a _ counts
  simp only [Function.comp_apply] at counts
  split at counts
  · exact keeps a counts
  · exact counts

theorem countP_removeKey_le (q : α → Bool) : (removeKey key k l).countP q ≤ l.countP q :=
  List.filter_sublist.countP_le

theorem countP_removeKey (keyed : Keyed key l) (mem : a ∈ l) (eq : key a = k) (q : α → Bool) :
    (removeKey key k l).countP q + (if q a then 1 else 0) = l.countP q := by
  subst eq
  obtain ⟨l₁, l₂, rfl, -, -, removed⟩ := keyed.split mem
  rw [removed]
  simp only [List.countP_append, List.countP_cons]
  omega

theorem mem_of_find?_key (found : l.find? (key · == k) = some a) : a ∈ l ∧ key a = k :=
  ⟨List.mem_of_find?_eq_some found, by simpa using List.find?_some found⟩

/-! ## Searches by key -/

variable {j : κ}

theorem find?_replaceKey (same : ∀ a, key a = k → key (f a) = k) :
    (replaceKey key k f l).find? (key · == k) = (l.find? (key · == k)).map f := by
  induction l with
  | nil => rfl
  | cons a rest ih =>
      have tail : replaceKey key k f (a :: rest) =
          (if key a = k then f a else a) :: replaceKey key k f rest := rfl
      by_cases is : key a = k
      · rw [tail, if_pos is, List.find?_cons_of_pos (by simp [same a is]),
          List.find?_cons_of_pos (by simp [is])]
        rfl
      · rw [tail, if_neg is, List.find?_cons_of_neg (by simp [is]),
          List.find?_cons_of_neg (by simp [is])]
        exact ih

theorem find?_replaceKey_ne (ne : j ≠ k) (same : ∀ a, key a = k → key (f a) = k) :
    (replaceKey key k f l).find? (key · == j) = l.find? (key · == j) := by
  induction l with
  | nil => rfl
  | cons a rest ih =>
      have tail : replaceKey key k f (a :: rest) =
          (if key a = k then f a else a) :: replaceKey key k f rest := rfl
      by_cases is : key a = k
      · rw [tail, if_pos is, List.find?_cons_of_neg (by simp [same a is, ne.symm]),
          List.find?_cons_of_neg (by simp [is, ne.symm])]
        exact ih
      · rw [tail, if_neg is]
        simp only [List.find?_cons, ih]

theorem find?_removeKey : (removeKey key k l).find? (key · == k) = none := by
  rw [List.find?_eq_none]
  intro a mem
  simpa using (mem_removeKey.mp mem).2

theorem find?_removeKey_ne (ne : j ≠ k) :
    (removeKey key k l).find? (key · == j) = l.find? (key · == j) := by
  rw [removeKey, List.find?_filter]
  congr 1
  funext a
  by_cases is : key a = j
  · simp [is, ne]
  · simp [is]

end ConnectionPool
