/-!
# Records

A `Record` is a finite map from names to values that remembers the order in which
names first came.  Giving a value to a name that is there replaces the value and
keeps the place.  Named arguments and rows are records: the arguments of a
statement keep the caller's order, and a row keeps the order of its columns.

`entries_insert_of_mem` and `entries_insert_of_not_mem` say what `insert` does to
the entries, and `ofList_entries` that a record is what its entries make.
-/

namespace ConnectionPool

/-- The list with the value of `name` replaced wherever the name stands. -/
def replaceNamed {α : Type} (name : String) (x : α) (entries : List (String × α)) :
    List (String × α) :=
  entries.map fun e => if e.1 = name then (name, x) else e

theorem map_fst_replaceNamed {α : Type} (name : String) (x : α) (entries : List (String × α)) :
    (replaceNamed name x entries).map Prod.fst = entries.map Prod.fst := by
  simp only [replaceNamed, List.map_map]
  apply List.map_congr_left
  intro e _
  by_cases h : e.1 = name <;> simp [h]

/-- A map from names to values in the order of first insertion. -/
structure Record (α : Type) where
  /-- Names with their values, in order. -/
  entries : List (String × α)
  /-- No name stands twice. -/
  distinct : (entries.map Prod.fst).Nodup
  deriving DecidableEq, Repr

namespace Record

variable {α : Type}

/-- The record without names. -/
def empty : Record α := ⟨[], List.nodup_nil⟩

instance : Inhabited (Record α) := ⟨empty⟩

/-- The names, in order. -/
def names (r : Record α) : List String := r.entries.map Prod.fst

/-- The value of a name. -/
def get? (r : Record α) (name : String) : Option α :=
  (r.entries.find? (·.1 == name)).map (·.2)

/-- Gives a name a value: in its old place if it has one, otherwise at the end. -/
def insert (r : Record α) (name : String) (x : α) : Record α :=
  if h : name ∈ r.entries.map Prod.fst then
    ⟨replaceNamed name x r.entries, by rw [map_fst_replaceNamed]; exact r.distinct⟩
  else
    ⟨r.entries ++ [(name, x)], by
      rw [List.map_append, List.nodup_append]
      refine ⟨r.distinct, by simp, ?_⟩
      intro a ha b hb
      simp only [List.map_cons, List.map_nil, List.mem_singleton] at hb
      exact fun hab => h (hb ▸ hab ▸ ha)⟩

/-- The record that names with values make when inserted one after the other. -/
def ofList (entries : List (String × α)) : Record α :=
  entries.foldl (fun r e => r.insert e.1 e.2) empty

/-- There are no names. -/
def isEmpty (r : Record α) : Bool := r.entries.isEmpty

/-- The number of names. -/
def size (r : Record α) : Nat := r.entries.length

/-- The same names, each value changed. -/
def map {β : Type} (f : α → β) (r : Record α) : Record β :=
  ⟨r.entries.map fun e => (e.1, f e.2), by
    have h : (Prod.fst ∘ fun e : String × α => (e.1, f e.2)) = Prod.fst := rfl
    rw [List.map_map, h]; exact r.distinct⟩

/-- Both records have the same names, and `same` holds of the values of each.  The
order does not matter. -/
def eqBy (same : α → α → Bool) (r s : Record α) : Bool :=
  r.size == s.size && r.entries.all fun e =>
    match s.get? e.1 with
    | some y => same e.2 y
    | none => false

/-! ## Entries after an insertion -/

theorem entries_insert_of_mem {r : Record α} {name : String} (x : α) (h : name ∈ r.names) :
    (r.insert name x).entries = replaceNamed name x r.entries := by
  have h' : name ∈ r.entries.map Prod.fst := h
  simp only [insert, dif_pos h']

theorem entries_insert_of_not_mem {r : Record α} {name : String} (x : α)
    (h : name ∉ r.names) : (r.insert name x).entries = r.entries ++ [(name, x)] := by
  have h' : name ∉ r.entries.map Prod.fst := h
  simp only [insert, dif_neg h']

theorem eq_of_entries {r s : Record α} (h : r.entries = s.entries) : r = s := by
  cases r
  cases s
  cases h
  rfl

/-- New names with values come behind the entries that are there, in order. -/
theorem entries_foldl_insert (entries : List (String × α)) (r : Record α)
    (h : ((r.entries ++ entries).map Prod.fst).Nodup) :
    (entries.foldl (fun r e => r.insert e.1 e.2) r).entries = r.entries ++ entries := by
  induction entries generalizing r with
  | nil => simp
  | cons e entries ih =>
    have fresh : e.1 ∉ r.names := by
      rw [List.map_append, List.nodup_append] at h
      exact fun mem => h.2.2 e.1 mem e.1 (by simp) rfl
    have first := entries_insert_of_not_mem e.2 fresh
    rw [List.foldl_cons, ih (r.insert e.1 e.2) (by simpa [first] using h), first]
    simp

/-- A record is what its entries make. -/
theorem ofList_entries (r : Record α) : ofList r.entries = r :=
  eq_of_entries (entries_foldl_insert r.entries empty r.distinct)

end Record

end ConnectionPool
