import ConnectionPool.Proofs.Json.Text
import ConnectionPool.Value.Json

/-!
# Arguments survive JSON

Values and arguments are written without a tag, and what is read back is the first class that
fits.  It is the class that was written (`Value.decode?_encode`): null, text and arrays are no
numbers, an integer is written without point and exponent, and a finite double never without
both.  An empty array is no object, so empty arguments stay positional or named.

What does not survive is a double that is not finite.  It is written as `null` and comes back as
null.  So what comes back is always `written` (`Arguments.comes_back`), and that is what was
there exactly when every double is finite (`Arguments.comes_back_iff`).
-/

namespace ConnectionPool

open Json (Readable FitsInteger)

/-- Reading back items one by one. -/
theorem mapM_map_eq {α β : Type} {decode : β → Option α} {encode : α → β} {xs : List α}
    (reads : ∀ x ∈ xs, decode (encode x) = some x) : (xs.map encode).mapM decode = some xs := by
  induction xs with
  | nil => rfl
  | cons x xs ih =>
    have others := ih fun y mem => reads y (by simp [mem])
    rw [List.map_cons, List.mapM_cons, reads x (by simp), others]
    rfl

theorem map_eq_self_iff {α : Type} {f : α → α} {xs : List α} :
    xs.map f = xs ↔ ∀ x ∈ xs, f x = x := by
  have pointwise := List.map_inj_left (l := xs) (f := f) (g := id)
  rwa [List.map_id] at pointwise

/-! ## Values -/

theorem int64?_toInt (i : Int64) : int64? i.toInt = some i := by
  rw [int64?, if_pos ⟨i.minValue_le_toInt, i.toInt_le⟩, Int64.ofInt_toInt]

namespace Value

/-- A value is told apart from all others by its JSON. -/
theorem decode?_encode (v : Value) : decode? v.encode = some v := by
  cases v with
  | null => rfl
  | integer i => simp [encode, decode?, decodeInteger?, int64?_toInt]
  | real x => rfl
  | text s => rfl
  | blob bytes =>
    have items : (bytes.map fun byte => Json.int byte.toNat).mapM
        (fun j => (j.natBelow? 256).map UInt8.ofNat) = some bytes := by
      refine mapM_map_eq fun byte _ => ?_
      have below : byte.toNat < 256 := byte.toNat_lt
      simp [Json.natBelow?, below]
    simp [encode, decode?, decodeInteger?, Json.double?, decodeBlob?, items]

/-- The value is no double or a finite one. -/
def IsFinite : Value → Prop
  | real x => x.isFinite
  | _ => True

/-- The value whose JSON text a value has: a double that is not finite is written as null. -/
def written : Value → Value
  | real x => if x.isFinite then real x else null
  | v => v

theorem isFinite_written (v : Value) : v.written.IsFinite := by
  cases v with
  | real x =>
    rw [written]
    split
    next finite => exact finite
    next => trivial
  | null | integer | text | blob => trivial

theorem written_eq_self_iff (v : Value) : v.written = v ↔ v.IsFinite := by
  cases v with
  | real x => simp [written, IsFinite]
  | null | integer | text | blob => simp [written, IsFinite]

theorem write_encode_written (v : Value) : v.written.encode.write = v.encode.write := by
  cases v with
  | real x =>
    rw [written]
    split
    next => rfl
    next infinite => simp [encode, Json.write, Json.writeDouble, infinite]
  | null | integer | text | blob => rfl

/-- The JSON of a value nests once at most. -/
theorem readable_encode {v : Value} (finite : v.IsFinite) (depth : Nat) :
    Readable (depth + 1) v.encode := by
  cases v with
  | null => exact .null _
  | integer i =>
    refine .int _ ⟨i.minValue_le_toInt, ?_⟩
    have := i.toInt_lt
    have : (UInt64.size : Int) = 2 ^ 64 := rfl
    omega
  | real x => exact .real _ finite
  | text s => exact .str _ s
  | blob bytes =>
    refine .arr fun j mem => ?_
    obtain ⟨byte, -, rfl⟩ := List.mem_map.mp mem
    have below : byte.toNat < 256 := byte.toNat_lt
    have least : Int64.minValue.toInt = -2 ^ 63 := rfl
    have greatest : (UInt64.size : Int) = 2 ^ 64 := rfl
    exact .int _ ⟨by omega, by omega⟩

end Value

/-! ## Arguments -/

namespace Arguments

/-- Arguments are told apart from all others by their JSON. -/
theorem decode?_encode (a : Arguments) : decode? a.encode = some a := by
  cases a with
  | positional vs =>
    rw [encode, decode?, mapM_map_eq fun v _ => v.decode?_encode]
    rfl
  | named r =>
    have entries : (r.entries.map fun e => (e.1, e.2.encode)).mapM
        (fun m => (Value.decode? m.2).map fun v => (m.1, v)) = some r.entries :=
      mapM_map_eq fun e _ => by rw [Value.decode?_encode]; rfl
    rw [encode, decode?, entries, Option.map_some, Record.ofList_entries]

/-- The values, in order. -/
def values : Arguments → List Value
  | positional vs => vs
  | named r => r.entries.map Prod.snd

/-- The arguments whose JSON text some arguments have. -/
def written : Arguments → Arguments
  | positional vs => positional (vs.map Value.written)
  | named r => named (r.map Value.written)

theorem written_eq_self_iff (a : Arguments) : a.written = a ↔ ∀ v ∈ a.values, v.IsFinite := by
  cases a with
  | positional vs =>
    simp only [written, values, positional.injEq, map_eq_self_iff, Value.written_eq_self_iff]
  | named r =>
    have entries : r.map Value.written = r ↔ ∀ e ∈ r.entries, (e.1, e.2.written) = e :=
      ⟨fun same => map_eq_self_iff.mp (congrArg Record.entries same),
        fun each => Record.eq_of_entries (map_eq_self_iff.mpr each)⟩
    have one (e : String × Value) : (e.1, e.2.written) = e ↔ e.2.IsFinite := by
      rw [← Value.written_eq_self_iff, Prod.ext_iff]
      simp
    simp only [written, values, named.injEq, entries, one, List.forall_mem_map]

theorem isFinite_of_mem_written {a : Arguments} {v : Value} (mem : v ∈ a.written.values) :
    v.IsFinite := by
  cases a with
  | positional vs =>
    obtain ⟨w, -, rfl⟩ := List.mem_map.mp mem
    exact w.isFinite_written
  | named r =>
    simp only [written, values, Record.map, List.map_map] at mem
    obtain ⟨e, -, rfl⟩ := List.mem_map.mp mem
    exact e.2.isFinite_written

theorem write_encode_written (a : Arguments) : a.written.encode.write = a.encode.write := by
  cases a with
  | positional vs =>
    have items : ((vs.map Value.written).map Value.encode).map Json.write =
        (vs.map Value.encode).map Json.write := by
      simp only [List.map_map]
      exact List.map_congr_left fun v _ => v.write_encode_written
    simp only [written, encode, Json.write, Json.writeItems_eq, items]
  | named r =>
    have members : ((r.map Value.written).entries.map fun e => (e.1, e.2.encode)).map Json.writeMember =
        (r.entries.map fun e => (e.1, e.2.encode)).map Json.writeMember := by
      simp only [Record.map, List.map_map]
      refine List.map_congr_left fun e _ => ?_
      simp only [Function.comp_apply, Json.writeMember, e.2.write_encode_written]
    simp only [written, encode, Json.write, Json.writeMembers_eq, members]

/-- The JSON of arguments nests twice at most. -/
theorem readable_encode {a : Arguments} (finite : ∀ v ∈ a.values, v.IsFinite) (depth : Nat) :
    Readable (depth + 2) a.encode := by
  cases a with
  | positional vs =>
    refine .arr fun j mem => ?_
    obtain ⟨v, memValues, rfl⟩ := List.mem_map.mp mem
    exact Value.readable_encode (finite v memValues) depth
  | named r =>
    refine .obj fun m mem => ?_
    obtain ⟨e, memEntries, rfl⟩ := List.mem_map.mp mem
    exact Value.readable_encode (finite e.2 (List.mem_map_of_mem memEntries)) depth

/-- What arguments come back as from their JSON text: the doubles that are not finite as null,
and everything else as it was. -/
theorem comes_back (a : Arguments) :
    (Json.read? a.encode.text).bind decode? = some a.written := by
  have text : a.encode.text = a.written.encode.text := by
    rw [Json.text, Json.text, write_encode_written]
  have readable : Readable Json.maxDepth a.written.encode :=
    readable_encode (fun _ mem => isFinite_of_mem_written mem) 125
  rw [text, Json.read?_text readable, Option.bind_some, decode?_encode]

/-- Arguments come back from their JSON text as they were exactly when every double among them
is finite. -/
theorem comes_back_iff (a : Arguments) :
    (Json.read? a.encode.text).bind decode? = some a ↔ ∀ v ∈ a.values, v.IsFinite := by
  rw [comes_back, Option.some_inj, written_eq_self_iff]

end Arguments

end ConnectionPool
