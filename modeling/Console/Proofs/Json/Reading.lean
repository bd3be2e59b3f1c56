import Console.Json.Parts
import Console.Proofs.OrderedMap

/-! # Reading what was written

    The readers of scalars, lists, maps and fields return what their writers put into
    JSON:

    - `uint64?_nat`, `uint32?_nat`: an unsigned integer fits the type that it came from,
    - `listOf?_map`, `mapOf?_map`: lists and maps are read if each of their values is,
    - `needed_named`, `defaulted_named`, `maybe_named`: a field of an object is read from
      the member that holds it.
-/

namespace Console

namespace Json

/-! ### Scalars -/

@[simp] theorem string?_string (s : String) : (Json.string s).string? = some s := rfl

@[simp] theorem real?_real (x : Binary64) : (Json.real x).real? = some x := rfl

@[simp] theorem items?_array (items : List Json) : (Json.array items).items? = some items := rfl

/-- An integer of 64 bits is written as an integer. -/
theorem int_eq {i : Int} (h : -9223372036854775808 ≤ i ∧ i < 18446744073709551616) :
    Json.int i = .number (.integer i h) :=
  congrArg Json.number (dif_pos h)

theorem nat?_nat {n : Nat} (h : n < 18446744073709551616) : (Json.nat n).nat? = some n := by
  have hrange : -9223372036854775808 ≤ (n : Int) ∧ (n : Int) < 18446744073709551616 := by omega
  have hnat : Json.nat n = .number (.integer n hrange) := int_eq hrange
  rw [hnat]
  simp [nat?]

@[simp] theorem uint64?_nat (n : UInt64) : (Json.nat n.toNat).uint64? = some n := by
  have h : n.toNat < 18446744073709551616 := n.toNat_lt
  have hsize : n.toNat < UInt64.size := h
  simp [uint64?, nat?_nat h, hsize]

@[simp] theorem uint32?_nat (n : UInt32) : (Json.nat n.toNat).uint32? = some n := by
  have h : n.toNat < 4294967296 := n.toNat_lt
  have hsize : n.toNat < UInt32.size := h
  simp [uint32?, nat?_nat (Nat.lt_trans h (by decide)), hsize]

theorem nat_ne_null (n : Nat) : Json.nat n ≠ .null := fun h => nomatch h

/-! ### Lists and maps -/

section
variable {α β : Type} {write : α → β} {read : β → Option α}

/-- A list is read if each of its items is. -/
theorem mapM_map {xs : List α} (h : ∀ x ∈ xs, read (write x) = some x) :
    (xs.map write).mapM read = some xs := by
  induction xs with
  | nil => rfl
  | cons x rest ih =>
    have hx := h x List.mem_cons_self
    have hrest := ih fun y hy => h y (List.mem_cons_of_mem _ hy)
    simp [hx, hrest]

/-- What reading a list returns came from its items. -/
theorem of_mem_mapM {items : List β} {xs : List α} (h : items.mapM read = some xs) {x : α}
    (hx : x ∈ xs) : ∃ item ∈ items, read item = some x := by
  induction items generalizing xs with
  | nil =>
    cases h
    cases hx
  | cons item rest ih =>
    simp only [List.mapM_cons, Option.bind_eq_bind, Option.bind_eq_some_iff] at h
    obtain ⟨y, hy, ys, hys, h⟩ := h
    cases h
    rcases List.mem_cons.1 hx with rfl | hx
    · exact ⟨item, List.mem_cons_self, hy⟩
    · obtain ⟨found, hmem, hfound⟩ := ih hys hx
      exact ⟨found, List.mem_cons_of_mem _ hmem, hfound⟩

end

section
variable {α : Type} {write : α → Json} {read : Json → Option α}

theorem listOf?_map {xs : List α} (h : ∀ x ∈ xs, read (write x) = some x) :
    listOf? read (.array (xs.map write)) = some xs := by
  simp [listOf?, mapM_map h]

theorem of_mem_listOf? {value : Json} {xs : List α} (h : listOf? read value = some xs) {x : α}
    (hx : x ∈ xs) : ∃ item, read item = some x := by
  obtain ⟨items, -, hitems⟩ := Option.bind_eq_some_iff.1 h
  obtain ⟨item, -, hitem⟩ := of_mem_mapM hitems hx
  exact ⟨item, hitem⟩

/-- A map is read if each of its values is. -/
theorem mapOf?_map {m : OrderedMap String α}
    (h : ∀ entry ∈ m.entries, read (write entry.2) = some entry.2) :
    mapOf? read (.object (m.entries.map fun entry => (entry.1, write entry.2))) = some m := by
  have hentries : (m.entries.map fun entry => (entry.1, write entry.2)).mapM
      (fun entry => (read entry.2).map fun x => (entry.1, x)) = some m.entries :=
    mapM_map fun entry hentry => by simp [h entry hentry]
  simp [mapOf?, members?, hentries, OrderedMap.ofList_entries]

/-- What reading a map returns came from its members. -/
theorem of_mem_mapOf? {value : Json} {m : OrderedMap String α} (h : mapOf? read value = some m)
    {entry : String × α} (hentry : entry ∈ m.entries) : ∃ item, read item = some entry.2 := by
  simp only [mapOf?, Option.bind_eq_bind, Option.bind_eq_some_iff] at h
  obtain ⟨members, -, entries, hentries, h⟩ := h
  cases h
  rcases OrderedMap.mem_of_mem_insertAll hentry with hnone | hmem
  · cases hnone
  · obtain ⟨member, -, hmember⟩ := of_mem_mapM hentries hmem
    obtain ⟨x, hx, rfl⟩ := Option.map_eq_some_iff.1 hmember
    exact ⟨member.2, hx⟩

end

/-! ### Members -/

@[simp] theorem lookupEntry_optional_self (name : String) (value : Option Json) :
    lookupEntry name (optional name value) = value := by
  cases value <;> simp [optional, lookupEntry]

@[simp] theorem lookupEntry_optional_ne {name other : String} (value : Option Json)
    (h : other ≠ name) : lookupEntry name (optional other value) = none := by
  cases value <;> simp [optional, lookupEntry, h]

end Json

/-! ### Fields of objects -/

namespace Parts

variable {α : Type} {members : List (String × Json)} {index : Nat} {name : String}
  {read : Json → Option α} {write : α → Json}

/-- Members that no field names are no surplus. -/
theorem guard_fits_bind (count : Nat) (next : Unit → Option α) :
    (guard ((named members).fits count) >>= next) = next () := rfl

theorem needed_named {x : α} (hmember : lookupEntry name members = some (write x))
    (hread : read (write x) = some x) : (named members).needed index name read = some x := by
  simp [needed, field?, hmember, hread]

theorem defaulted_named {x default : α} (hmember : lookupEntry name members = some (write x))
    (hread : read (write x) = some x) :
    (named members).defaulted index name read default = some x := by
  simp [defaulted, field?, hmember, hread]

/-- An optional field is read if it is not written as null. -/
theorem maybe_named {x : Option α} (hmember : lookupEntry name members = x.map write)
    (hread : ∀ y ∈ x, read (write y) = some y) (hnull : ∀ y ∈ x, write y ≠ .null) :
    (named members).maybe index name read = some x := by
  cases x with
  | none => simp [maybe, field?, hmember]
  | some y =>
    have hy := hread y rfl
    have hn := hnull y rfl
    rw [Option.map_some] at hmember
    cases hw : write y with
    | null => exact absurd hw hn
    | _ => rw [hw] at hmember hy; simp [maybe, field?, hmember, hy]

/-! The readers that structures use, with what they were written as. -/

theorem needed_string {s : String} (h : lookupEntry name members = some (.string s)) :
    (named members).needed index name Json.string? = some s :=
  needed_named h rfl

theorem defaulted_string {s default : String}
    (h : lookupEntry name members = some (.string s)) :
    (named members).defaulted index name Json.string? default = some s :=
  defaulted_named h rfl

theorem defaulted_bool {b default : Bool} (h : lookupEntry name members = some (.bool b)) :
    (named members).defaulted index name Json.bool? default = some b :=
  defaulted_named h rfl

theorem defaulted_uint32 {n default : UInt32}
    (h : lookupEntry name members = some (.nat n.toNat)) :
    (named members).defaulted index name Json.uint32? default = some n :=
  @defaulted_named _ _ _ _ _ (fun n : UInt32 => .nat n.toNat) n _ h (Json.uint32?_nat n)

theorem defaulted_uint64 {n default : UInt64}
    (h : lookupEntry name members = some (.nat n.toNat)) :
    (named members).defaulted index name Json.uint64? default = some n :=
  @defaulted_named _ _ _ _ _ (fun n : UInt64 => .nat n.toNat) n _ h (Json.uint64?_nat n)

theorem maybe_string {s : Option String} (h : lookupEntry name members = s.map .string) :
    (named members).maybe index name Json.string? = some s :=
  maybe_named h (by simp) (by simp)

theorem maybe_uint64 {n : Option UInt64}
    (h : lookupEntry name members = n.map fun n => .nat n.toNat) :
    (named members).maybe index name Json.uint64? = some n :=
  maybe_named h (by simp) (by simp [Json.nat_ne_null])

theorem maybe_json {x : Option Json} (h : lookupEntry name members = x) (hnull : x ≠ some .null) :
    (named members).maybe index name some = some x :=
  maybe_named (h.trans Option.map_id'.symm) (fun _ _ => rfl) fun _ hy e => hnull (e ▸ hy)

/-- An optional field is never read from null. -/
theorem of_maybe {parts : Parts} {x : α} (h : parts.maybe index name read = some (some x)) :
    ∃ value, value ≠ .null ∧ read value = some x := by
  unfold maybe at h
  split at h
  · cases h
  · cases h
  · next value hnull _ =>
    obtain ⟨y, hy, h⟩ := Option.map_eq_some_iff.1 h
    cases h
    exact ⟨value, fun e => by subst e; simp_all, hy⟩

end Parts

end Console
