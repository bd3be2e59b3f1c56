/-! # Maps that remember the order of their keys

    `OrderedMap κ ν` is a list of entries in which no key occurs twice. A key takes
    its place when it is first inserted and keeps it: inserting it again replaces
    the value there.

    - `keys_insertEntry`: a new key goes last, a known key changes no order,
    - `lookup_insertEntry_self`, `lookup_insertEntry_ne`: what is found afterwards.
-/

namespace Console

variable {κ ν : Type} [DecidableEq κ]

/-! ### Entries -/

/-- The entries with `value` under `key`: in the place of the key, or last. -/
def insertEntry (key : κ) (value : ν) : List (κ × ν) → List (κ × ν)
  | [] => [(key, value)]
  | entry :: rest =>
    if entry.1 = key then (key, value) :: rest else entry :: insertEntry key value rest

/-- The value under `key`. -/
def lookupEntry (key : κ) : List (κ × ν) → Option ν
  | [] => none
  | entry :: rest => if entry.1 = key then some entry.2 else lookupEntry key rest

/-- A known key changes no order, a new key goes last. -/
theorem keys_insertEntry (key : κ) (value : ν) (entries : List (κ × ν)) :
    (insertEntry key value entries).map Prod.fst =
      if key ∈ entries.map Prod.fst then entries.map Prod.fst
      else entries.map Prod.fst ++ [key] := by
  induction entries with
  | nil => simp [insertEntry]
  | cons entry rest ih =>
    by_cases h : entry.1 = key
    · simp [insertEntry, h]
    · have h' : ¬ key = entry.1 := fun e => h e.symm
      by_cases hk : key ∈ rest.map Prod.fst
      · rw [if_pos hk] at ih
        simp only [insertEntry, if_neg h, List.map_cons, ih]
        rw [if_pos (List.mem_cons_of_mem _ hk)]
      · rw [if_neg hk] at ih
        simp only [insertEntry, if_neg h, List.map_cons, ih]
        rw [if_neg (by simp only [List.mem_cons, not_or]; exact ⟨h', hk⟩)]
        rfl

/-- Insertion never repeats a key. -/
theorem nodup_keys_insertEntry (key : κ) (value : ν) {entries : List (κ × ν)}
    (h : (entries.map Prod.fst).Nodup) :
    ((insertEntry key value entries).map Prod.fst).Nodup := by
  rw [keys_insertEntry]
  split
  · exact h
  · next hk =>
    refine List.nodup_append.2 ⟨h, by simp, ?_⟩
    intro a ha b hb hab
    simp only [List.mem_singleton] at hb
    exact hk (hb ▸ hab ▸ ha)

theorem lookup_insertEntry_self (key : κ) (value : ν) (entries : List (κ × ν)) :
    lookupEntry key (insertEntry key value entries) = some value := by
  induction entries with
  | nil => simp [insertEntry, lookupEntry]
  | cons entry rest ih =>
    by_cases h : entry.1 = key
    · simp [insertEntry, lookupEntry, h]
    · simp [insertEntry, lookupEntry, h, ih]

theorem lookup_insertEntry_ne {key other : κ} (value : ν) (entries : List (κ × ν))
    (hne : other ≠ key) :
    lookupEntry other (insertEntry key value entries) = lookupEntry other entries := by
  induction entries with
  | nil => simp [insertEntry, lookupEntry, Ne.symm hne]
  | cons entry rest ih =>
    by_cases h : entry.1 = key
    · subst h; simp [insertEntry, lookupEntry, Ne.symm hne]
    · simp only [insertEntry, if_neg h, lookupEntry, ih]

theorem mem_insertEntry {key : κ} {value : ν} {entries : List (κ × ν)} {entry : κ × ν}
    (h : entry ∈ insertEntry key value entries) : entry = (key, value) ∨ entry ∈ entries := by
  induction entries with
  | nil => exact .inl (by simpa [insertEntry] using h)
  | cons first rest ih =>
    simp only [insertEntry] at h
    split at h
    · rcases List.mem_cons.1 h with h | h
      · exact .inl h
      · exact .inr (List.mem_cons_of_mem _ h)
    · rcases List.mem_cons.1 h with h | h
      · exact .inr (h ▸ List.mem_cons_self)
      · exact (ih h).imp id (List.mem_cons_of_mem _)

/-- Whether two lists of entries hold the same values under the same keys, in any
    order, values being compared by `same`. -/
def sameEntries (same : ν → ν → Bool) (xs ys : List (κ × ν)) : Bool :=
  xs.length == ys.length && xs.all fun entry =>
    match lookupEntry entry.1 ys with
    | some value => same entry.2 value
    | none => false

/-! ### The map -/

/-- A map whose keys are in the order of their first insertion. -/
structure OrderedMap (κ ν : Type) where
  entries : List (κ × ν)
  /-- No key occurs twice. -/
  nodup : (entries.map Prod.fst).Nodup

namespace OrderedMap

/-- The map without entries. -/
def empty : OrderedMap κ ν := ⟨[], by simp⟩

instance : Inhabited (OrderedMap κ ν) := ⟨⟨[], by simp⟩⟩

/-- The keys in order. -/
def keys (m : OrderedMap κ ν) : List κ := m.entries.map Prod.fst

/-- The number of entries. -/
def size (m : OrderedMap κ ν) : Nat := m.entries.length

/-- The value under `key`. -/
def get? (m : OrderedMap κ ν) (key : κ) : Option ν := lookupEntry key m.entries

/-- Whether there is a value under `key`. -/
def contains (m : OrderedMap κ ν) (key : κ) : Bool := (m.get? key).isSome

/-- The map with `value` under `key`, in the place of the key or last. -/
def insert (m : OrderedMap κ ν) (key : κ) (value : ν) : OrderedMap κ ν :=
  ⟨insertEntry key value m.entries, nodup_keys_insertEntry key value m.nodup⟩

/-- The map with all entries inserted from the left. -/
def insertAll (m : OrderedMap κ ν) (entries : List (κ × ν)) : OrderedMap κ ν :=
  entries.foldl (fun m entry => m.insert entry.1 entry.2) m

/-- The map of a list of entries: the last value of a key, in the place of the first. -/
def ofList (entries : List (κ × ν)) : OrderedMap κ ν := empty.insertAll entries

@[simp] theorem get?_insert_self (m : OrderedMap κ ν) (key : κ) (value : ν) :
    (m.insert key value).get? key = some value :=
  lookup_insertEntry_self key value m.entries

theorem get?_insert_ne (m : OrderedMap κ ν) {key other : κ} (value : ν) (hne : other ≠ key) :
    (m.insert key value).get? other = m.get? other :=
  lookup_insertEntry_ne value m.entries hne

theorem keys_insert (m : OrderedMap κ ν) (key : κ) (value : ν) :
    (m.insert key value).keys = if key ∈ m.keys then m.keys else m.keys ++ [key] :=
  keys_insertEntry key value m.entries

/-- Equality of maps whatever the order of their keys. -/
def same (eq : ν → ν → Bool) (m n : OrderedMap κ ν) : Bool :=
  sameEntries eq m.entries n.entries

end OrderedMap

end Console
