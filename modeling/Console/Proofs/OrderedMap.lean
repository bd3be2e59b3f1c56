import Console.OrderedMap

/-! # What an ordered map holds

    The entries of a map as a set, and the maps that lists of entries build. A list
    without repeated keys is already the entries of its map, so what is written as such a
    list reads back unchanged.
-/

namespace Console

section
variable {κ ν : Type} [DecidableEq κ]

/-! ### Looking up -/

/-- Of two lists of entries, the first decides. -/
@[simp] theorem lookupEntry_append (key : κ) (xs ys : List (κ × ν)) :
    lookupEntry key (xs ++ ys) = (lookupEntry key xs).or (lookupEntry key ys) := by
  induction xs with
  | nil => rfl
  | cons entry rest ih =>
    by_cases h : entry.1 = key
    · simp [lookupEntry, h]
    · simp [lookupEntry, h, ih]

theorem mem_of_lookupEntry {key : κ} {value : ν} {entries : List (κ × ν)}
    (h : lookupEntry key entries = some value) : (key, value) ∈ entries := by
  induction entries with
  | nil => cases h
  | cons entry rest ih =>
    simp only [lookupEntry] at h
    split at h
    · next hk =>
      cases h
      rw [← hk]
      exact List.mem_cons_self
    · exact List.mem_cons_of_mem _ (ih h)

/-- An entry is found under its key if no key is repeated. -/
theorem lookupEntry_of_mem {key : κ} {value : ν} {entries : List (κ × ν)}
    (hnodup : (entries.map Prod.fst).Nodup) (h : (key, value) ∈ entries) :
    lookupEntry key entries = some value := by
  induction entries with
  | nil => cases h
  | cons entry rest ih =>
    obtain ⟨hfresh, hrest⟩ := List.nodup_cons.1 hnodup
    rcases List.mem_cons.1 h with rfl | h
    · simp [lookupEntry]
    · have hne : entry.1 ≠ key := by
        intro heq
        exact hfresh (heq ▸ List.mem_map_of_mem h)
      simp only [lookupEntry, if_neg hne]
      exact ih hrest h

theorem lookupEntry_eq_none_iff {key : κ} {entries : List (κ × ν)} :
    lookupEntry key entries = none ↔ key ∉ entries.map Prod.fst := by
  induction entries with
  | nil => simp [lookupEntry]
  | cons entry rest ih =>
    by_cases h : entry.1 = key
    · simp [lookupEntry, h]
    · have hne : key ≠ entry.1 := fun heq => h heq.symm
      simp [lookupEntry, h, hne, ih]

omit [DecidableEq κ] in
theorem map_fst_map {ν' : Type} (f : ν → ν') (entries : List (κ × ν)) :
    (entries.map fun entry => (entry.1, f entry.2)).map Prod.fst = entries.map Prod.fst := by
  rw [List.map_map]
  rfl

/-- What is found among changed values is the changed value. -/
theorem lookupEntry_map {ν' : Type} (f : ν → ν') (key : κ) (entries : List (κ × ν)) :
    lookupEntry key (entries.map fun entry => (entry.1, f entry.2)) =
      (lookupEntry key entries).map f := by
  induction entries with
  | nil => rfl
  | cons entry rest ih =>
    by_cases h : entry.1 = key
    · simp [lookupEntry, h]
    · simp [lookupEntry, h, ih]

/-! ### Building -/

/-- An item more is left out if it occurred before. -/
theorem eraseDups_concat (keys : List κ) (key : κ) :
    (keys ++ [key]).eraseDups =
      if key ∈ keys then keys.eraseDups else keys.eraseDups ++ [key] := by
  rw [List.eraseDups_append]
  by_cases h : key ∈ keys
  · simp [h, List.removeAll]
  · simp [h, List.removeAll, List.eraseDups_cons]

/-- A new key goes last. -/
theorem insertEntry_of_notMem {key : κ} {value : ν} {entries : List (κ × ν)}
    (h : key ∉ entries.map Prod.fst) : insertEntry key value entries = entries ++ [(key, value)] := by
  induction entries with
  | nil => rfl
  | cons entry rest ih =>
    rw [List.map_cons, List.mem_cons, not_or] at h
    have hne : entry.1 ≠ key := fun e => h.1 e.symm
    simp only [insertEntry, if_neg hne, ih h.2, List.cons_append]

end

namespace OrderedMap

variable {κ ν : Type} [DecidableEq κ]

omit [DecidableEq κ] in
theorem ext_entries {m n : OrderedMap κ ν} (h : m.entries = n.entries) : m = n := by
  cases m
  cases n
  cases h
  rfl

/-- The map with its values changed. -/
def mapValues {ν' : Type} (f : ν → ν') (m : OrderedMap κ ν) : OrderedMap κ ν' where
  entries := m.entries.map fun entry => (entry.1, f entry.2)
  nodup := (map_fst_map f m.entries).symm ▸ m.nodup

@[simp] theorem get?_empty (key : κ) : (empty : OrderedMap κ ν).get? key = none := rfl

theorem get?_eq_some_iff {m : OrderedMap κ ν} {key : κ} {value : ν} :
    m.get? key = some value ↔ (key, value) ∈ m.entries :=
  ⟨mem_of_lookupEntry, lookupEntry_of_mem m.nodup⟩

theorem get?_eq_none_iff {m : OrderedMap κ ν} {key : κ} : m.get? key = none ↔ key ∉ m.keys :=
  lookupEntry_eq_none_iff

theorem contains_iff_mem_keys {m : OrderedMap κ ν} {key : κ} : m.contains key ↔ key ∈ m.keys := by
  rw [contains, Option.isSome_iff_ne_none, Ne, get?_eq_none_iff, Decidable.not_not]

theorem entries_insert_of_get? {m : OrderedMap κ ν} {key : κ} (h : m.get? key = none) (value : ν) :
    (m.insert key value).entries = m.entries ++ [(key, value)] :=
  insertEntry_of_notMem (get?_eq_none_iff.1 h)

section
variable {α : Type} {f : α → ν} {xs : List (κ × α)} {m : OrderedMap κ ν}

/-- In a map that holds what `f` makes of listed values, a key has what `f` makes of its
    own. -/
theorem get?_of_map (h : m.entries = xs.map fun entry => (entry.1, f entry.2)) (key : κ) :
    m.get? key = (lookupEntry key xs).map f := by
  rw [get?, h, lookupEntry_map f]

/-- Such a map goes on as the list does when a new key is inserted. -/
theorem entries_insert_of_map (h : m.entries = xs.map fun entry => (entry.1, f entry.2)) {key : κ}
    (hnew : key ∉ xs.map Prod.fst) (x : α) :
    (m.insert key (f x)).entries = (xs ++ [(key, x)]).map fun entry => (entry.1, f entry.2) := by
  have hkey : key ∉ m.entries.map Prod.fst := by rwa [h, map_fst_map f]
  rw [List.map_append, ← h]
  exact insertEntry_of_notMem hkey

end

/-- A key more is left out if it occurred before. -/
theorem keys_insert_of_eraseDups {m : OrderedMap κ ν} {keys : List κ} (h : m.keys = keys.eraseDups)
    (key : κ) (value : ν) : (m.insert key value).keys = (keys ++ [key]).eraseDups := by
  rw [keys_insert, eraseDups_concat, h]
  simp only [List.mem_eraseDups]

/-- Inserting entries with new, different keys appends them. -/
theorem entries_insertAll {m : OrderedMap κ ν} {entries : List (κ × ν)}
    (h : ((m.entries ++ entries).map Prod.fst).Nodup) :
    (m.insertAll entries).entries = m.entries ++ entries := by
  induction entries generalizing m with
  | nil => simp [insertAll]
  | cons entry rest ih =>
    have hfresh : entry.1 ∉ m.entries.map Prod.fst := by
      rw [List.map_append, List.map_cons] at h
      intro hmem
      exact (List.nodup_append.1 h).2.2 _ hmem _ List.mem_cons_self rfl
    have hentries : (m.insert entry.1 entry.2).entries = m.entries ++ [entry] :=
      insertEntry_of_notMem hfresh
    have hrest : (((m.insert entry.1 entry.2).entries ++ rest).map Prod.fst).Nodup := by
      rw [hentries, List.append_assoc]
      exact h
    show ((m.insert entry.1 entry.2).insertAll rest).entries = _
    rw [ih hrest, hentries, List.append_assoc, List.singleton_append]

/-- The entries of a map build the map. -/
theorem ofList_entries (m : OrderedMap κ ν) : ofList m.entries = m :=
  ext_entries (entries_insertAll (m := empty) m.nodup)

/-- Every entry of a list's map is in the list. -/
theorem mem_of_mem_insertAll {m : OrderedMap κ ν} {entries : List (κ × ν)} {entry : κ × ν}
    (h : entry ∈ (m.insertAll entries).entries) : entry ∈ m.entries ∨ entry ∈ entries := by
  induction entries generalizing m with
  | nil => exact .inl h
  | cons first rest ih =>
    rcases ih (m := m.insert first.1 first.2) h with h | h
    · rcases mem_insertEntry h with h | h
      · exact .inr (h ▸ List.mem_cons_self)
      · exact .inl h
    · exact .inr (List.mem_cons_of_mem _ h)

/-- Inserting the items of a list under their keys puts each key in the place of its first
    item. -/
theorem keys_foldl_insert {α : Type} (key : α → κ) {m : OrderedMap κ α} {keys : List κ}
    (h : m.keys = keys.eraseDups) (xs : List α) :
    (xs.foldl (fun m x => m.insert (key x) x) m).keys = (keys ++ xs.map key).eraseDups := by
  induction xs generalizing m keys with
  | nil => rw [List.map_nil, List.append_nil, List.foldl_nil, h]
  | cons x rest ih =>
    rw [List.foldl_cons, ih (keys_insert_of_eraseDups h (key x) x), List.map_cons,
      List.append_assoc, List.singleton_append]

/-- Inserting the items of a list under their keys leaves the last item of each key. -/
theorem get?_foldl_insert {α : Type} (key : α → κ) (m : OrderedMap κ α) (xs : List α) (k : κ) :
    (xs.foldl (fun m x => m.insert (key x) x) m).get? k =
      ((xs.filter fun x => key x = k).getLast?).or (m.get? k) := by
  induction xs generalizing m with
  | nil => rfl
  | cons x rest ih =>
    rw [List.foldl_cons, ih]
    by_cases h : key x = k
    · subst h
      rw [get?_insert_self, List.filter_cons_of_pos (by simp), List.getLast?_cons]
      cases (rest.filter fun y => key y = key x).getLast? <;> rfl
    · rw [get?_insert_ne m x (Ne.symm h), List.filter_cons_of_neg (by simpa using h)]

end OrderedMap

end Console
