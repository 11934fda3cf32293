/-!
# Maps in order of insertion

A map that remembers the order in which its keys came in. Inserting a key that is present replaces
the value and keeps the place. The view of a map is `toList`, its entries in order.
-/

set_option autoImplicit false

namespace ObjectLayout

/-- A map from `κ` to `α` whose entries are kept in the order in which their keys came in. -/
structure OrderedMap (κ α : Type) where
  /-- The entries, in order. -/
  toList : List (κ × α) := []
deriving DecidableEq, Repr

namespace OrderedMap

variable {κ α : Type}

instance : EmptyCollection (OrderedMap κ α) := ⟨⟨[]⟩⟩

instance : Inhabited (OrderedMap κ α) := ⟨∅⟩

/-- The keys, in order. -/
def keys (m : OrderedMap κ α) : List κ := m.toList.map Prod.fst

/-- The values, in the order of their keys. -/
def values (m : OrderedMap κ α) : List α := m.toList.map Prod.snd

/-- The number of entries. -/
def size (m : OrderedMap κ α) : Nat := m.toList.length

/-- Whether the map has no entries. -/
def isEmpty (m : OrderedMap κ α) : Bool := m.toList.isEmpty

/-- The entry at a position. -/
def entryAt? (m : OrderedMap κ α) (i : Nat) : Option (κ × α) := m.toList[i]?

variable [DecidableEq κ]

/-- The value of the first entry of a list that has the key. -/
def firstValue? (k : κ) : List (κ × α) → Option α
  | [] => none
  | (k', v) :: rest => if k' = k then some v else firstValue? k rest

/-- The entries with the value of `k` replaced, or with a new entry at the end. -/
def insertEntry (k : κ) (v : α) : List (κ × α) → List (κ × α)
  | [] => [(k, v)]
  | (k', v') :: rest => if k' = k then (k, v) :: rest else (k', v') :: insertEntry k v rest

/-- The value of a key. -/
def get? (m : OrderedMap κ α) (k : κ) : Option α := firstValue? k m.toList

/-- Whether the key has a value. -/
def contains (m : OrderedMap κ α) (k : κ) : Bool := (m.get? k).isSome

/-- The position of a key. -/
def position? (m : OrderedMap κ α) (k : κ) : Option Nat := m.keys.idxOf? k

/-- Gives the key a value: in its place if it is present, and as the last entry otherwise. -/
def insert (m : OrderedMap κ α) (k : κ) (v : α) : OrderedMap κ α := ⟨insertEntry k v m.toList⟩

/-- The map with the entries of a list, inserted one by one. -/
def ofList (entries : List (κ × α)) : OrderedMap κ α :=
  entries.foldl (fun m (k, v) => m.insert k v) ∅

/-- The value of a key is found where it has been put. -/
theorem firstValue?_insertEntry_self (k : κ) (v : α) (l : List (κ × α)) :
    firstValue? k (insertEntry k v l) = some v := by
  induction l with
  | nil => simp [insertEntry, firstValue?]
  | cons entry rest ih =>
    by_cases h : entry.1 = k
    · simp [insertEntry, firstValue?, h]
    · simp [insertEntry, firstValue?, h, ih]

/-- The value of a key does not depend on what is put under another one. -/
theorem firstValue?_insertEntry_of_ne {j k : κ} (h : j ≠ k) (v : α) (l : List (κ × α)) :
    firstValue? j (insertEntry k v l) = firstValue? j l := by
  induction l with
  | nil => simp [insertEntry, firstValue?, Ne.symm h]
  | cons entry rest ih =>
    by_cases hk : entry.1 = k
    · simp [insertEntry, firstValue?, hk, Ne.symm h]
    · simp [insertEntry, firstValue?, hk, ih]

/-- The value that has been put under a key is that of the key. -/
@[simp] theorem get?_insert_self (m : OrderedMap κ α) (k : κ) (v : α) :
    (m.insert k v).get? k = some v :=
  firstValue?_insertEntry_self k v m.toList

/-- What is put under a key does not change the value of another one. -/
theorem get?_insert_of_ne (m : OrderedMap κ α) {j k : κ} (h : j ≠ k) (v : α) :
    (m.insert k v).get? j = m.get? j :=
  firstValue?_insertEntry_of_ne h v m.toList

/-- A value that is found after an entry has been put comes from the entry or was there before. -/
theorem of_get?_insert {m : OrderedMap κ α} {j k : κ} {v w : α}
    (h : (m.insert k v).get? j = some w) : (j = k ∧ w = v) ∨ m.get? j = some w := by
  by_cases hjk : j = k
  · subst hjk
    rw [get?_insert_self] at h
    exact .inl ⟨rfl, (Option.some.inj h).symm⟩
  · rw [get?_insert_of_ne m hjk] at h
    exact .inr h

/-- What is put under an absent key changes no value that is there. -/
theorem get?_insert_of_absent {m : OrderedMap κ α} {j k : κ} {v w : α} (habsent : m.get? k = none)
    (hget : m.get? j = some w) : (m.insert k v).get? j = some w := by
  rw [get?_insert_of_ne]
  · exact hget
  · rintro rfl
    rw [habsent] at hget
    cases hget

/-- The empty map has no values. -/
@[simp] theorem get?_empty (k : κ) : (∅ : OrderedMap κ α).get? k = none := rfl

omit [DecidableEq κ] in
/-- The empty map has no keys. -/
@[simp] theorem keys_empty : (∅ : OrderedMap κ α).keys = [] := rfl

omit [DecidableEq κ] in
/-- The empty map has no entries. -/
@[simp] theorem toList_empty : (∅ : OrderedMap κ α).toList = [] := rfl

/-- A list has no value for a key exactly when no entry has the key. -/
theorem firstValue?_eq_none_iff {k : κ} {l : List (κ × α)} :
    firstValue? k l = none ↔ k ∉ l.map Prod.fst := by
  induction l with
  | nil => simp [firstValue?]
  | cons entry rest ih =>
    by_cases h : entry.1 = k
    · simp [firstValue?, h]
    · simp [firstValue?, h, ih, Ne.symm h]

/-- A value that is found stands in an entry with the key. -/
theorem mem_of_firstValue?_eq_some {k : κ} {v : α} {l : List (κ × α)}
    (h : firstValue? k l = some v) : (k, v) ∈ l := by
  induction l with
  | nil => simp [firstValue?] at h
  | cons entry rest ih =>
    by_cases hk : entry.1 = k
    · simp only [firstValue?, hk, if_true, Option.some.injEq] at h
      rw [← hk, ← h]
      exact List.mem_cons_self
    · simp only [firstValue?, hk, if_false] at h
      exact List.mem_cons_of_mem _ (ih h)

/-- Where no key is repeated, the value of every entry is found under its key. -/
theorem firstValue?_eq_some_of_mem {k : κ} {v : α} {l : List (κ × α)}
    (hl : (l.map Prod.fst).Nodup) (h : (k, v) ∈ l) : firstValue? k l = some v := by
  induction l with
  | nil => simp at h
  | cons entry rest ih =>
    rw [List.map_cons, List.nodup_cons] at hl
    rcases List.mem_cons.1 h with rfl | hmem
    · simp [firstValue?]
    · have hne : entry.1 ≠ k := by
        intro heq
        rw [heq] at hl
        exact hl.1 (List.mem_map.2 ⟨(k, v), hmem, rfl⟩)
      simpa [firstValue?, hne] using ih hl.2 hmem

/-- An absent key is put at the end. -/
theorem insertEntry_of_none {k : κ} {l : List (κ × α)} (h : firstValue? k l = none) (v : α) :
    insertEntry k v l = l ++ [(k, v)] := by
  induction l with
  | nil => rfl
  | cons entry rest ih =>
    by_cases hk : entry.1 = k
    · simp [firstValue?, hk] at h
    · simp only [firstValue?, hk, if_false] at h
      simp [insertEntry, hk, ih h]

/-- Putting a value under a key that is present moves no key. -/
theorem map_fst_insertEntry_of_some {k : κ} {w : α} {l : List (κ × α)}
    (h : firstValue? k l = some w) (v : α) :
    (insertEntry k v l).map Prod.fst = l.map Prod.fst := by
  induction l with
  | nil => simp [firstValue?] at h
  | cons entry rest ih =>
    by_cases hk : entry.1 = k
    · simp [insertEntry, hk]
    · simp only [firstValue?, hk, if_false] at h
      simp [insertEntry, hk, ih h]

/-- A key has no value exactly when it is no key of the map. -/
theorem get?_eq_none_iff {m : OrderedMap κ α} {k : κ} : m.get? k = none ↔ k ∉ m.keys :=
  firstValue?_eq_none_iff

/-- A key that has a value is a key of the map. -/
theorem mem_keys_of_get?_eq_some {m : OrderedMap κ α} {k : κ} {v : α} (h : m.get? k = some v) :
    k ∈ m.keys := by
  by_cases hk : k ∈ m.keys
  · exact hk
  · rw [get?_eq_none_iff.2 hk] at h
    cases h

/-- Every key of the map has a value. -/
theorem exists_get?_of_mem_keys {m : OrderedMap κ α} {k : κ} (h : k ∈ m.keys) :
    ∃ v, m.get? k = some v := by
  cases hv : m.get? k with
  | none => exact absurd h (get?_eq_none_iff.1 hv)
  | some v => exact ⟨v, rfl⟩

/-- The value of a key stands in an entry of the map. -/
theorem mem_toList_of_get?_eq_some {m : OrderedMap κ α} {k : κ} {v : α}
    (h : m.get? k = some v) : (k, v) ∈ m.toList :=
  mem_of_firstValue?_eq_some h

/-- Where no key is repeated, every entry is found under its key. -/
theorem get?_eq_some_of_mem {m : OrderedMap κ α} (hm : m.keys.Nodup) {k : κ} {v : α}
    (h : (k, v) ∈ m.toList) : m.get? k = some v :=
  firstValue?_eq_some_of_mem hm h

/-- A key that is new comes last. -/
theorem toList_insert_of_none {m : OrderedMap κ α} {k : κ} (h : m.get? k = none) (v : α) :
    (m.insert k v).toList = m.toList ++ [(k, v)] :=
  insertEntry_of_none h v

/-- An absent key becomes the last one. -/
theorem keys_insert_of_none {m : OrderedMap κ α} {k : κ} (h : m.get? k = none) (v : α) :
    (m.insert k v).keys = m.keys ++ [k] := by
  simp [keys, toList_insert_of_none h]

/-- A key that is present keeps its place. -/
theorem keys_insert_of_some {m : OrderedMap κ α} {k : κ} {w : α} (h : m.get? k = some w) (v : α) :
    (m.insert k v).keys = m.keys :=
  map_fst_insertEntry_of_some h v

/-- Keys are not repeated by putting entries. -/
theorem nodup_keys_insert {m : OrderedMap κ α} (hm : m.keys.Nodup) (k : κ) (v : α) :
    (m.insert k v).keys.Nodup := by
  cases h : m.get? k with
  | none =>
    rw [keys_insert_of_none h, List.nodup_append]
    refine ⟨hm, by simp, ?_⟩
    rintro a ha b hb rfl
    rw [List.mem_singleton.1 hb] at ha
    exact get?_eq_none_iff.1 h ha
  | some w => rwa [keys_insert_of_some h]

end OrderedMap

end ObjectLayout
