/-!
# Tables

A table maps keys to values and remembers the order in which the keys came in.  Writing to a key
that is present keeps its place.

    (t.insert k v).get? k' = if k' = k then some v else t.get? k'     (get?_insert)
    (t.insert k v).keys = t.keys, with k at the end if it is new      (keys_insert)
-/

namespace CounterTrace

/-- Keys with their values, in order of first insertion. -/
structure Table (κ α : Type) where
  entries : List (κ × α) := []
  deriving Repr, DecidableEq

namespace Table

variable {κ α : Type} [DecidableEq κ]

/-! ## Operations -/

def empty : Table κ α := ⟨[]⟩

def lookup (k : κ) : List (κ × α) → Option α
  | [] => none
  | (k', v) :: es => if k' = k then some v else lookup k es

def store (k : κ) (v : α) : List (κ × α) → List (κ × α)
  | [] => [(k, v)]
  | (k', w) :: es => if k' = k then (k, v) :: es else (k', w) :: store k v es

def get? (t : Table κ α) (k : κ) : Option α := lookup k t.entries

def contains (t : Table κ α) (k : κ) : Bool := (t.get? k).isSome

def insert (t : Table κ α) (k : κ) (v : α) : Table κ α := ⟨store k v t.entries⟩

/-- Changes the value of a key, which counts as `d` as long as it is absent. -/
def modify (t : Table κ α) (k : κ) (d : α) (f : α → α) : Table κ α :=
  t.insert k (f ((t.get? k).getD d))

/-- The keys, in order of first insertion. -/
def keys (t : Table κ α) : List κ := t.entries.map (·.1)

def size (t : Table κ α) : Nat := t.entries.length

/-! ## Lemmas -/

@[simp]
theorem get?_empty (k : κ) : (empty : Table κ α).get? k = none := rfl

theorem lookup_store (k k' : κ) (v : α) (es : List (κ × α)) :
    lookup k' (store k v es) = if k' = k then some v else lookup k' es := by
  induction es with
  | nil => simp [store, lookup, eq_comm]
  | cons e es ih =>
    obtain ⟨a, w⟩ := e
    simp only [store]
    split
    · next h => subst h; simp only [lookup]; split <;> simp_all [eq_comm]
    · simp only [lookup, ih]; split <;> split <;> simp_all

@[simp]
theorem get?_insert (t : Table κ α) (k k' : κ) (v : α) :
    (t.insert k v).get? k' = if k' = k then some v else t.get? k' :=
  lookup_store k k' v t.entries

theorem store_of_lookup {k : κ} {v : α} {es : List (κ × α)} (h : lookup k es = some v) :
    store k v es = es := by
  induction es with
  | nil => simp [lookup] at h
  | cons e es ih =>
    obtain ⟨k', w⟩ := e
    simp only [lookup] at h
    simp only [store]
    split at h
    · next hk => simp_all
    · next hk => rw [if_neg hk, ih h]

/-- Writing the value that is there changes nothing. -/
theorem insert_of_get? {t : Table κ α} {k : κ} {v : α} (h : t.get? k = some v) :
    t.insert k v = t := by
  rw [insert, store_of_lookup h]

theorem store_store (k : κ) (v v' : α) (es : List (κ × α)) :
    store k v' (store k v es) = store k v' es := by
  induction es with
  | nil => simp [store]
  | cons e es ih =>
    obtain ⟨a, w⟩ := e
    simp only [store]
    split
    · simp [store]
    · next h => simp [store, h, ih]

theorem insert_insert (t : Table κ α) (k : κ) (v v' : α) :
    (t.insert k v).insert k v' = t.insert k v' :=
  congrArg Table.mk (store_store k v v' t.entries)

theorem lookup_isSome_iff (k : κ) (es : List (κ × α)) :
    (lookup k es).isSome ↔ k ∈ es.map (·.1) := by
  induction es with
  | nil => simp [lookup]
  | cons e es ih =>
    obtain ⟨k', v⟩ := e
    simp only [lookup, List.map_cons, List.mem_cons]
    split
    · next h => simp [h]
    · next h => rw [ih, or_iff_right (Ne.symm h)]

theorem mem_keys_iff {t : Table κ α} {k : κ} : k ∈ t.keys ↔ (t.get? k).isSome :=
  (lookup_isSome_iff k t.entries).symm

theorem map_fst_store (k : κ) (v : α) (es : List (κ × α)) :
    (store k v es).map (·.1) =
      if k ∈ es.map (·.1) then es.map (·.1) else es.map (·.1) ++ [k] := by
  induction es with
  | nil => simp [store]
  | cons e es ih =>
    obtain ⟨k', w⟩ := e
    simp only [store]
    split
    · next h => simp [h]
    · next h =>
      simp only [List.map_cons, ih, List.mem_cons, Ne.symm h, false_or]
      split <;> rfl

theorem keys_insert (t : Table κ α) (k : κ) (v : α) :
    (t.insert k v).keys = if k ∈ t.keys then t.keys else t.keys ++ [k] :=
  map_fst_store k v t.entries

theorem lookup_eq_some_iff {k : κ} {v : α} {es : List (κ × α)} (h : (es.map (·.1)).Nodup) :
    lookup k es = some v ↔ (k, v) ∈ es := by
  induction es with
  | nil => simp [lookup]
  | cons e es ih =>
    obtain ⟨k', w⟩ := e
    simp only [List.map_cons, List.nodup_cons] at h
    simp only [lookup, List.mem_cons, Prod.mk.injEq]
    split
    · next hk =>
      subst hk
      have : (k', v) ∉ es := fun hm => h.1 (List.mem_map.2 ⟨_, hm, rfl⟩)
      simp [this, eq_comm]
    · next hk => simp [ih h.2, Ne.symm hk]

/-- In a table without double keys the entries are the keys with their values. -/
theorem mem_entries_iff {t : Table κ α} (h : t.keys.Nodup) {k : κ} {v : α} :
    (k, v) ∈ t.entries ↔ t.get? k = some v :=
  (lookup_eq_some_iff h).symm

end Table

end CounterTrace
