/-!
# DebugLayout — maps that remember their order

An **ordered map** lists its entries in the order in which their keys were first given a value.
Giving a key another value keeps its place; taking a key out and putting it back moves it to the
end. Type nodes, variables, attributes and configuration fields are all kept this way, because
their order shows in what is reported about them.

* `OrderedMap.get?`, `insert`, `erase`, `mapValues`: the operations;
* `OrderedMap.get?_insert`, `get?_erase`: what they do to a look-up;
* `OrderedMap.Distinct`: no key is listed twice, which insertion keeps; the look-up then finds
  exactly the entries (`mem_entries_iff`), and a list of such entries is kept as it is
  (`entries_ofList`).
-/

namespace DebugLayout

/-- A map from keys to values, in the order in which the keys came. -/
structure OrderedMap (κ α : Type) where
  entries : List (κ × α)
  deriving DecidableEq, Repr

namespace OrderedMap

variable {κ α β : Type} [DecidableEq κ]

/-- The map without entries. -/
def empty : OrderedMap κ α := ⟨[]⟩

/-- The value of a key in a list of entries. -/
def lookupIn (k : κ) : List (κ × α) → Option α
  | [] => none
  | (k', v) :: rest => if k' = k then some v else lookupIn k rest

/-- A list of entries with a value given to a key, in its place or at the end. -/
def insertIn (k : κ) (v : α) : List (κ × α) → List (κ × α)
  | [] => [(k, v)]
  | (k', v') :: rest => if k' = k then (k, v) :: rest else (k', v') :: insertIn k v rest

/-- The value of a key. -/
def get? (m : OrderedMap κ α) (k : κ) : Option α := lookupIn k m.entries

/-- Whether a key has a value. -/
def contains (m : OrderedMap κ α) (k : κ) : Bool := (m.get? k).isSome

/-- Gives a key a value. -/
def insert (m : OrderedMap κ α) (k : κ) (v : α) : OrderedMap κ α := ⟨insertIn k v m.entries⟩

/-- Gives a key a value unless it has one. -/
def insertNew (m : OrderedMap κ α) (k : κ) (v : α) : OrderedMap κ α :=
  if m.contains k then m else m.insert k v

/-- Takes a key out. -/
def erase (m : OrderedMap κ α) (k : κ) : OrderedMap κ α :=
  ⟨m.entries.filter fun e => e.1 ≠ k⟩

/-- The map that gives each key the last of its values in a list. -/
def ofList (entries : List (κ × α)) : OrderedMap κ α :=
  entries.foldl (fun m e => m.insert e.1 e.2) empty

/-- The map with its values changed alike. -/
def mapValues (f : α → β) (m : OrderedMap κ α) : OrderedMap κ β :=
  ⟨m.entries.map fun e => (e.1, f e.2)⟩

/-- The keys, in order. -/
def keys (m : OrderedMap κ α) : List κ := m.entries.map (·.1)

/-- The values, in the order of their keys. -/
def values (m : OrderedMap κ α) : List α := m.entries.map (·.2)

/-- The number of keys. -/
def size (m : OrderedMap κ α) : Nat := m.entries.length

omit [DecidableEq κ] in
@[simp] theorem entries_empty : (empty : OrderedMap κ α).entries = [] := rfl

@[simp] theorem get?_empty (k : κ) : (empty : OrderedMap κ α).get? k = none := rfl

/-- After an insertion the new value is found under its key, and under all others what was there. -/
theorem lookupIn_insertIn (k k' : κ) (v : α) (es : List (κ × α)) :
    lookupIn k' (insertIn k v es) = if k = k' then some v else lookupIn k' es := by
  induction es with
  | nil => simp [insertIn, lookupIn]
  | cons e es ih =>
    obtain ⟨j, w⟩ := e
    by_cases hj : j = k
    · -- the key is there already, and its entry is replaced
      subst hj
      by_cases hk : j = k' <;> simp [insertIn, lookupIn, hk]
    · by_cases hk : k = k'
      · subst hk
        simp [insertIn, lookupIn, hj, ih]
      · simp [insertIn, lookupIn, hj, ih, hk]

theorem get?_mapValues (f : α → β) (m : OrderedMap κ α) (k : κ) :
    (m.mapValues f).get? k = (m.get? k).map f := by
  unfold get? mapValues
  induction m.entries with
  | nil => rfl
  | cons e es ih =>
    obtain ⟨j, w⟩ := e
    by_cases hj : j = k
    · simp [lookupIn, hj]
    · simpa [lookupIn, hj] using ih

/-- A key that was given a value has it, and no other key is affected. -/
theorem get?_insert (m : OrderedMap κ α) (k k' : κ) (v : α) :
    (m.insert k v).get? k' = if k = k' then some v else m.get? k' :=
  lookupIn_insertIn k k' v m.entries

/-- A key that was taken out has no value, and no other key is affected. -/
theorem get?_erase (m : OrderedMap κ α) (k k' : κ) :
    (m.erase k).get? k' = if k = k' then none else m.get? k' := by
  unfold get? erase
  induction m.entries with
  | nil => simp [lookupIn]
  | cons e es ih =>
    obtain ⟨j, w⟩ := e
    by_cases hj : j = k
    · subst hj
      by_cases hk : j = k' <;> simp_all [lookupIn]
    · by_cases hk : k = k' <;> simp_all [lookupIn]

-- ---------------------------------------------------------------------------
-- Distinct keys
-- ---------------------------------------------------------------------------

/-- No key is listed twice. -/
def Distinct (m : OrderedMap κ α) : Prop := m.keys.Nodup

omit [DecidableEq κ] in
theorem distinct_empty : (empty : OrderedMap κ α).Distinct := List.nodup_nil

theorem mem_of_lookupIn {k : κ} {v : α} {es : List (κ × α)} (h : lookupIn k es = some v) :
    (k, v) ∈ es := by
  induction es with
  | nil => simp [lookupIn] at h
  | cons e es ih =>
    obtain ⟨j, w⟩ := e
    rw [lookupIn] at h
    split at h
    · rename_i hj
      rw [Option.some.injEq] at h
      subst hj h
      exact List.mem_cons_self
    · exact List.mem_cons_of_mem _ (ih h)

/-- A key that is listed at all has a value. -/
theorem lookupIn_isSome {k : κ} {es : List (κ × α)} :
    (lookupIn k es).isSome = true ↔ k ∈ es.map (·.1) := by
  induction es with
  | nil => simp [lookupIn]
  | cons e es ih =>
    obtain ⟨j, w⟩ := e
    rw [lookupIn]
    by_cases hj : j = k
    · simp [hj]
    · rw [if_neg hj, ih]
      simp [Ne.symm hj]

theorem contains_iff {m : OrderedMap κ α} {k : κ} : m.contains k = true ↔ k ∈ m.keys :=
  lookupIn_isSome

/-- Insertion lists no new key but the one it is given. -/
theorem map_fst_insertIn (k : κ) (v : α) (es : List (κ × α)) :
    (insertIn k v es).map (·.1) =
      if k ∈ es.map (·.1) then es.map (·.1) else es.map (·.1) ++ [k] := by
  induction es with
  | nil => simp [insertIn]
  | cons e es ih =>
    obtain ⟨j, w⟩ := e
    rw [insertIn]
    by_cases hj : j = k
    · -- an entry that is replaced keeps its place
      simp [hj]
    · rw [if_neg hj, List.map_cons, ih]
      by_cases hk : k ∈ es.map (·.1)
      · simp [hk]
      · simp [hk, Ne.symm hj]

theorem Distinct.insert {m : OrderedMap κ α} (h : m.Distinct) (k : κ) (v : α) :
    (m.insert k v).Distinct := by
  unfold Distinct keys OrderedMap.insert at *
  rw [map_fst_insertIn]
  split
  · exact h
  · -- a new key comes last
    rename_i hk
    rw [List.nodup_append]
    refine ⟨h, List.pairwise_singleton _ k, ?_⟩
    intro a ha b hb
    rw [List.mem_singleton] at hb
    rintro rfl
    exact hk (hb ▸ ha)

/-- An insertion of what is not there yet lists no key twice. -/
theorem Distinct.insertNew {m : OrderedMap κ α} (h : m.Distinct) (k : κ) (v : α) :
    (m.insertNew k v).Distinct := by
  unfold OrderedMap.insertNew
  split
  · exact h
  · exact h.insert k v

theorem Distinct.foldl_insert {m : OrderedMap κ α} (h : m.Distinct) (es : List (κ × α)) :
    (es.foldl (fun m e => m.insert e.1 e.2) m).Distinct := by
  induction es generalizing m with
  | nil => exact h
  | cons e es ih => exact ih (h.insert e.1 e.2)

/-- A map made of a list has no key twice, even if the list does. -/
theorem distinct_ofList (es : List (κ × α)) : (ofList es).Distinct :=
  distinct_empty.foldl_insert es

/-- Where no key is listed twice what is listed is found. -/
theorem lookupIn_of_mem {k : κ} {v : α} {es : List (κ × α)} (hd : (es.map (·.1)).Nodup)
    (h : (k, v) ∈ es) : lookupIn k es = some v := by
  induction es with
  | nil => simp at h
  | cons e es ih =>
    obtain ⟨j, w⟩ := e
    rw [List.map_cons, List.nodup_cons] at hd
    rcases List.mem_cons.1 h with h | h
    · obtain ⟨rfl, rfl⟩ := Prod.mk.inj h
      simp [lookupIn]
    · -- the key is not that of an earlier entry, since no key is there twice
      have hj : j ≠ k := by
        rintro rfl
        exact hd.1 (List.mem_map.2 ⟨_, h, rfl⟩)
      rw [lookupIn, if_neg hj]
      exact ih hd.2 h

/-- The look-up of a map with distinct keys finds exactly its entries. -/
theorem Distinct.mem_entries_iff {m : OrderedMap κ α} (h : m.Distinct) {k : κ} {v : α} :
    (k, v) ∈ m.entries ↔ m.get? k = some v :=
  ⟨lookupIn_of_mem h, mem_of_lookupIn⟩

theorem insertIn_of_not_mem {k : κ} {v : α} {es : List (κ × α)} (h : k ∉ es.map (·.1)) :
    insertIn k v es = es ++ [(k, v)] := by
  induction es with
  | nil => rfl
  | cons e es ih =>
    rw [List.map_cons, List.mem_cons, not_or] at h
    rw [insertIn, if_neg (Ne.symm h.1), ih h.2]
    rfl

/-- New keys are listed in the order of their insertion. -/
theorem entries_foldl_insert {m : OrderedMap κ α} {es : List (κ × α)}
    (h : ((m.entries ++ es).map (·.1)).Nodup) :
    (es.foldl (fun m e => m.insert e.1 e.2) m).entries = m.entries ++ es := by
  induction es generalizing m with
  | nil => exact (List.append_nil _).symm
  | cons e es ih =>
    have hnew : e.1 ∉ m.entries.map (·.1) := by
      rw [List.map_append, List.nodup_append] at h
      exact fun hmem => h.2.2 _ hmem _ List.mem_cons_self rfl
    have hstep : (m.insert e.1 e.2).entries = m.entries ++ [e] := insertIn_of_not_mem hnew
    rw [List.append_cons, ← hstep] at h ⊢
    exact ih h

/-- Entries with different keys are all kept, in their order. -/
theorem entries_ofList {es : List (κ × α)} (h : (es.map (·.1)).Nodup) :
    (ofList es).entries = es :=
  entries_foldl_insert h

/-- A key that has a value keeps it; another one is given the new value. -/
theorem get?_insertNew (m : OrderedMap κ α) (k k' : κ) (v : α) :
    (m.insertNew k v).get? k' = (m.get? k').or (if k = k' then some v else none) := by
  unfold insertNew
  by_cases hc : m.contains k = true
  · -- a key that is there keeps its value
    rw [if_pos hc]
    obtain ⟨w, hw⟩ := Option.isSome_iff_exists.1 hc
    by_cases hk : k = k'
    · subst hk
      simp [hw]
    · simp [hk]
  · rw [if_neg hc, get?_insert]
    by_cases hk : k = k'
    · subst hk
      have : m.get? k = none := by simpa [contains] using hc
      simp [this]
    · simp [hk]

end OrderedMap

end DebugLayout
