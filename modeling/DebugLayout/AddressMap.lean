/-!
# DebugLayout — maps sorted by address

An **address map** keeps its entries by strictly increasing address, and answers which entry is
the nearest one at or below an address. Symbols, memory segments and regions are indexed this way.

* `AddressMap.insert`, `get?`: the operations;
* `AddressMap.upTo`: the entries at or below an address, the nearest first;
* `AddressMap.Sorted`, `sorted_insert`: the order that insertion keeps;
* `AddressMap.get?_insert`, `Sorted.mem_insert_iff`: what insertion does to a look-up and to the
  entries;
* `AddressMap.floor?_eq_some`, `Sorted.le_floor?`: where the nearest entry lies.
-/

namespace DebugLayout

/-- A map from addresses to values, listed by increasing address. -/
structure AddressMap (α : Type) where
  entries : List (Int × α)
  deriving DecidableEq, Repr

namespace AddressMap

variable {α : Type}

/-- The map without entries. -/
def empty : AddressMap α := ⟨[]⟩

/-- Puts an entry in its place in a sorted list, in place of one at the same address. -/
def insertIn (a : Int) (v : α) : List (Int × α) → List (Int × α)
  | [] => [(a, v)]
  | (b, w) :: rest =>
    if a < b then (a, v) :: (b, w) :: rest
    else if a = b then (a, v) :: rest
    else (b, w) :: insertIn a v rest

/-- Gives an address a value. -/
def insert (m : AddressMap α) (a : Int) (v : α) : AddressMap α := ⟨insertIn a v m.entries⟩

/-- The value at an address. -/
def get? (m : AddressMap α) (a : Int) : Option α := (m.entries.find? (·.1 = a)).map (·.2)

/-- Whether an address has a value. -/
def contains (m : AddressMap α) (a : Int) : Bool := (m.get? a).isSome

/-- The entries at or below an address, the nearest first. -/
def upTo (m : AddressMap α) (a : Int) : List (Int × α) :=
  (m.entries.takeWhile (·.1 ≤ a)).reverse

/-- The entries below an address, the nearest first. -/
def below (m : AddressMap α) (a : Int) : List (Int × α) :=
  (m.entries.takeWhile (·.1 < a)).reverse

/-- The nearest entry at or below an address. -/
def floor? (m : AddressMap α) (a : Int) : Option (Int × α) := (m.upTo a).head?

/-- The number of entries. -/
def size (m : AddressMap α) : Nat := m.entries.length

/-- The entries are listed by strictly increasing address. -/
def Sorted (m : AddressMap α) : Prop := m.entries.Pairwise (·.1 < ·.1)

theorem sorted_empty : (empty : AddressMap α).Sorted := List.Pairwise.nil

/-- What is listed after an insertion is the new entry or was listed before. -/
theorem mem_insertIn {a : Int} {v : α} {e : Int × α} {es : List (Int × α)}
    (h : e ∈ insertIn a v es) : e = (a, v) ∨ e ∈ es := by
  induction es with
  | nil => simpa [insertIn] using h
  | cons hd tl ih =>
    obtain ⟨b, w⟩ := hd
    rw [insertIn] at h
    split at h
    · simpa using h
    · split at h
      · -- the address was taken, and its value makes room
        rcases List.mem_cons.1 h with h | h
        · exact .inl h
        · exact .inr (List.mem_cons_of_mem _ h)
      · rcases List.mem_cons.1 h with h | h
        · exact .inr (h ▸ List.mem_cons_self)
        · rcases ih h with h | h
          · exact .inl h
          · exact .inr (List.mem_cons_of_mem _ h)

/-- Insertion keeps the order. -/
theorem sorted_insert {m : AddressMap α} (h : m.Sorted) (a : Int) (v : α) :
    (m.insert a v).Sorted := by
  unfold Sorted insert at *
  induction hm : m.entries generalizing m with
  | nil => simp [insertIn]
  | cons hd tl ih =>
    obtain ⟨b, w⟩ := hd
    rw [hm] at h
    obtain ⟨hb, htl⟩ := List.pairwise_cons.1 h
    rw [insertIn]
    split
    · -- the new address is the lowest, in the place of an old one, or further up
      rename_i hab
      refine List.pairwise_cons.2 ⟨fun e he => ?_, h⟩
      rcases List.mem_cons.1 he with rfl | he
      · exact hab
      · exact Int.lt_trans hab (hb e he)
    · split
      · rename_i hab
        subst hab
        exact List.pairwise_cons.2 ⟨hb, htl⟩
      · rename_i hle hne
        refine List.pairwise_cons.2 ⟨fun e he => ?_, ih (m := ⟨tl⟩) htl rfl⟩
        rcases mem_insertIn he with rfl | he
        · show b < a
          omega
        · exact hb e he

-- ---------------------------------------------------------------------------
-- Look-ups
-- ---------------------------------------------------------------------------

/-- An address that was given a value has it, and no other address is affected. -/
theorem get?_insert (m : AddressMap α) (a b : Int) (v : α) :
    (m.insert a v).get? b = if a = b then some v else m.get? b := by
  unfold get? insert
  induction m.entries with
  | nil => by_cases hab : a = b <;> simp [insertIn, hab]
  | cons e es ih =>
    obtain ⟨c, w⟩ := e
    rw [insertIn]
    by_cases hac : a < c
    · rw [if_pos hac, List.find?_cons]
      by_cases hab : a = b <;> simp [hab]
    · rw [if_neg hac]
      by_cases hc : a = c
      · subst hc
        by_cases hab : a = b <;> simp [hab]
      · -- an entry below the new address is met first in both maps
        rw [if_neg hc, List.find?_cons, List.find?_cons]
        by_cases hcb : c = b
        · subst hcb
          simp [hc]
        · simpa [hcb] using ih

theorem mem_of_get? {m : AddressMap α} {a : Int} {v : α} (h : m.get? a = some v) :
    (a, v) ∈ m.entries := by
  obtain ⟨⟨b, w⟩, hfind, rfl⟩ := Option.map_eq_some_iff.1 h
  have hb : b = a := by simpa using List.find?_some hfind
  subst hb
  exact List.mem_of_find?_eq_some hfind

/-- The look-up of a sorted map finds exactly its entries. -/
theorem Sorted.mem_entries_iff {m : AddressMap α} (h : m.Sorted) {a : Int} {v : α} :
    (a, v) ∈ m.entries ↔ m.get? a = some v := by
  refine ⟨fun hmem => ?_, mem_of_get?⟩
  unfold get? Sorted at *
  induction hm : m.entries generalizing m with
  | nil => simp [hm] at hmem
  | cons e es ih =>
    obtain ⟨b, w⟩ := e
    rw [hm] at h hmem
    obtain ⟨hb, hes⟩ := List.pairwise_cons.1 h
    rcases List.mem_cons.1 hmem with heq | hmem
    · obtain ⟨rfl, rfl⟩ := Prod.mk.inj heq
      simp
    · -- the addresses ascend, so that none before the entry is its own
      have hne : b ≠ a := Int.ne_of_lt (hb _ hmem)
      rw [List.find?_cons_of_neg (by simpa using hne)]
      exact ih (m := ⟨es⟩) hes hmem rfl

/-- The entries of a sorted map after an insertion. -/
theorem Sorted.mem_insert_iff {m : AddressMap α} (h : m.Sorted) {a : Int} {v : α} {e : Int × α} :
    e ∈ (m.insert a v).entries ↔ e = (a, v) ∨ e ∈ m.entries ∧ e.1 ≠ a := by
  obtain ⟨b, w⟩ := e
  rw [(sorted_insert h a v).mem_entries_iff, h.mem_entries_iff, get?_insert]
  by_cases hab : a = b
  · subst hab
    simp [eq_comm]
  · simp [hab, Ne.symm hab]

/-- What is below an address is what is at or below the one before it. -/
theorem below_eq_upTo (m : AddressMap α) (a : Int) : m.below a = m.upTo (a - 1) := by
  simp only [below, upTo, Int.le_sub_one_iff]

/-- What is at or below an address is an entry there. -/
theorem mem_upTo {m : AddressMap α} {a : Int} {e : Int × α} (h : e ∈ m.upTo a) :
    e ∈ m.entries ∧ e.1 ≤ a := by
  rw [upTo, List.mem_reverse] at h
  have hle := List.all_eq_true.1 List.all_takeWhile e h
  exact ⟨(List.takeWhile_sublist _).subset h, by simpa using hle⟩

/-- The entries of a sorted map at or below an address. -/
theorem Sorted.mem_upTo_iff {m : AddressMap α} (h : m.Sorted) {a : Int} {e : Int × α} :
    e ∈ m.upTo a ↔ e ∈ m.entries ∧ e.1 ≤ a := by
  refine ⟨mem_upTo, ?_⟩
  rintro ⟨hmem, hle⟩
  rw [upTo, List.mem_reverse]
  unfold Sorted at h
  induction hm : m.entries generalizing m with
  | nil => simp [hm] at hmem
  | cons b rest ih =>
    rw [hm] at h hmem
    obtain ⟨hb, hrest⟩ := List.pairwise_cons.1 h
    rcases List.mem_cons.1 hmem with rfl | hmem
    · simp [hle]
    · -- what stands before an entry lies below it, and is taken as well
      have hba : b.1 ≤ a := Int.le_trans (Int.le_of_lt (hb e hmem)) hle
      rw [List.takeWhile_cons_of_pos (by simpa using hba)]
      exact List.mem_cons_of_mem _ (ih (m := ⟨rest⟩) hrest hmem rfl)

/-- The nearest entry is an entry at or below the address. -/
theorem floor?_eq_some {m : AddressMap α} {a : Int} {e : Int × α} (h : m.floor? a = some e) :
    e ∈ m.entries ∧ e.1 ≤ a :=
  mem_upTo (List.mem_of_mem_head? h)

/-- An entry of a sorted map at or below an address is not above the nearest one. -/
theorem Sorted.le_floor? {m : AddressMap α} (h : m.Sorted) {a : Int} {e : Int × α}
    (hmem : e ∈ m.entries) (hle : e.1 ≤ a) : ∃ n, m.floor? a = some n ∧ e.1 ≤ n.1 := by
  -- the nearest entry is the first one from above
  have hfall : (m.upTo a).Pairwise (·.1 > ·.1) :=
    List.pairwise_reverse.2 (h.sublist (List.takeWhile_sublist _))
  have hup : e ∈ m.upTo a := h.mem_upTo_iff.2 ⟨hmem, hle⟩
  unfold floor?
  match hl : m.upTo a with
  | [] => simp [hl] at hup
  | n :: lower =>
    rw [hl] at hup hfall
    refine ⟨n, rfl, ?_⟩
    rcases List.mem_cons.1 hup with rfl | hlower
    · exact Int.le_refl _
    · exact Int.le_of_lt ((List.pairwise_cons.1 hfall).1 e hlower)

end AddressMap

end DebugLayout
