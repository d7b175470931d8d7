import DebugLayout.ArrayShape

/-!
# DebugLayout — arrays of arrays as one array

The elements of an array of arrays lie where those of a single array of all the dimensions do,
provided that the inner arrays lie without gaps: a position in the single array is one in the outer
array followed by one in the inner array, and their row-major indices, brackets and counts combine.

The lemmas about positions go by induction over the dimensions of the outer array, along which a
position is cut in two. What a shape is made from may be any numbers, so that it is said once which
of them make none.

* `ArrayShape.nest`: the shape of the single array;
* `map_rowMajor_positionsOf`: positions in storage order have the indices 0, 1, 2 and so on;
* `indexOf_of_mem`: which are those of the elements;
* `positionsOf_append`, `rowMajor_append`, `countOf_append`, `brackets_append`: its parts;
* `ArrayShape.ofInts_eq_ok`, `ofInts_append`: shapes from unchecked numbers.
-/

namespace DebugLayout

namespace ArrayShape

variable {ds es p q : List Nat}

/-- The shape of an array of arrays taken as one array. -/
def nest (outer inner : ArrayShape) : ArrayShape :=
  ⟨outer.dims ++ inner.dims, inner.stride, by simp [outer.dims_ne_nil]⟩

theorem countOf_append (ds es : List Nat) : countOf (ds ++ es) = countOf ds * countOf es := by
  induction ds with
  | nil => simp [countOf]
  | cons d ds ih => rw [List.cons_append, countOf, countOf, ih, Nat.mul_assoc]

/-- The positions of two runs of dimensions are pairs of positions, the second running faster. -/
theorem positionsOf_append (ds es : List Nat) :
    positionsOf (ds ++ es) = (positionsOf ds).flatMap fun p => (positionsOf es).map (p ++ ·) := by
  induction ds with
  | nil => simp [positionsOf]
  | cons d ds ih =>
    rw [List.cons_append, positionsOf, positionsOf, ih, List.flatMap_assoc]
    simp only [List.map_flatMap, List.flatMap_map, List.map_map, Function.comp_def,
      List.cons_append]

theorem length_of_mem_positionsOf (h : p ∈ positionsOf ds) : p.length = ds.length := by
  induction ds generalizing p with
  | nil => simpa [positionsOf] using h
  | cons d ds ih =>
    rw [positionsOf, List.mem_flatMap] at h
    obtain ⟨i, -, h⟩ := h
    obtain ⟨rest, hrest, rfl⟩ := List.mem_map.1 h
    rw [List.length_cons, List.length_cons, ih hrest]

/-- There are no positions exactly if some dimension is zero. -/
theorem positionsOf_eq_nil : positionsOf ds = [] ↔ 0 ∈ ds := by
  induction ds with
  | nil => simp [positionsOf]
  | cons d ds ih =>
    rw [positionsOf, List.flatMap_eq_nil_iff, List.mem_cons, ← ih]
    constructor
    · intro h
      -- with a first index there is one position at least, unless a later dimension has none
      by_cases hd : d = 0
      · exact .inl hd.symm
      · exact .inr (List.map_eq_nil_iff.1 (h 0 (List.mem_range.2 (by omega))))
    · rintro (rfl | h) i hi
      · simp at hi
      · rw [h]
        rfl

/-- The index of a pair of positions counts the blocks before it and then the places in its
block. -/
theorem rowMajor_append (h : p.length = ds.length) :
    rowMajor (ds ++ es) (p ++ q) = rowMajor ds p * countOf es + rowMajor es q := by
  induction ds generalizing p with
  | nil =>
    rw [List.length_eq_zero_iff.1 h]
    simp [rowMajor]
  | cons d ds ih =>
    cases p with
    | nil => simp at h
    | cons i p =>
      have h : p.length = ds.length := by simpa using h
      -- the indices of the inner array count single elements, those of the outer one whole inner
      -- arrays
      rw [List.cons_append, List.cons_append, rowMajor, rowMajor, ih h, countOf_append,
        Nat.add_mul, Nat.mul_assoc, Nat.add_assoc]

theorem range_flatMap_add (m n : Nat) :
    ((List.range m).flatMap fun i => (List.range n).map (i * n + ·)) = List.range (m * n) := by
  induction m with
  | zero => simp
  | succ m ih =>
    rw [List.range_succ, List.flatMap_append, ih, List.flatMap_singleton, Nat.succ_mul,
      List.range_add]

/-- In storage order, the row-major indices of the positions count from zero. -/
theorem map_rowMajor_positionsOf (ds : List Nat) :
    (positionsOf ds).map (rowMajor ds) = List.range (countOf ds) := by
  induction ds with
  | nil => rfl
  | cons d ds ih =>
    have hrow : ∀ i, ((positionsOf ds).map (i :: ·)).map (rowMajor (d :: ds)) =
        (List.range (countOf ds)).map (i * countOf ds + ·) := by
      intro i
      rw [← ih, List.map_map, List.map_map]
      rfl
    rw [positionsOf, List.map_flatMap, countOf, ← range_flatMap_add]
    simp only [hrow]

/-- The index of a position is smaller than the number of elements. -/
theorem rowMajor_lt (h : p ∈ positionsOf ds) : rowMajor ds p < countOf ds := by
  rw [← List.mem_range, ← map_rowMajor_positionsOf]
  exact List.mem_map_of_mem h

/-- The positions come in the order of their indices. -/
theorem pairwise_rowMajor (ds : List Nat) :
    (positionsOf ds).Pairwise fun p q => rowMajor ds p < rowMajor ds q := by
  have h : ((positionsOf ds).map (rowMajor ds)).Pairwise (· < ·) := by
    rw [map_rowMajor_positionsOf]
    exact List.pairwise_lt_range
  exact List.pairwise_map.1 h

/-- There are as many positions as elements. -/
theorem length_positionsOf (ds : List Nat) : (positionsOf ds).length = countOf ds := by
  have h := congrArg List.length (map_rowMajor_positionsOf ds)
  rwa [List.length_map, List.length_range] at h

/-- The position at a place has that place as its index. -/
theorem rowMajor_getElem {i : Nat} (h : i < (positionsOf ds).length) :
    rowMajor ds (positionsOf ds)[i] = i := by
  have hrange : ((positionsOf ds).map (rowMajor ds))[i]? = some i := by
    rw [map_rowMajor_positionsOf, List.getElem?_range]
    rwa [← length_positionsOf]
  rw [List.getElem?_map, List.getElem?_eq_getElem h] at hrange
  exact Option.some.inj hrange

/-- The positions of a shape are within its bounds. -/
theorem inBounds_of_mem (h : p ∈ positionsOf ds) : inBounds ds (p.map Int.ofNat) = true := by
  induction ds generalizing p with
  | nil =>
    rw [positionsOf, List.mem_singleton] at h
    subst h
    rfl
  | cons d ds ih =>
    rw [positionsOf, List.mem_flatMap] at h
    obtain ⟨i, hi, h⟩ := h
    obtain ⟨rest, hrest, rfl⟩ := List.mem_map.1 h
    have hlt : i < d := List.mem_range.1 hi
    rw [List.map_cons, inBounds, ih hrest]
    simpa using hlt

/-- The element at a position has its row-major index. -/
theorem indexOf_of_mem {s : ArrayShape} (h : p ∈ s.positions) :
    s.indexOf (p.map Int.ofNat) = .ok (rowMajor s.dims p) := by
  have hlength : (p.map Int.ofNat).length = s.dims.length := by
    rw [List.length_map]
    exact length_of_mem_positionsOf h
  have hback : (p.map Int.ofNat).map Int.toNat = p := by
    rw [List.map_map]
    exact List.map_id p
  rw [indexOf, if_neg (Decidable.not_not.2 hlength), inBounds_of_mem h, hback]
  rfl

/-- No index of an element exceeds the number of elements. -/
theorem lt_countOf_of_mem (h : p ∈ positionsOf ds) {i : Nat} (hi : i ∈ p) : i < countOf ds := by
  induction ds generalizing p with
  | nil =>
    rw [positionsOf, List.mem_singleton] at h
    subst h
    simp at hi
  | cons d ds ih =>
    rw [positionsOf, List.mem_flatMap] at h
    obtain ⟨j, hj, h⟩ := h
    obtain ⟨rest, hrest, rfl⟩ := List.mem_map.1 h
    have hlt : j < d := List.mem_range.1 hj
    -- no dimension is empty, as the position itself shows
    have hpos : 0 < countOf ds := Nat.zero_lt_of_lt (rowMajor_lt hrest)
    rw [countOf]
    rcases List.mem_cons.1 hi with rfl | hi
    · exact Nat.lt_of_lt_of_le hlt (Nat.le_mul_of_pos_right d hpos)
    · exact Nat.lt_of_lt_of_le (ih hrest hi) (Nat.le_mul_of_pos_left _ (Nat.zero_lt_of_lt hlt))

theorem brackets_append (p q : List Nat) : brackets (p ++ q) = brackets p ++ brackets q := by
  rw [brackets, List.map_append, String.join_append]
  rfl

-- ---------------------------------------------------------------------------
-- Unchecked numbers
-- ---------------------------------------------------------------------------

/-- A shape is made of at least one dimension and a stride, none of them negative. -/
theorem ofInts_eq_ok {dims : List Int} {stride : Int} {shape : ArrayShape} :
    ofInts dims stride = .ok shape ↔
      dims ≠ [] ∧ (∀ d ∈ dims, 0 ≤ d) ∧ 0 ≤ stride ∧ shape.dims = dims.map Int.toNat ∧
        shape.stride = stride.toNat := by
  cases dims with
  | nil => simp [ofInts]
  | cons d ds =>
    rw [ofInts]
    cases hbad : (d :: ds).find? (· < 0) with
    | some bad =>
      -- the first negative dimension is refused
      have hmem := List.mem_of_find?_eq_some hbad
      have hneg : bad < 0 := by simpa using List.find?_some hbad
      refine iff_of_false (by simp) ?_
      rintro ⟨-, hpos, -⟩
      have := hpos bad hmem
      omega
    | none =>
      have hpos : ∀ d' ∈ d :: ds, 0 ≤ d' := fun d' hd' => by
        simpa using List.find?_eq_none.1 hbad d' hd'
      by_cases hstride : stride < 0
      · simp only [if_pos hstride]
        refine iff_of_false (by simp) ?_
        rintro ⟨-, -, hle, -⟩
        omega
      · -- all numbers are natural ones
        simp only [if_neg hstride, Except.ok.injEq]
        constructor
        · rintro rfl
          exact ⟨by simp, hpos, by omega, rfl, rfl⟩
        · rintro ⟨-, -, -, hdims, hstride'⟩
          obtain ⟨dims, stride', hne⟩ := shape
          simp only at hdims hstride'
          subst hdims hstride'
          rfl

/-- A shape is refused for want of a dimension or for a negative number. -/
theorem ofInts_eq_error {dims : List Int} {stride : Int} {fault : ShapeFault}
    (h : ofInts dims stride = .error fault) : dims = [] ∨ (∃ d ∈ dims, d < 0) ∨ stride < 0 := by
  cases dims with
  | nil => exact .inl rfl
  | cons d ds =>
    rw [ofInts] at h
    split at h
    · rename_i bad hbad
      have hneg : bad < 0 := by simpa using List.find?_some hbad
      exact .inr (.inl ⟨bad, List.mem_of_find?_eq_some hbad, hneg⟩)
    · split at h
      · rename_i hneg
        exact .inr (.inr hneg)
      · exact absurd h (by simp)

/-- Numbers make no shape if there is no dimension, or if one or the stride is negative. -/
theorem exists_ofInts_eq_error_iff {dims : List Int} {stride : Int} :
    (∃ fault, ofInts dims stride = .error fault) ↔
      dims = [] ∨ (∃ d ∈ dims, d < 0) ∨ stride < 0 := by
  refine ⟨fun ⟨_, h⟩ => ofInts_eq_error h, fun hbad => ?_⟩
  cases h : ofInts dims stride with
  | error fault => exact ⟨fault, rfl⟩
  | ok shape =>
    obtain ⟨hne, hpos, hle, -, -⟩ := ofInts_eq_ok.1 h
    rcases hbad with hnil | ⟨d, hd, hneg⟩ | hneg
    · exact absurd hnil hne
    · exact absurd (hpos d hd) (by omega)
    · omega

/-- A shape has no positions if one of its dimensions is zero. -/
theorem positions_eq_nil {dims : List Int} {stride : Int} {shape : ArrayShape}
    (h : ofInts dims stride = .ok shape) : shape.positions = [] ↔ 0 ∈ dims := by
  obtain ⟨-, hpos, -, hdims, -⟩ := ofInts_eq_ok.1 h
  rw [positions, positionsOf_eq_nil, hdims, List.mem_map]
  constructor
  · rintro ⟨d, hd, hzero⟩
    have hd0 : d = 0 := by
      have := hpos d hd
      omega
    rwa [← hd0]
  · intro hmem
    exact ⟨0, hmem, rfl⟩

/-- Numbers that make an outer and an inner shape also make the shape of the single array. -/
theorem ofInts_append {dims dims' : List Int} {stride stride' : Int} {outer inner : ArrayShape}
    (h : ofInts dims stride = .ok outer) (h' : ofInts dims' stride' = .ok inner) :
    ofInts (dims ++ dims') stride' = .ok (outer.nest inner) := by
  obtain ⟨hne, hpos, -, hdims, -⟩ := ofInts_eq_ok.1 h
  obtain ⟨-, hpos', hstride', hdims', hs'⟩ := ofInts_eq_ok.1 h'
  refine ofInts_eq_ok.2 ⟨by simp [hne], fun d hd => ?_, hstride', ?_, hs'⟩
  · rcases List.mem_append.1 hd with hd | hd
    · exact hpos d hd
    · exact hpos' d hd
  · show outer.dims ++ inner.dims = _
    rw [List.map_append, hdims, hdims']

end ArrayShape

end DebugLayout
