import DebugLayout.Proofs.Scalar.Bits
import DebugLayout.TypeGraph.Bitfield
import Mathlib.Algebra.Order.Group.Int
import Mathlib.Tactic.Linarith
import Mathlib.Tactic.Ring

/-!
# DebugLayout — bitfields are read where they are said to be

A bitfield **designates** bits of memory. A distance from the beginning of the composite counts bits
of memory in the order of the target, over all storage units; a distance from the most significant
bit of the unit counts bits of the number in the one unit at the member's own offset. A place in a
unit is given exactly if all of these bits lie in one unit, and decoding the field there gives the
number that they make.

* `FieldPosition.FitsUnit`: all the designated bits lie in one storage unit;
* `FieldPosition.designated`: the number that they make;
* `fitsUnit_iff`: a place is within its unit exactly if the bits fit;
* `bitsValue_place`: the bits at a place are the designated ones;
* `Entry.fieldPlace_designates`: both for the place of a member and its decoding.
-/

namespace DebugLayout

namespace FieldPosition

/-- All the bits that a position designates lie in one storage unit of the given bytes: in the one
at the byte offset, or in a later one where the distance counts from the beginning of the
composite. -/
def FitsUnit (unitSize : Nat) (byteOffset size : Int) : FieldPosition → Prop
  | fromUnitMsb bits => 0 ≤ bits ∧ bits + size ≤ unitSize * 8
  | fromCompositeStart bits =>
    ∃ q : Nat, 8 * (byteOffset + q * unitSize) ≤ 8 * byteOffset + bits ∧
      8 * byteOffset + bits + size ≤ 8 * (byteOffset + (q + 1) * unitSize)

/-- The number that the designated bits make. The bits of memory come in the order of the target,
which also says whether the first one is the least or the most significant; those that are counted
from the most significant bit of the unit begin with the most significant one. -/
def designated (order : Endianness) (memory : Int → UInt8) (unitSize : Nat) (byteOffset : Int)
    (size : Nat) : FieldPosition → Nat
  | fromUnitMsb bits =>
    let unit := unsignedValue order (bytesAt memory byteOffset unitSize)
    bitsValue ((List.range size).map fun i =>
      unit.testBit (unitSize * 8 - 1 - (bits.toNat + i))).reverse
  | fromCompositeStart bits =>
    let field := (List.range size).map fun i : Nat =>
      memoryBit order memory (8 * byteOffset + bits + i)
    match order with
    | .little => bitsValue field
    | .big => bitsValue field.reverse

variable {order : Endianness} {unitSize : Nat} {byteOffset size : Int}

-- ------------------------------------------------------------------------------------------------
-- Places
-- ------------------------------------------------------------------------------------------------

/-- A distance from the beginning of the composite leads to the unit that its quotient by the bits
of a unit gives. -/
theorem place_fromCompositeStart (bits : Nat) :
    (fromCompositeStart bits).place order unitSize byteOffset size =
      (byteOffset + (bits / (unitSize * 8) : Nat) * unitSize,
        match order with
        | .little => (bits % (unitSize * 8) : Nat)
        | .big => unitSize * 8 - (bits % (unitSize * 8) : Nat) - size) := by
  -- a bitfield that starts later than in the first unit is moved to the unit that it starts in
  by_cases hlater : unitSize * 8 ≤ bits
  · have hle : (unitSize : Int) * 8 ≤ bits := by exact_mod_cast hlater
    have hquot : (bits : Int).fdiv (unitSize * 8) = (bits / (unitSize * 8) : Nat) := by
      rw [Int.fdiv_eq_ediv_of_nonneg _ (by omega)]
      push_cast
      rfl
    have hrem : (bits : Int).fmod (unitSize * 8) = (bits % (unitSize * 8) : Nat) := by
      rw [Int.fmod_eq_emod_of_nonneg _ (by omega)]
      push_cast
      rfl
    cases order <;> simp only [place, if_pos hle, hquot, hrem]
  · have hlt : ¬(unitSize : Int) * 8 ≤ bits := by exact_mod_cast hlater
    have hquot : bits / (unitSize * 8) = 0 := Nat.div_eq_of_lt (by omega)
    have hrem : bits % (unitSize * 8) = bits := Nat.mod_eq_of_lt (by omega)
    cases order <;> simp [place, if_neg hlt, hquot, hrem]

/-- A distance before the beginning of the composite leads outside the unit. -/
theorem not_within_of_neg {bits : Int} (hbits : bits < 0) :
    ¬(0 ≤ ((fromCompositeStart bits).place order unitSize byteOffset size).2 ∧
      ((fromCompositeStart bits).place order unitSize byteOffset size).2 + size ≤
        unitSize * 8) := by
  have hlt : ¬(unitSize : Int) * 8 ≤ bits := by omega
  cases order <;> simp only [place, if_neg hlt] <;> omega

/-- Some bits from a distance on lie in one unit exactly if they do so from its remainder on. -/
theorem exists_unit_iff {unitBits bits width : Nat} (hwidth : 1 ≤ width) :
    (∃ q : Nat, q * unitBits ≤ bits ∧ bits + width ≤ (q + 1) * unitBits) ↔
      bits % unitBits + width ≤ unitBits := by
  have hdiv := Nat.div_add_mod' bits unitBits
  constructor
  · rintro ⟨q, hstart, hend⟩
    have hq : bits / unitBits = q := Nat.div_eq_of_lt_le hstart (by omega)
    rw [hq] at hdiv
    rw [Nat.add_mul, Nat.one_mul] at hend
    omega
  · intro hfit
    refine ⟨bits / unitBits, Nat.div_mul_le_self _ _, ?_⟩
    rw [Nat.add_mul, Nat.one_mul]
    omega

/-- The place of a field is within its unit exactly if the designated bits fit. -/
theorem fitsUnit_iff (order : Endianness) (hunit : 0 < unitSize) (hsize : 1 ≤ size)
    (position : FieldPosition) :
    position.FitsUnit unitSize byteOffset size ↔
      0 ≤ (position.place order unitSize byteOffset size).2 ∧
        (position.place order unitSize byteOffset size).2 + size ≤ unitSize * 8 := by
  cases position with
  | fromUnitMsb bits =>
    simp only [FitsUnit, place]
    omega
  | fromCompositeStart bits =>
    by_cases hbits : bits < 0
    · -- no unit of the composite starts before the composite
      refine iff_of_false ?_ (not_within_of_neg hbits)
      rintro ⟨q, hstart, -⟩
      have hq : (0 : Int) ≤ q * unitSize := by positivity
      omega
    · obtain ⟨n, rfl⟩ := Int.eq_ofNat_of_zero_le (by omega : 0 ≤ bits)
      obtain ⟨width, rfl⟩ := Int.eq_ofNat_of_zero_le (by omega : 0 ≤ size)
      have hunitBits : 0 < unitSize * 8 := by omega
      have hrem := Nat.mod_lt n hunitBits
      -- a unit is the one that holds the field if its bits start before it and end after it
      have hone : ∀ q : Nat, (8 * (byteOffset + q * unitSize) ≤ 8 * byteOffset + n ∧
          8 * byteOffset + n + width ≤ 8 * (byteOffset + (q + 1) * unitSize)) ↔
          q * (unitSize * 8) ≤ n ∧ n + width ≤ (q + 1) * (unitSize * 8) := by
        intro q
        zify
        constructor <;> rintro ⟨hstart, hend⟩ <;> constructor <;> linarith
      have hwidth : 1 ≤ width := by omega
      simp only [FitsUnit, hone]
      rw [exists_unit_iff hwidth, place_fromCompositeStart]
      cases order <;> dsimp only <;> omega

-- ------------------------------------------------------------------------------------------------
-- Bits
-- ------------------------------------------------------------------------------------------------

/-- The bits of memory that come after the start of a composite are those of the storage unit that
holds them, counted from the start of that unit. -/
theorem memoryBit_place (memory : Int → UInt8) {n i : Nat}
    (hi : n % (unitSize * 8) + i < unitSize * 8) :
    memoryBit order memory (8 * byteOffset + (n : Int) + (i : Nat)) =
      (unsignedValue order (bytesAt memory
        (byteOffset + (n / (unitSize * 8) : Nat) * unitSize) unitSize)).testBit
        (order.significance (unitSize * 8) (n % (unitSize * 8) + i)) := by
  rw [testBit_unsignedValue_bytesAt _ _ _ hi]
  congr 1
  have hdiv := Nat.div_add_mod' n (unitSize * 8)
  zify at hdiv
  push_cast
  linarith

/-- The bits at a place within its unit make the number that the position designates. -/
theorem bitsValue_place (memory : Int → UInt8) {width start : Nat} {unit : Int}
    {position : FieldPosition}
    (hplace : position.place order unitSize byteOffset width = (unit, (start : Int)))
    (hfit : start + width ≤ unitSize * 8) :
    bitsValue ((List.range width).map fun i =>
        (unsignedValue order (bytesAt memory unit unitSize)).testBit (start + i)) =
      position.designated order memory unitSize byteOffset width := by
  cases position with
  | fromUnitMsb bits =>
    simp only [place, Prod.mk.injEq] at hplace
    obtain ⟨rfl, hstart⟩ := hplace
    rw [← reverse_map_testBit, designated]
    congr 2
    refine List.map_congr_left fun i hi => ?_
    -- counted from the most significant bit, the first bit of the field is its highest
    have hlt : i < width := List.mem_range.1 hi
    congr 1
    omega
  | fromCompositeStart bits =>
    by_cases hbits : bits < 0
    · -- a bitfield before the composite would not fit
      have hout : ¬(0 ≤ ((fromCompositeStart bits).place order unitSize byteOffset width).2 ∧
          ((fromCompositeStart bits).place order unitSize byteOffset width).2 + width ≤
            unitSize * 8) := not_within_of_neg hbits
      rw [hplace] at hout
      dsimp only at hout
      omega
    · obtain ⟨n, rfl⟩ := Int.eq_ofNat_of_zero_le (by omega : 0 ≤ bits)
      rw [place_fromCompositeStart, Prod.mk.injEq] at hplace
      obtain ⟨rfl, hstart⟩ := hplace
      cases order with
      | little =>
        have hfirst : start = n % (unitSize * 8) := by
          dsimp only at hstart
          omega
        simp only [designated]
        congr 1
        refine List.map_congr_left fun i hi => ?_
        have hlt : i < width := List.mem_range.1 hi
        have hinside : n % (unitSize * 8) + i < unitSize * 8 := by omega
        rw [memoryBit_place memory hinside, hfirst]
        rfl
      | big =>
        -- in this order the first bit of the field is its most significant one
        rw [← reverse_map_testBit]
        simp only [designated]
        congr 2
        refine List.map_congr_left fun i hi => ?_
        have hlt : i < width := List.mem_range.1 hi
        dsimp only at hstart
        have hinside : n % (unitSize * 8) + i < unitSize * 8 := by omega
        rw [memoryBit_place memory hinside, Endianness.significance]
        congr 1
        omega

end FieldPosition

-- ------------------------------------------------------------------------------------------------
-- Members
-- ------------------------------------------------------------------------------------------------

namespace Entry

variable {e : Entry} {order : Endianness} {unitSize : Nat} {byteOffset size : Int}
  {position : FieldPosition} {place : Int × Int}

/-- A bitfield is accepted at a place exactly if the place is what its attributes say and the bits
lie within the storage unit. -/
theorem fieldPlace_eq_ok (hunit : 0 < unitSize) (hposition : e.fieldPosition = .ok position) :
    e.fieldPlace order (some unitSize) byteOffset size = .ok place ↔
      position.place order unitSize byteOffset size = place ∧
        1 ≤ size ∧ 0 ≤ place.2 ∧ place.2 + size ≤ unitSize * 8 := by
  -- a unit without bytes is refused before anything else
  have hstep : e.fieldPlace order (some unitSize) byteOffset size =
      let place := position.place order unitSize byteOffset size
      if place.2 < 0 ∨ size ≤ 0 ∨ unitSize * 8 < place.2 + size then
        .error (.fieldOutsideUnit e.label unitSize place.2 size)
      else .ok place := by
    obtain ⟨n, rfl⟩ := Nat.exists_eq_succ_of_ne_zero (by omega : unitSize ≠ 0)
    simp only [fieldPlace, hposition]
  rw [hstep]
  dsimp only
  split
  next hout =>
    refine iff_of_false (by simp) ?_
    rintro ⟨rfl, hsize, hstart, hend⟩
    omega
  next hin =>
    rw [Except.ok.injEq]
    constructor
    · rintro rfl
      exact ⟨rfl, by omega, by omega, by omega⟩
    · exact And.left

/-- A bitfield of a storage unit of one, two, four or eight bytes has a place exactly if it has a
bit and all the designated bits lie in one unit; what is decoded there, for any contents of memory,
is the number that these bits make. -/
theorem fieldPlace_designates {w : Width} (hw : w.bytes ≤ 8)
    (hposition : e.fieldPosition = .ok position) :
    ((∃ place, e.fieldPlace order (some w.bytes) byteOffset size = .ok place) ↔
      1 ≤ size ∧ position.FitsUnit w.bytes byteOffset size) ∧
    ∀ (memory : Int → UInt8) (unit start : Int),
      e.fieldPlace order (some w.bytes) byteOffset size = .ok (unit, start) →
        decodeScalar (bytesAt memory unit w.bytes) (.unsigned w) order (some start) (some size) =
          .ok (.int (position.designated order memory w.bytes byteOffset size.toNat : Nat)) := by
  have hunit := w.bytes_pos
  constructor
  · constructor
    · rintro ⟨place, hplace⟩
      obtain ⟨rfl, hsize, hwithin⟩ := (fieldPlace_eq_ok hunit hposition).1 hplace
      exact ⟨hsize, (FieldPosition.fitsUnit_iff order hunit hsize position).2 hwithin⟩
    · rintro ⟨hsize, hfits⟩
      have hwithin := (FieldPosition.fitsUnit_iff order hunit hsize position).1 hfits
      exact ⟨_, (fieldPlace_eq_ok hunit hposition).2 ⟨rfl, hsize, hwithin⟩⟩
  · intro memory unit start hplace
    obtain ⟨hat, hsize, hstart, hend⟩ := (fieldPlace_eq_ok hunit hposition).1 hplace
    -- a place that was accepted is one of natural numbers
    obtain ⟨k, rfl⟩ := Int.eq_ofNat_of_zero_le hstart
    obtain ⟨width, rfl⟩ := Int.eq_ofNat_of_zero_le (by omega : 0 ≤ size)
    dsimp only at hend
    have hfit : k + width ≤ w.bytes * 8 := by omega
    have hdecoded := decodeScalar_field order hw (length_bytesAt memory unit w.bytes)
      (by omega : 1 ≤ width) hfit
    rw [FieldPosition.bitsValue_place memory hat hfit] at hdecoded
    exact hdecoded

/-- A bitfield that begins 21 bits after the beginning of its composite. -/
def lateField : Entry :=
  .node 3 Tag.member (.ofList [(Attr.name, .text "gear"), (Attr.dataBitOffset, .int 21)]) []

/-- Its five bits lie in the second unit of two bytes from the member's own offset on. -/
theorem fieldPlace_designates_lateField :
    (FieldPosition.fromCompositeStart 21).FitsUnit Width.w16.bytes 4 5 ∧
    lateField.fieldPlace .big (some Width.w16.bytes) 4 5 = .ok (6, 6) ∧
    ∀ memory : Int → UInt8,
      decodeScalar (bytesAt memory 6 Width.w16.bytes) (.unsigned .w16) .big (some 6) (some 5) =
        .ok (.int ((FieldPosition.fromCompositeStart 21).designated .big memory Width.w16.bytes 4
          5 : Nat)) := by
  have hplace : lateField.fieldPlace .big (some Width.w16.bytes) 4 5 = .ok (6, 6) := by decide
  have hposition : lateField.fieldPosition = .ok (.fromCompositeStart 21) := rfl
  have haccepted := (fieldPlace_designates (w := .w16) (by decide) hposition).1.1 ⟨_, hplace⟩
  exact ⟨haccepted.2, hplace, fun memory =>
    (fieldPlace_designates (w := .w16) (by decide) hposition).2 memory 6 6 hplace⟩

end Entry

end DebugLayout
