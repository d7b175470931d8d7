import DebugLayout.Scalar.Decode
import Mathlib.Data.List.GetD
import Mathlib.Data.Nat.Bitwise

/-!
# DebugLayout — numbers and their bits

A number is known by its bits. The bits of a number in memory are those of its bytes, and cutting
some bits out of a number leaves the number that is made of them. The bytes of a unit of memory are
read here from a **memory image**, which has a byte at every address; its bits are counted in the
order of the target: on a little endian target from the least significant bit of each byte on, on a
big endian target from the most significant one.

* `bitsValue`: the number that bits make, the first one being the least significant;
* `shiftRight_mod_valueCount`: what a shift and a remainder cut out of a number;
* `testBit_littleValue`, `littleValue_lt`: the bits of a number in memory;
* `bytesAt`, `memoryBit`: the bytes and the bits of a memory image;
* `Endianness.significance`, `testBit_unsignedValue_bytesAt`: where in a unit a bit of memory is;
* `decodeScalar_of_takes`: what the decoding of some bits of a unit gives;
* `decodeScalar_field`: what it gives of a field of an unsigned unit.
-/

namespace DebugLayout

-- ------------------------------------------------------------------------------------------------
-- Numbers made of bits
-- ------------------------------------------------------------------------------------------------

/-- The number that bits make, the first one being the least significant. -/
def bitsValue : List Bool → Nat
  | [] => 0
  | b :: bs => b.toNat + 2 * bitsValue bs

/-- The bits of the value of some bits are these. -/
theorem testBit_bitsValue (bits : List Bool) (i : Nat) :
    (bitsValue bits).testBit i = bits.getD i false := by
  induction bits generalizing i with
  | nil => simp [bitsValue]
  | cons b bs ih =>
    have hb : b.toNat < 2 ^ 1 := b.toNat_lt
    have hvalue : bitsValue (b :: bs) = 2 ^ 1 * bitsValue bs + b.toNat := by
      rw [bitsValue, Nat.pow_one, Nat.add_comm]
    rw [hvalue, Nat.testBit_two_pow_mul_add _ hb]
    cases i with
    | zero => cases b <;> simp
    | succ i => simp [ih]

/-- A shift and a remainder cut some bits out of a number. -/
theorem shiftRight_mod_valueCount (value start width : Nat) :
    value >>> start % valueCount width =
      bitsValue ((List.range width).map fun i => value.testBit (start + i)) := by
  refine Nat.eq_of_testBit_eq fun i => ?_
  have hcut : (value >>> start % valueCount width).testBit i =
      (decide (i < width) && value.testBit (start + i)) := by
    rw [← Nat.testBit_shiftRight]
    exact Nat.testBit_mod_two_pow _ _ _
  rw [hcut, testBit_bitsValue]
  -- below the width the bit is that of the value, above it there is none
  by_cases hi : i < width
  · rw [List.getD_eq_getElem _ _ (by simpa using hi)]
    simp [hi]
  · rw [List.getD_eq_default _ _ (by simpa using hi)]
    simp [hi]

/-- The bits that are cut out of a number, the most significant one being the first. -/
theorem reverse_map_testBit (value start width : Nat) :
    ((List.range width).map fun i => value.testBit (start + width - 1 - i)).reverse =
      (List.range width).map fun i => value.testBit (start + i) := by
  refine List.ext_getElem (by simp) fun i hi _ => ?_
  have hwidth : i < width := by simpa using hi
  rw [List.getElem_reverse, List.getElem_map, List.getElem_map, List.getElem_range,
    List.getElem_range, List.length_map, List.length_range]
  congr 1
  omega

-- ------------------------------------------------------------------------------------------------
-- Numbers in memory
-- ------------------------------------------------------------------------------------------------

/-- The bits of a little-endian number are those of its bytes, the first byte lowest. -/
theorem testBit_littleValue (data : List UInt8) (i : Nat) :
    (littleValue data).testBit i = (data.getD (i / 8) 0).toNat.testBit (i % 8) := by
  induction data generalizing i with
  | nil => simp [littleValue]
  | cons b bs ih =>
    have hb : b.toNat < 2 ^ 8 := b.toNat_lt
    have hvalue : littleValue (b :: bs) = 2 ^ 8 * littleValue bs + b.toNat := by
      rw [littleValue, Nat.add_comm]
      rfl
    rw [hvalue, Nat.testBit_two_pow_mul_add _ hb]
    -- a bit of the first byte, or one of those after it
    by_cases hi : i < 8
    · have hfirst : i / 8 = 0 := by omega
      have hrem : i % 8 = i := by omega
      rw [if_pos hi, hfirst, hrem, List.getD_cons_zero]
    · have hlater : i / 8 = (i - 8) / 8 + 1 := by omega
      have hrem : i % 8 = (i - 8) % 8 := by omega
      rw [if_neg hi, ih, hlater, hrem, List.getD_cons_succ]

theorem littleValue_lt (data : List UInt8) : littleValue data < valueCount (data.length * 8) := by
  induction data with
  | nil => exact Nat.one_pos
  | cons b bs ih =>
    have hb : b.toNat < 256 := b.toNat_lt
    have hcount : valueCount ((b :: bs).length * 8) = valueCount (bs.length * 8) * 256 := by
      rw [List.length_cons, Nat.add_mul]
      exact Nat.pow_add 2 (bs.length * 8) 8
    rw [hcount, littleValue]
    omega

/-- Bytes denote a number below the count of their bits in either order. -/
theorem unsignedValue_lt (order : Endianness) (data : List UInt8) :
    unsignedValue order data < valueCount (data.length * 8) := by
  cases order with
  | little => exact littleValue_lt data
  | big => simpa [unsignedValue] using littleValue_lt data.reverse

/-- The bytes from an address on. -/
def bytesAt (memory : Int → UInt8) (start : Int) (count : Nat) : List UInt8 :=
  (List.range count).map fun i : Nat => memory (start + i)

@[simp] theorem length_bytesAt (memory : Int → UInt8) (start : Int) (count : Nat) :
    (bytesAt memory start count).length = count := by
  simp [bytesAt]

theorem getElem_bytesAt {memory : Int → UInt8} {start : Int} {count i : Nat}
    (hi : i < (bytesAt memory start count).length) :
    (bytesAt memory start count)[i] = memory (start + i) := by
  simp [bytesAt]

/-- A bit of memory, the bits being counted over all addresses in the order of the target. -/
def memoryBit (order : Endianness) (memory : Int → UInt8) (place : Int) : Bool :=
  let byte := (memory (place / 8)).toNat
  match order with
  | .little => byte.testBit (place % 8).toNat
  | .big => byte.testBit (7 - (place % 8).toNat)

/-- The significance of a bit in a unit of so many bits, or of a byte in one of so many bytes, these
being counted in the order of the target. -/
def Endianness.significance (unitBits place : Nat) : Endianness → Nat
  | .little => place
  | .big => unitBits - 1 - place

/-- The bits of the number in a unit of memory are those of memory from the start of the unit on. -/
theorem testBit_unsignedValue_bytesAt (order : Endianness) (memory : Int → UInt8) (start : Int)
    {count place : Nat} (hplace : place < count * 8) :
    (unsignedValue order (bytesAt memory start count)).testBit
        (order.significance (count * 8) place) =
      memoryBit order memory (8 * start + place) := by
  have hbyte : (8 * start + (place : Int)) / 8 = start + (place / 8 : Nat) := by omega
  have hbit : ((8 * start + (place : Int)) % 8).toNat = place % 8 := by omega
  have hlt : place / 8 < count := by omega
  simp only [memoryBit, hbyte, hbit]
  cases order with
  | little =>
    have hindex : place / 8 < (bytesAt memory start count).length := by simpa using hlt
    simp only [unsignedValue, Endianness.significance]
    rw [testBit_littleValue, List.getD_eq_getElem _ _ hindex, getElem_bytesAt hindex]
  | big =>
    -- the bytes and the bits in them are both counted from the other end
    have hmirror : (count * 8 - 1 - place) / 8 = count - 1 - place / 8 := by omega
    have hrem : (count * 8 - 1 - place) % 8 = 7 - place % 8 := by omega
    have hindex : count - 1 - place / 8 < (bytesAt memory start count).reverse.length := by
      simp
      omega
    have hback : count - 1 - (count - 1 - place / 8) = place / 8 := by omega
    simp only [unsignedValue, Endianness.significance]
    rw [testBit_littleValue, hmirror, hrem, List.getD_eq_getElem _ _ hindex, List.getElem_reverse,
      getElem_bytesAt]
    rw [length_bytesAt, hback]

-- ------------------------------------------------------------------------------------------------
-- Fields of units
-- ------------------------------------------------------------------------------------------------

/-- Only an unknown type has no bytes. -/
theorem DataType.byteSize_pos {type : DataType} (h : type ≠ .unknown) : 0 < type.byteSize := by
  cases type with
  | signed w | unsigned w | float w | complex w => exact w.bytes_pos
  | boolean => exact Nat.one_pos
  | unknown => exact absurd rfl h

theorem DataType.ne_unknown_of_canDecode {type : DataType} (h : type.canDecode = true) :
    type ≠ .unknown := by
  rintro rfl
  cases h

/-- Scalars of the type can be read from memory and are integers or truth values. -/
def DataType.IsIntegral (type : DataType) : Prop :=
  type.canDecode = true ∧ (type.isInteger = true ∨ type = .boolean)

/-- The bits of a unit of the type that the arguments of a decoding take: those of a field within
the unit, or all of them where an argument is absent. -/
inductive DataType.Takes (type : DataType) (offset width : Nat) : Option Int → Option Int → Prop
  | field (hwidth : 1 ≤ width) (hfit : offset + width ≤ type.bitSize) :
    Takes type offset width (some offset) (some width)
  | whole {bitOffset bitSize : Option Int} (habsent : bitOffset = none ∨ bitSize = none)
    (hoffset : offset = 0) (hwidth : width = type.bitSize) :
    Takes type offset width bitOffset bitSize

variable {data : List UInt8} {type : DataType} {offset width : Nat} {bitOffset bitSize : Option Int}

theorem DataType.isFloat_of_isIntegral (hintegral : type.IsIntegral) : type.isFloat = false := by
  cases type with
  | float w =>
    obtain ⟨-, hinteger | hboolean⟩ := hintegral
    · cases hinteger
    · cases hboolean
  | _ => rfl

/-- Whole numbers of all other types are read as integers of their size. -/
theorem wholeOf_of_isFloat_eq_false (hfloat : type.isFloat = false) (value : Nat) :
    wholeOf type value = integerOf type type.bitSize value := by
  cases type with
  | float w => cases hfloat
  | _ => rfl

/-- The bits that the arguments take are read as a field would be, also where they are the whole
unit, for which the decoding takes a path of its own. -/
theorem decodeScalar_of_takes (order : Endianness) (hintegral : type.IsIntegral)
    (hlength : data.length = type.byteSize) (htakes : type.Takes offset width bitOffset bitSize) :
    decodeScalar data type order bitOffset bitSize =
      .ok (integerOf type width (unsignedValue order data >>> offset % valueCount width)) := by
  have hfloat := DataType.isFloat_of_isIntegral hintegral
  have hall : unsignedValue order data >>> 0 % valueCount type.bitSize =
      unsignedValue order data := by
    have hlt := unsignedValue_lt order data
    rw [hlength] at hlt
    rw [Nat.shiftRight_zero]
    exact Nat.mod_eq_of_lt hlt
  have hwhole : wholeOf type (unsignedValue order data) = integerOf type type.bitSize
      (unsignedValue order data >>> 0 % valueCount type.bitSize) := by
    rw [hall, wholeOf_of_isFloat_eq_false hfloat]
  have hdecode : ¬(!type.canDecode) = true := by simp [hintegral.1]
  rw [decodeScalar, if_neg hdecode, if_neg (not_not_intro hlength)]
  cases htakes with
  | field hwidth hfit =>
    dsimp only
    by_cases hnarrow : width < type.bitSize
    · have hstart : ¬(offset : Int) < 0 := by omega
      have hone : ¬(width : Int) < 1 := by omega
      have hinteger : ¬type.isFloat = true := by simp [hfloat]
      rw [if_pos (by exact_mod_cast hnarrow), fieldOf, if_neg hinteger, if_neg hstart,
        if_neg hone]
      rfl
    · -- a field as wide as its unit begins with the first bit
      obtain rfl : offset = 0 := by omega
      obtain rfl : width = type.bitSize := by omega
      rw [if_neg (by exact_mod_cast hnarrow), hwhole]
  | whole habsent hoffset hwidth =>
    subst hoffset hwidth
    rcases habsent with rfl | rfl
    · exact congrArg Except.ok hwhole
    · cases bitOffset <;> exact congrArg Except.ok hwhole

/-- A field within an unsigned unit is decoded as the number that its bits make, also if it is as
wide as the unit and therefore decoded as the whole of it. -/
theorem decodeScalar_field {w : Width} (order : Endianness) {start : Nat} (hw : w.bytes ≤ 8)
    (hlength : data.length = w.bytes) (hwidth : 1 ≤ width) (hfit : start + width ≤ w.bytes * 8) :
    decodeScalar data (.unsigned w) order (some start) (some width) =
      .ok (.int (bitsValue ((List.range width).map fun i =>
        (unsignedValue order data).testBit (start + i)) : Nat)) := by
  have hdecode : (DataType.unsigned w).canDecode = true := by
    cases w <;> first | rfl | exact absurd hw (by decide)
  have hintegral : (DataType.unsigned w).IsIntegral := ⟨hdecode, .inl rfl⟩
  have hbytes : data.length = (DataType.unsigned w).byteSize := hlength
  rw [decodeScalar_of_takes order hintegral hbytes (.field hwidth hfit),
    shiftRight_mod_valueCount]
  rfl

end DebugLayout
