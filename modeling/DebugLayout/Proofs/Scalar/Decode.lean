import DebugLayout.Proofs.Outcome
import DebugLayout.Proofs.Scalar.Bits
import Mathlib.Algebra.BigOperators.Fin
import Mathlib.Algebra.BigOperators.Group.List.Basic
import Mathlib.Data.Int.ModEq
import Mathlib.Tactic.Ring

/-!
# DebugLayout — what a scalar in memory stands for

The bytes of a unit **denote** the sum of what each of them contributes by its place, which depends
on the byte order. The bits that a decoding takes from the unit make a number, and the data type
says which value that number **stands for**: itself, the number in the balanced range that is
congruent to it, or whether it is not zero.

No reference is made to how the value is computed. A signed number is characterised by its range and
its residue, and reversing the bytes is shown to do nothing but change their significance.

* `denoted`: the number that bytes denote, `unsignedValue_eq_denoted`: it is what is computed;
* `DataType.Reads`: the value that some bits of a unit stand for, `reads_iff`: there is just one;
* `Partitions`: fields that have each bit of a unit once;
* `decodeScalar_of_isIntegral`: a decoding gives that value, reversed bytes have the same values in
  the other byte order, and the fields of a partition make up the number that the unit denotes.
-/

namespace DebugLayout

-- ------------------------------------------------------------------------------------------------
-- Byte orders
-- ------------------------------------------------------------------------------------------------

/-- The byte order in which the bytes come the other way round. -/
def Endianness.other : Endianness → Endianness
  | .little => .big
  | .big => .little

/-- The number that bytes denote in a byte order. -/
def denoted (order : Endianness) (data : List UInt8) : Nat :=
  ∑ i : Fin data.length, data[i].toNat * 256 ^ order.significance data.length i

/-- Bytes in a row denote the sum of both parts, the second raised by the first. -/
theorem littleValue_append (front back : List UInt8) :
    littleValue (front ++ back) = littleValue front + 256 ^ front.length * littleValue back := by
  induction front with
  | nil => simp [littleValue]
  | cons b bs ih =>
    rw [List.cons_append, littleValue, littleValue, ih, List.length_cons]
    ring

/-- Bytes from the lowest on denote their sum of powers. -/
theorem littleValue_eq_denoted (data : List UInt8) : littleValue data = denoted .little data := by
  induction data with
  | nil => rfl
  | cons b bs ih =>
    -- each later byte counts for 256 times what it does without the first
    have hlater : ∀ i : Fin bs.length, (b :: bs)[i.succ].toNat * 256 ^ (i.succ : Nat) =
        256 * (bs[i].toNat * 256 ^ (i : Nat)) := by
      intro i
      simp only [Fin.getElem_fin, Fin.val_succ, List.getElem_cons_succ, Nat.pow_succ]
      ring
    rw [littleValue, ih]
    simp only [denoted, Endianness.significance, List.length_cons]
    rw [Fin.sum_univ_succ, Finset.mul_sum, Finset.sum_congr rfl fun i _ => hlater i]
    simp

/-- Bytes from the highest on, reversed, denote their sum of powers. -/
theorem littleValue_reverse_eq_denoted (data : List UInt8) :
    littleValue data.reverse = denoted .big data := by
  induction data with
  | nil => rfl
  | cons b bs ih =>
    have hlater : ∀ i : Fin bs.length,
        (b :: bs)[i.succ].toNat * 256 ^ (bs.length + 1 - 1 - (i.succ : Nat)) =
          bs[i].toNat * 256 ^ (bs.length - 1 - (i : Nat)) := by
      intro i
      have hplace : bs.length + 1 - 1 - (i.succ : Nat) = bs.length - 1 - (i : Nat) := by
        rw [Fin.val_succ]
        omega
      rw [hplace]
      rfl
    -- the first byte comes last, and so it is the most significant one
    rw [List.reverse_cons, littleValue_append, ih]
    simp only [denoted, Endianness.significance, List.length_cons, List.length_reverse]
    rw [Fin.sum_univ_succ, Finset.sum_congr rfl fun i _ => hlater i]
    simp [littleValue]
    ring

theorem unsignedValue_eq_denoted (order : Endianness) (data : List UInt8) :
    unsignedValue order data = denoted order data := by
  cases order with
  | little => exact littleValue_eq_denoted data
  | big => exact littleValue_reverse_eq_denoted data

/-- Reversed bytes denote the same in the other order. -/
theorem unsignedValue_reverse (order : Endianness) (data : List UInt8) :
    unsignedValue order.other data.reverse = unsignedValue order data := by
  cases order with
  | little => simp [Endianness.other, unsignedValue]
  | big => rfl

/-- Reversed bytes are decoded alike in the other byte order. -/
theorem decodeScalar_reverse (data : List UInt8) (type : DataType) (order : Endianness)
    (bitOffset bitSize : Option Int) :
    decodeScalar data.reverse type order.other bitOffset bitSize =
      decodeScalar data type order bitOffset bitSize := by
  rw [decodeScalar, decodeScalar, List.length_reverse, unsignedValue_reverse]

-- ------------------------------------------------------------------------------------------------
-- The values of numbers
-- ------------------------------------------------------------------------------------------------

/-- The value of a data type that a number of some bits stands for. -/
inductive DataType.Reads (width value : Nat) : DataType → Decoded → Prop
  | unsigned (w : Width) : Reads width value (.unsigned w) (.int value)
  | signed (w : Width) {v : Int} (hlow : -2 ^ (width - 1) ≤ v) (hhigh : v < 2 ^ (width - 1))
    (hmod : v ≡ value [ZMOD 2 ^ width]) : Reads width value (.signed w) (.int v)
  | boolean : Reads width value .boolean (.bool (value != 0))

theorem cast_valueCount (width : Nat) : (valueCount width : Int) = 2 ^ width := by
  simp [valueCount]

/-- The signed reading of a number is in the balanced range. -/
theorem signedValue_mem {width value : Nat} (hwidth : 1 ≤ width) (hvalue : value < 2 ^ width) :
    -2 ^ (width - 1) ≤ signedValue width value ∧ signedValue width value < 2 ^ (width - 1) := by
  have hhalf : (2 : Int) * 2 ^ (width - 1) = 2 ^ width := mul_pow_sub_one (by omega) 2
  have hlt : (value : Int) < 2 ^ width := by exact_mod_cast hvalue
  by_cases hnegative : valueCount (width - 1) ≤ value
  · have hle : (2 : Int) ^ (width - 1) ≤ value := by exact_mod_cast hnegative
    rw [signedValue, if_pos hnegative, cast_valueCount]
    omega
  · have hless : (value : Int) < 2 ^ (width - 1) := by
      exact_mod_cast Nat.lt_of_not_le hnegative
    rw [signedValue, if_neg hnegative]
    omega

/-- The signed reading of a number is congruent to it. -/
theorem signedValue_modEq (width value : Nat) :
    signedValue width value ≡ value [ZMOD 2 ^ width] := by
  rw [signedValue]
  split
  · rw [cast_valueCount]
    exact Int.modEq_iff_dvd.mpr ⟨1, by ring⟩
  · exact Int.ModEq.refl _

/-- Two numbers of the balanced range that are congruent are the same. -/
theorem eq_of_modEq_of_mem {width : Nat} {v v' : Int} (hwidth : 1 ≤ width)
    (hmem : -2 ^ (width - 1) ≤ v ∧ v < 2 ^ (width - 1))
    (hmem' : -2 ^ (width - 1) ≤ v' ∧ v' < 2 ^ (width - 1)) (hmod : v ≡ v' [ZMOD 2 ^ width]) :
    v = v' := by
  have hhalf : (2 : Int) * 2 ^ (width - 1) = 2 ^ width := mul_pow_sub_one (by omega) 2
  have hdvd : (2 : Int) ^ width ∣ v' - v := Int.modEq_iff_dvd.mp hmod
  have hzero : v' - v = 0 := by
    refine Int.eq_zero_of_abs_lt_dvd hdvd ?_
    rw [abs_lt]
    omega
  omega

/-- A number stands for one value, which is the one that is computed. -/
theorem reads_iff {type : DataType} {width value : Nat} {v : Decoded}
    (hintegral : type.IsIntegral) (hwidth : 1 ≤ width) (hvalue : value < 2 ^ width) :
    type.Reads width value v ↔ v = integerOf type width value := by
  have hmem := signedValue_mem hwidth hvalue
  have hmod := signedValue_modEq width value
  constructor
  · intro hreads
    cases hreads with
    | unsigned w => rfl
    | signed w hlow hhigh hmod' =>
      -- a residue has one representative in the range of the type
      exact congrArg Decoded.int
        (eq_of_modEq_of_mem hwidth ⟨hlow, hhigh⟩ hmem (hmod'.trans hmod.symm))
    | boolean => rfl
  · rintro rfl
    cases type with
    | signed w => exact .signed w hmem.1 hmem.2 hmod
    | unsigned w => exact .unsigned w
    | boolean => exact .boolean
    | float w => cases DataType.isFloat_of_isIntegral hintegral
    | complex w => cases hintegral.1
    | unknown => cases hintegral.1

-- ------------------------------------------------------------------------------------------------
-- Partitions of a unit
-- ------------------------------------------------------------------------------------------------

/-- Fields, each with its offset and its width, that have each bit of a unit once. -/
structure Partitions (unitBits : Nat) (fields : List (Nat × Nat)) : Prop where
  nonempty : ∀ f ∈ fields, 1 ≤ f.2
  perm : (fields.flatMap fun f => List.range' f.1 f.2).Perm (List.range unitBits)

/-- The fields of a partition are within the unit. -/
theorem Partitions.fits {unitBits : Nat} {fields : List (Nat × Nat)}
    (hpartition : Partitions unitBits fields) {f : Nat × Nat} (hf : f ∈ fields) :
    f.1 + f.2 ≤ unitBits := by
  have hone := hpartition.nonempty f hf
  have hlast : f.1 + f.2 - 1 ∈ fields.flatMap fun f => List.range' f.1 f.2 := by
    refine List.mem_flatMap.mpr ⟨f, hf, ?_⟩
    rw [List.mem_range'_1]
    omega
  have hlt := List.mem_range.mp (hpartition.perm.mem_iff.mp hlast)
  omega

/-- What the bit at a place contributes to a number. -/
def bitWeight (value place : Nat) : Nat := (value.testBit place).toNat * 2 ^ place

/-- A field of a number contributes what its bits do. -/
theorem cut_mul_two_pow (value start width : Nat) :
    value >>> start % 2 ^ width * 2 ^ start =
      ((List.range' start width).map (bitWeight value)).sum := by
  induction width with
  | zero => simp [Nat.mod_one]
  | succ n ih =>
    -- a field that is longer by one bit has a new most significant one
    have htop : 2 ^ n * (value >>> start / 2 ^ n % 2) * 2 ^ start =
        bitWeight value (start + n) := by
      rw [← Nat.toNat_testBit, Nat.testBit_shiftRight, bitWeight, Nat.pow_add]
      ring
    rw [Nat.mod_pow_succ, Nat.add_mul, ih, htop, List.range'_1_concat, List.map_append,
      List.sum_append]
    simp

/-- The fields of a partition make up the number of the unit. -/
theorem Partitions.sum_cuts {unitBits value : Nat} {fields : List (Nat × Nat)}
    (hpartition : Partitions unitBits fields) (hvalue : value < 2 ^ unitBits) :
    (fields.map fun f => value >>> f.1 % 2 ^ f.2 * 2 ^ f.1).sum = value := by
  -- every field contributes the weights of its own bits
  have hfields : ∀ fs : List (Nat × Nat),
      (fs.map fun f => value >>> f.1 % 2 ^ f.2 * 2 ^ f.1).sum =
        ((fs.flatMap fun f => List.range' f.1 f.2).map (bitWeight value)).sum := by
    intro fs
    induction fs with
    | nil => rfl
    | cons f fs ih =>
      rw [List.map_cons, List.sum_cons, ih, cut_mul_two_pow, List.flatMap_cons, List.map_append,
        List.sum_append]
  calc (fields.map fun f => value >>> f.1 % 2 ^ f.2 * 2 ^ f.1).sum
      = ((fields.flatMap fun f => List.range' f.1 f.2).map (bitWeight value)).sum := hfields fields
    _ = ((List.range unitBits).map (bitWeight value)).sum := (hpartition.perm.map _).sum_eq
    _ = value >>> 0 % 2 ^ unitBits * 2 ^ 0 := by rw [cut_mul_two_pow, List.range_eq_range']
    _ = value := by rw [Nat.shiftRight_zero, Nat.mod_eq_of_lt hvalue, Nat.pow_zero, Nat.mul_one]

-- ------------------------------------------------------------------------------------------------
-- Decodings
-- ------------------------------------------------------------------------------------------------

variable {data : List UInt8} {type : DataType} {offset width : Nat} {bitOffset bitSize : Option Int}

theorem DataType.IsIntegral.bitSize_pos (hintegral : type.IsIntegral) : 1 ≤ type.bitSize := by
  have hpos := DataType.byteSize_pos (DataType.ne_unknown_of_canDecode hintegral.1)
  rw [DataType.bitSize]
  omega

/-- A field that an integral type takes has at least one bit. -/
theorem DataType.Takes.one_le (hintegral : type.IsIntegral)
    (htakes : type.Takes offset width bitOffset bitSize) : 1 ≤ width := by
  cases htakes with
  | field hwidth hfit => exact hwidth
  | whole habsent hoffset hwidth => exact hwidth ▸ hintegral.bitSize_pos

/-- A decoding of some bits of a unit gives the one value that they stand for. -/
theorem decodeScalar_reads (order : Endianness) (hintegral : type.IsIntegral)
    (hlength : data.length = type.byteSize) (htakes : type.Takes offset width bitOffset bitSize) :
    ∃ v, decodeScalar data type order bitOffset bitSize = .ok v ∧
      ∀ v', type.Reads width (denoted order data >>> offset % 2 ^ width) v' ↔ v' = v := by
  refine ⟨_, decodeScalar_of_takes order hintegral hlength htakes, fun v' => ?_⟩
  rw [unsignedValue_eq_denoted]
  exact reads_iff hintegral (htakes.one_le hintegral) (Nat.mod_lt _ (Nat.two_pow_pos width))

/-- The decodings of the fields of a partition make up the number of an unsigned unit. -/
theorem decodeScalar_partition {w : Width} (order : Endianness)
    (hintegral : (DataType.unsigned w).IsIntegral)
    (hlength : data.length = (DataType.unsigned w).byteSize) {fields : List (Nat × Nat)}
    (hpartition : Partitions (DataType.unsigned w).bitSize fields) :
    ∃ numbers : List Nat,
      (fields.mapM fun f => decodeScalar data (.unsigned w) order (some f.1) (some f.2)) =
        .ok (numbers.map fun n : Nat => .int n) ∧
      (List.zipWith (fun f n => n * 2 ^ f.1) fields numbers).sum = denoted order data := by
  have hdecode : ∀ f ∈ fields, decodeScalar data (.unsigned w) order (some f.1) (some f.2) =
      .ok (.int (denoted order data >>> f.1 % 2 ^ f.2 : Nat)) := by
    intro f hf
    rw [decodeScalar_of_takes order hintegral hlength
      (.field (hpartition.nonempty f hf) (hpartition.fits hf)), unsignedValue_eq_denoted]
    rfl
  have hlt : denoted order data < 2 ^ (DataType.unsigned w).bitSize := by
    rw [← unsignedValue_eq_denoted, DataType.bitSize, ← hlength]
    exact unsignedValue_lt order data
  refine ⟨fields.map fun f => denoted order data >>> f.1 % 2 ^ f.2, ?_, ?_⟩
  · rw [mapM_eq_ok hdecode, List.map_map]
    rfl
  · rw [List.zipWith_map_right, List.zipWith_self]
    exact hpartition.sum_cuts hlt

/-- A scalar of an integer type or of the boolean type is decoded, for every field of its unit and
for the whole of it, to the one value that its bits stand for. Reversed bytes are decoded alike in
the other byte order, and the fields of any partition of an unsigned unit make up the number that
its bytes denote. -/
theorem decodeScalar_of_isIntegral (hintegral : type.IsIntegral)
    (hlength : data.length = type.byteSize) (order : Endianness) :
    (∀ {offset width : Nat} {bitOffset bitSize : Option Int},
      type.Takes offset width bitOffset bitSize →
      ∃ v, decodeScalar data type order bitOffset bitSize = .ok v ∧
        ∀ v', type.Reads width (denoted order data >>> offset % 2 ^ width) v' ↔ v' = v) ∧
    (∀ bitOffset bitSize : Option Int,
      decodeScalar data.reverse type order.other bitOffset bitSize =
        decodeScalar data type order bitOffset bitSize) ∧
    (∀ {w : Width}, type = .unsigned w → ∀ {fields : List (Nat × Nat)},
      Partitions type.bitSize fields →
      ∃ numbers : List Nat,
        (fields.mapM fun f => decodeScalar data type order (some f.1) (some f.2)) =
          .ok (numbers.map fun n : Nat => .int n) ∧
        (List.zipWith (fun f n => n * 2 ^ f.1) fields numbers).sum = denoted order data) := by
  refine ⟨fun htakes => decodeScalar_reads order hintegral hlength htakes,
    decodeScalar_reverse data type order, ?_⟩
  rintro w rfl fields hpartition
  exact decodeScalar_partition order hintegral hlength hpartition

/-- The upper six bits of a signed byte are read with their sign, and two fields that part a big
endian unit of two bytes make it up again. -/
theorem decodeScalar_of_isIntegral_signed_and_parted :
    decodeScalar [0xf4] (.signed .w8) .little (some 2) (some 6) = .ok (.int (-3)) ∧
    Partitions 16 [(12, 4), (0, 12)] ∧
    ∃ numbers : List Nat,
      ([(12, 4), (0, 12)].mapM fun f : Nat × Nat =>
        decodeScalar [0xb4, 0x6a] (.unsigned .w16) .big (some f.1) (some f.2)) =
        .ok (numbers.map fun n : Nat => .int n) ∧
      (List.zipWith (fun (f : Nat × Nat) n => n * 2 ^ f.1) [(12, 4), (0, 12)] numbers).sum =
        0xb46a := by
  have hpartition : Partitions 16 [(12, 4), (0, 12)] := ⟨by decide, by decide⟩
  refine ⟨?_, hpartition, ?_⟩
  · have hsigned : (DataType.signed .w8).IsIntegral := ⟨rfl, .inl rfl⟩
    have htakes : (DataType.signed .w8).Takes 2 6 (some 2) (some 6) :=
      .field (by decide) (by decide)
    have hlength : ([0xf4] : List UInt8).length = (DataType.signed .w8).byteSize := rfl
    obtain ⟨v, hv, hreads⟩ := (decodeScalar_of_isIntegral hsigned hlength .little).1 htakes
    have hthree : Decoded.int (-3) = v :=
      (hreads _).1 (.signed .w8 (by decide) (by decide) (by decide))
    rw [hv, hthree]
  · have hunsigned : (DataType.unsigned .w16).IsIntegral := ⟨rfl, .inl rfl⟩
    have hlength : ([0xb4, 0x6a] : List UInt8).length = (DataType.unsigned .w16).byteSize := rfl
    exact (decodeScalar_of_isIntegral hunsigned hlength .big).2.2 rfl hpartition

end DebugLayout
