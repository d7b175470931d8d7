import DebugLayout.Scalar.DataType

/-!
# DebugLayout — encodings of base types

A base type of the debug information has an **encoding** and a size in bytes. Together they
determine the data type of its scalars; a pair that the table does not list has the data type
`unknown`.

* `Encoding`: the encodings, with their codes and names;
* `Encoding.dataType`, `dataTypeOf`: the table.
-/

namespace DebugLayout

/-- How a base type encodes its values. -/
inductive Encoding
  | address | boolean | complexFloat | float | signed | signedChar | unsigned | unsignedChar
  | imaginaryFloat | packedDecimal | numericString | edited | signedFixed | unsignedFixed
  | decimalFloat | utf
  deriving DecidableEq, Repr

namespace Encoding

/-- The encodings in the order of their codes, which start at 1. -/
def all : List Encoding :=
  [address, boolean, complexFloat, float, signed, signedChar, unsigned, unsignedChar,
   imaginaryFloat, packedDecimal, numericString, edited, signedFixed, unsignedFixed,
   decimalFloat, utf]

/-- The encoding of a code. -/
def ofCode? (code : Int) : Option Encoding :=
  if 1 ≤ code then all[(code - 1).toNat]? else none

/-- The name of an encoding. -/
def name : Encoding → String
  | address => "DW_ATE_address"
  | boolean => "DW_ATE_boolean"
  | complexFloat => "DW_ATE_complex_float"
  | float => "DW_ATE_float"
  | signed => "DW_ATE_signed"
  | signedChar => "DW_ATE_signed_char"
  | unsigned => "DW_ATE_unsigned"
  | unsignedChar => "DW_ATE_unsigned_char"
  | imaginaryFloat => "DW_ATE_imaginary_float"
  | packedDecimal => "DW_ATE_packed_decimal"
  | numericString => "DW_ATE_numeric_string"
  | edited => "DW_ATE_edited"
  | signedFixed => "DW_ATE_signed_fixed"
  | unsignedFixed => "DW_ATE_unsigned_fixed"
  | decimalFloat => "DW_ATE_decimal_float"
  | utf => "DW_ATE_UTF"

/-- The encoding of a name. -/
def ofName? (text : String) : Option Encoding := all.find? (·.name = text)

/-- The width of a size in bytes. -/
def widthOf? (size : Int) : Option Width := Width.all.find? fun w => (w.bytes : Int) = size

/-- The data type of an encoding at a width. -/
def dataTypeAt : Encoding → Width → DataType
  | address, w => if w.rank ≤ 3 then .unsigned w else .unknown
  | boolean, w => if w = .w8 then .boolean else if w.rank ≤ 3 then .unsigned w else .unknown
  | complexFloat, w => if w = .w8 then .unknown else .complex w
  | float, w => if w = .w8 then .unknown else .float w
  | signed, w => .signed w
  | unsigned, w => .unsigned w
  | signedChar, w => if w.rank ≤ 2 then .signed w else .unknown
  | unsignedChar, w => if w.rank ≤ 2 then .unsigned w else .unknown
  | utf, w => if w.rank ≤ 2 then .unsigned w else .unknown
  | _, _ => .unknown

/-- The data type of an encoding at a size in bytes. -/
def dataType (e : Encoding) (size : Int) : DataType :=
  match widthOf? size with
  | some w => e.dataTypeAt w
  | none => .unknown

end Encoding

/-- The data type of a base type, whose encoding may be missing. -/
def dataTypeOf (encoding : Option Encoding) (size : Int) : DataType :=
  match encoding with
  | some e => e.dataType size
  | none => .unknown

theorem Encoding.dataTypeAt_byteSize (e : Encoding) (w : Width)
    (h : e.dataTypeAt w ≠ .unknown) : (e.dataTypeAt w).byteSize = w.bytes := by
  revert h
  cases e <;> cases w <;> decide

/-- A known data type has the size of the base type that it comes from. -/
theorem dataTypeOf_byteSize {encoding : Option Encoding} {size : Int}
    (h : dataTypeOf encoding size ≠ .unknown) :
    ((dataTypeOf encoding size).byteSize : Int) = size := by
  unfold dataTypeOf at *
  split at h
  · rename_i e
    unfold Encoding.dataType at *
    split at h
    · rename_i w hw
      have hsize := List.find?_some hw
      rw [e.dataTypeAt_byteSize w h]
      exact of_decide_eq_true hsize
    · exact absurd rfl h
  · exact absurd rfl h

end DebugLayout
