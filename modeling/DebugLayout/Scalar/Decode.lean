import DebugLayout.Endianness
import DebugLayout.Scalar.Binary64
import DebugLayout.Scalar.DataType

/-!
# DebugLayout — reading scalars from memory

The bytes of a scalar are **decoded** by its data type and the endianness of the target. A bitfield
is first cut out of its storage unit: its offset counts from the least significant bit of the
unsigned number that the unit holds. A field that is as wide as its unit is no field, and is read
as the whole unit.

* `unsignedValue`: the number that bytes denote;
* `signedValue`: the number that some low bits denote in two's complement;
* `decodeScalar`: the value of a scalar, or why it cannot be read.
-/

namespace DebugLayout

/-- The value of a scalar. -/
inductive Decoded
  | int (n : Int)
  | float (x : Binary64)
  | bool (b : Bool)
  deriving DecidableEq, Repr

/-- Why a scalar cannot be read. -/
inductive DecodeFault
  | undecodable (type : DataType)
  | wrongSize (type : DataType) (got : Nat)
  | floatField
  | negativeOffset
  | emptyField (width : Int)
  deriving DecidableEq, Repr

namespace DecodeFault

/-- The wording of a fault. The fault of a field without bits names its width only. -/
def message : DecodeFault → String
  | undecodable type => "Cannot decode data of type " ++ type.name
  | wrongSize type got => s!"Expected {type.byteSize} bytes to decode a {type.name}. Got {got}"
  | floatField => "Bitfield on float value is not possible"
  | negativeOffset => "negative shift count"
  | emptyField width => toString width

end DecodeFault

/-- Whether a value is at most another. Values of different kinds are not comparable. -/
def Decoded.le : Decoded → Decoded → Bool
  | int m, int n => m ≤ n
  | float x, float y => x.le y
  | bool b, bool c => !b || c
  | _, _ => false

/-- The number that bytes denote, the first one being the least significant. -/
def littleValue : List UInt8 → Nat
  | [] => 0
  | b :: bs => b.toNat + 256 * littleValue bs

/-- The unsigned number that bytes denote. -/
def unsignedValue (order : Endianness) (data : List UInt8) : Nat :=
  match order with
  | .little => littleValue data
  | .big => littleValue data.reverse

/-- The number that the low bits of a number denote in two's complement. -/
def signedValue (width value : Nat) : Int :=
  if valueCount (width - 1) ≤ value then (value : Int) - valueCount width else value

/-- The value of a data type whose unsigned reading is `value`, cut to `width` bits. -/
def integerOf (type : DataType) (width value : Nat) : Decoded :=
  if type.isSigned then .int (signedValue width value)
  else if type = .boolean then .bool (value != 0)
  else .int value

/-- The value of a whole storage unit whose unsigned reading is `value`. -/
def wholeOf (type : DataType) (value : Nat) : Decoded :=
  match type with
  | .float .w16 => .float (FloatFormat.binary16.widen value)
  | .float .w32 => .float (FloatFormat.binary32.widen value)
  | .float _ => .float ⟨value⟩
  | type => integerOf type type.bitSize value

/-- The value of a field of a storage unit whose unsigned reading is `value`. -/
def fieldOf (type : DataType) (value : Nat) (offset width : Int) : Except DecodeFault Decoded :=
  if type.isFloat then .error .floatField
  else if offset < 0 then .error .negativeOffset
  else if width < 1 then .error (.emptyField width)
  else .ok (integerOf type width.toNat (value >>> offset.toNat % valueCount width.toNat))

/-- The value of a scalar. The place of a field counts only when both its offset and its width are
given and it is narrower than its storage unit. -/
def decodeScalar (data : List UInt8) (type : DataType) (order : Endianness)
    (bitOffset bitSize : Option Int) : Except DecodeFault Decoded :=
  if !type.canDecode then .error (.undecodable type)
  else if data.length ≠ type.byteSize then .error (.wrongSize type data.length)
  else
    let value := unsignedValue order data
    match bitOffset, bitSize with
    | some offset, some width =>
      if width < type.bitSize then fieldOf type value offset width
      else .ok (wholeOf type value)
    | _, _ => .ok (wholeOf type value)

end DebugLayout
