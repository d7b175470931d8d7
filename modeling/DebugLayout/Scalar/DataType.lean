/-!
# DebugLayout — data types of scalars

The **data type** of a scalar says how its bytes are to be read: a family and a width. A type that
the tables do not know is `unknown`, which has no size.

Scalars, their fields and the parts of floating point numbers are words of bits: numbers that are
below the count of values that their bits can take. Cutting a number down to some bits takes its
remainder by that count, and dropping its low bits divides by it.

* `valueCount`: the number of values that some bits can take;
* `DataType`: the data types;
* `DataType.byteSize`, `isSigned`, `isNumeric`, …: their properties;
* `DataType.all`, `DataType.ofName?`: the data types by name.
-/

namespace DebugLayout

/-- The number of values that so many bits can take. -/
def valueCount (bits : Nat) : Nat := Nat.pow 2 bits

/-- The widths of scalars, in bits. -/
inductive Width
  | w8 | w16 | w32 | w64 | w128 | w256
  deriving DecidableEq, Repr

/-- How the bytes of a scalar are to be read. -/
inductive DataType
  | signed (w : Width)
  | unsigned (w : Width)
  | float (w : Width)
  | complex (w : Width)
  | boolean
  | unknown
  deriving DecidableEq, Repr

namespace Width

/-- The widths, in increasing order. -/
def all : List Width := [w8, w16, w32, w64, w128, w256]

/-- The place of a width in the order, which is the exponent of two of its bytes. -/
def rank : Width → Nat
  | w8 => 0
  | w16 => 1
  | w32 => 2
  | w64 => 3
  | w128 => 4
  | w256 => 5

/-- The bytes of a width. -/
def bytes (w : Width) : Nat := valueCount w.rank

/-- The bits of a width. -/
def bits (w : Width) : Nat := w.bytes * 8

theorem bytes_pos (w : Width) : 0 < w.bytes := by cases w <;> decide

end Width

namespace DataType

/-- The bytes that a scalar of the type takes; none are known of an unknown type. -/
def byteSize : DataType → Nat
  | signed w | unsigned w | float w | complex w => w.bytes
  | boolean => 1
  | unknown => 0

/-- The bits that a scalar of the type takes. -/
def bitSize (t : DataType) : Nat := t.byteSize * 8

/-- The code of the type: the family in the high four bits, the width in the low ones. -/
def code : DataType → Nat
  | signed w => w.rank
  | unsigned w => 16 + w.rank
  | float w => 32 + w.rank
  | boolean => 48
  | complex w => 64 + w.rank
  | unknown => 255

/-- The name of the type. -/
def name : DataType → String
  | signed w => s!"sint{w.bits}"
  | unsigned w => s!"uint{w.bits}"
  | float w => s!"float{w.bits}"
  | complex w => s!"cfloat{w.bits}"
  | boolean => "boolean"
  | unknown => "NA"

/-- Whether values of the type have a sign. -/
def isSigned : DataType → Bool
  | signed _ | float _ | complex _ => true
  | _ => false

/-- Whether values of the type are integers. -/
def isInteger : DataType → Bool
  | signed _ | unsigned _ => true
  | _ => false

/-- Whether values of the type are real numbers in floating point. -/
def isFloat : DataType → Bool
  | float _ => true
  | _ => false

/-- Whether values of the type are complex numbers. -/
def isComplex : DataType → Bool
  | complex _ => true
  | _ => false

/-- Whether the type can hold a calibration value or a breakpoint of an axis. -/
def isNumeric (t : DataType) : Bool := t.isInteger || t.isFloat || t = boolean

/-- Whether scalars of the type can be read from memory. -/
def canDecode : DataType → Bool
  | signed w | unsigned w => w.rank ≤ 3
  | float w => 1 ≤ w.rank && w.rank ≤ 3
  | boolean => true
  | complex _ | unknown => false

/-- The data types. -/
def all : List DataType :=
  Width.all.map signed ++ Width.all.map unsigned ++ Width.all.map float ++
    Width.all.map complex ++ [boolean, unknown]

/-- The data type of a name. -/
def ofName? (text : String) : Option DataType := all.find? (·.name = text)

end DataType

end DebugLayout
