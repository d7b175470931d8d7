import DebugLayout.Endianness
import DebugLayout.Entry.Basic
import DebugLayout.TypeGraph.Fault

/-!
# DebugLayout — places of bitfields

A **bitfield** lies in a storage unit of some bytes. Where it lies in it is given in one of two
ways: by the distance of its most significant bit from that of the unit, or by its distance from
the beginning of the containing composite, in the order of memory. The second distance may go
beyond the unit at the member's own offset; the field then lies in a later unit.

Either way a field is brought to one form: the byte offset of its unit, and its distance from the
least significant bit of the unit.

* `FieldPosition`: the two ways;
* `FieldPosition.place`: the common form;
* `Entry.fieldPlace`: the place of a member, or why it has none.
-/

namespace DebugLayout

/-- Where a bitfield lies, as the debug information gives it. -/
inductive FieldPosition
  | fromUnitMsb (bits : Int)
  | fromCompositeStart (bits : Int)
  deriving DecidableEq, Repr

/-- The byte offset of the storage unit of a field of `size` bits, and the distance of the field
from the least significant bit of the unit. -/
def FieldPosition.place (order : Endianness) (unitSize byteOffset size : Int) :
    FieldPosition → Int × Int
  | fromUnitMsb bits => (byteOffset, unitSize * 8 - bits - size)
  | fromCompositeStart bits =>
    let unitBits := unitSize * 8
    let (unit, first) :=
      if unitBits ≤ bits then (byteOffset + bits.fdiv unitBits * unitSize, bits.fmod unitBits)
      else (byteOffset, bits)
    match order with
    | .little => (unit, first)
    | .big => (unit, unitBits - first - size)

namespace Entry

/-- The integer in an attribute, if the attribute is given at all. -/
def intAttr? (e : Entry) (name : String) : Except Malformation (Option Int) :=
  match e.attributes.get? name with
  | none => .ok none
  | some v =>
    match v.toInt with
    | .ok n => .ok (some n)
    | .error fault => .error (.notAnInteger fault)

/-- Where a member says that its bits lie; one that says nothing starts with the composite. -/
def fieldPosition (e : Entry) : Except Malformation FieldPosition :=
  match e.intAttr? Attr.bitOffset with
  | .error fault => .error fault
  | .ok (some bits) => .ok (.fromUnitMsb bits)
  | .ok none =>
    match e.intAttr? Attr.dataBitOffset with
    | .error fault => .error fault
    | .ok bits => .ok (.fromCompositeStart (bits.getD 0))

/-- The place of a bitfield member in a storage unit, which must hold all of its bits. A unit
without bytes is no unit. -/
def fieldPlace (e : Entry) (order : Endianness) (unitSize : Option Int) (byteOffset size : Int) :
    Except Malformation (Int × Int) :=
  match unitSize with
  | none | some 0 => .error (.noStorageUnit e.label)
  | some unitSize =>
    match e.fieldPosition with
    | .error fault => .error fault
    | .ok position =>
      let place := position.place order unitSize byteOffset size
      if place.2 < 0 ∨ size ≤ 0 ∨ unitSize * 8 < place.2 + size then
        .error (.fieldOutsideUnit e.label unitSize place.2 size)
      else .ok place

end Entry

end DebugLayout
