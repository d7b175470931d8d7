import DebugLayout.Endianness
import DebugLayout.Value.Check

/-!
# DebugLayout — the target

The **target** is what is known of the machine that a program runs on: how wide its pointers are,
how it orders bytes, and how composites are aligned when the debug information does not give their
size. The widths are checked once, when a target is made, and their bounds go with it.

* `Target`, `Target.make`: the targets;
* `Target.ofValue`, `Target.toValue`: reading and writing a description;
* `Target.align`: a size rounded up to the default alignment.
-/

namespace DebugLayout

/-- The facts about the machine that matter to layouts. -/
structure Target where
  pointerWidth : Nat
  endianness : Endianness
  alignment : Nat
  pointerWidth_bounds : 1 ≤ pointerWidth ∧ pointerWidth ≤ 16
  alignment_bounds : 1 ≤ alignment ∧ alignment ≤ 64
  deriving DecidableEq

/-- Why a description is no target. -/
inductive TargetFault
  | check (fault : CheckFault)
  | endianness (fault : UnknownEndianness)
  deriving DecidableEq, Repr

/-- The wording of a fault. -/
def TargetFault.message : TargetFault → String
  | check fault => fault.message
  | endianness fault => fault.message

namespace Target

/-- The target with some widths, provided that they are within bounds. -/
def make (pointerWidth : Int) (endianness : Endianness) (alignment : Int) :
    Except CheckFault Target :=
  if hp : pointerWidth < 1 then .error (.tooSmall "pointer_width_bytes" 1 pointerWidth)
  else if hp' : 16 < pointerWidth then .error (.tooLarge "pointer_width_bytes" 16 pointerWidth)
  else if ha : alignment < 1 then .error (.tooSmall "default_alignment_bytes" 1 alignment)
  else if ha' : 64 < alignment then .error (.tooLarge "default_alignment_bytes" 64 alignment)
  else .ok ⟨pointerWidth.toNat, endianness, alignment.toNat, by omega, by omega⟩

/-- The little-endian target of four bytes, which stands in where none is given. -/
def standard : Target := ⟨4, .little, 4, by decide, by decide⟩

/-- The target of a description. The fields are checked in order, then the endianness is read, and
then the bounds are checked. -/
def ofValue (v : Value) : Except TargetFault Target := do
  let width ← (v.checkField "" "pointer_width_bytes" [.int]).mapError .check
  let order ← (v.checkField "" "endianness" [.text]).mapError .check
  let alignment ← (v.checkField "" "default_alignment_bytes" [.int]).mapError .check
  let width ← (width.checkInt "pointer_width_bytes").mapError .check
  let order ← (order.checkText "endianness").mapError .check
  let alignment ← (alignment.checkInt "default_alignment_bytes").mapError .check
  let order ← (Endianness.ofText order).mapError .endianness
  (make width order alignment).mapError .check

/-- The description of a target. -/
def toValue (t : Target) : Value :=
  .dict [("pointer_width_bytes", .int t.pointerWidth),
    ("endianness", .text t.endianness.toText),
    ("default_alignment_bytes", .int t.alignment)]

/-- A size rounded up to the default alignment. -/
def align (t : Target) (size : Int) : Int :=
  (size + t.alignment - 1) / t.alignment * t.alignment

end Target

end DebugLayout
