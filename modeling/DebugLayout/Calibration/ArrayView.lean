import DebugLayout.Layout.Node

/-!
# DebugLayout — arrays as axes and values

A calibration object is made of **arrays of numbers**. Such an array may be the symbol itself or the
single member of a struct around it. An axis has one dimension, which is not zero.

* `ArrayView`: an array of a layout by its parts;
* `asAxis`: the axis that a layout can serve as;
* `asValue`: the value array of so many dimensions that a layout can serve as.
-/

namespace DebugLayout

/-- An array of a layout. -/
structure ArrayView where
  header : NodeHeader
  shape : ArrayShape
  elementTypeName : String
  elements : List LayoutNode

namespace ArrayView

/-- The array as a node. -/
def toNode (a : ArrayView) : LayoutNode :=
  .array a.header a.shape a.elementTypeName a.elements

/-- The dimensions of the array. -/
def dims (a : ArrayView) : List Nat := a.shape.dims

/-- The first dimension. -/
def length (a : ArrayView) : Nat := a.dims.headD 0

/-- The data type of the elements, if they are plain scalars. -/
def elementType? (a : ArrayView) : Option DataType := a.toNode.elementType?

/-- Whether the elements are plain numbers. -/
def isNumeric (a : ArrayView) : Bool := a.elementType?.any DataType.isNumeric

/-- Whether the elements are plain scalars of one byte. -/
def isBytes (a : ArrayView) : Bool := a.elementType?.any (·.byteSize = 1)

end ArrayView

/-- The array that a node is. -/
def LayoutNode.array? : LayoutNode → Option ArrayView
  | .array header shape elementTypeName elements => some ⟨header, shape, elementTypeName, elements⟩
  | _ => none

/-- The array that a node is or, if it is a struct with a single member, that its member is. -/
def LayoutNode.bareArray? : LayoutNode → Option ArrayView
  | .composite _ false _ [m] => m.array?
  | .composite .. => none
  | n => n.array?

/-- The axis that a layout can serve as: an array of numbers of one dimension. -/
def asAxis (n : LayoutNode) : Option ArrayView :=
  n.bareArray?.filter fun a => a.dims.length = 1 && a.length ≠ 0 && a.isNumeric

/-- The value array that a layout can serve as: an array of numbers, with elements, of so many
dimensions. -/
def asValue (dimensions : Nat) (n : LayoutNode) : Option ArrayView :=
  n.bareArray?.filter fun a =>
    a.dims.length = dimensions && !a.shape.isEmpty && a.isNumeric

end DebugLayout
