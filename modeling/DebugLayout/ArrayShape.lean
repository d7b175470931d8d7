/-!
# DebugLayout — shapes of arrays

The **shape** of an array is its dimensions, at least one, and its stride, the distance in bytes
between two neighbouring elements. Elements are stored in row-major order: the last index varies
fastest. A dimension of zero belongs to an array of unknown bound, which has no elements.

* `ArrayShape`, `ArrayShape.ofInts`: the shapes, and their construction from unchecked numbers;
* `ArrayShape.positions`: the positions of the elements, in storage order;
* `ArrayShape.indexOf`: the place of a position in that order.
-/

namespace DebugLayout

/-- The dimensions and the stride of an array. -/
structure ArrayShape where
  dims : List Nat
  stride : Nat
  dims_ne_nil : dims ≠ []
  deriving DecidableEq

/-- Why numbers make no shape. -/
inductive ShapeFault
  | noDimensions
  | negativeDimension (dim : Int)
  | negativeStride (stride : Int)
  deriving DecidableEq, Repr

/-- Why an array has no element at a position. -/
inductive PositionFault
  | rankMismatch
  | outOfBounds
  deriving DecidableEq, Repr

/-- The wording of a fault of a shape. -/
def ShapeFault.message : ShapeFault → String
  | noDimensions => "No dimensions set"
  | negativeDimension dim => s!"Invalid dimension {dim}"
  | negativeStride stride => s!"Invalid stride {stride}"

/-- The wording of a fault of a position. -/
def PositionFault.message : PositionFault → String
  | rankMismatch => "Shape mismatch"
  | outOfBounds => "Index out of bound"

namespace ArrayShape

/-- The shape with some dimensions and stride, none of which may be negative. -/
def ofInts (dims : List Int) (stride : Int) : Except ShapeFault ArrayShape :=
  match dims with
  | [] => .error .noDimensions
  | d :: ds =>
    match (d :: ds).find? (· < 0) with
    | some bad => .error (.negativeDimension bad)
    | none =>
      if stride < 0 then .error (.negativeStride stride)
      else .ok ⟨(d :: ds).map Int.toNat, stride.toNat, by simp⟩

/-- The number of positions within some dimensions. -/
def countOf : List Nat → Nat
  | [] => 1
  | d :: ds => d * countOf ds

/-- The number of elements. -/
def count (s : ArrayShape) : Nat := countOf s.dims

/-- The bytes from the start of the first element to the end of the last one, padding included. -/
def byteSize (s : ArrayShape) : Nat := s.count * s.stride

/-- Whether there are no elements. -/
def isEmpty (s : ArrayShape) : Bool := s.count = 0

/-- The positions within some dimensions, the last index varying fastest. -/
def positionsOf : List Nat → List (List Nat)
  | [] => [[]]
  | d :: ds => (List.range d).flatMap fun i => (positionsOf ds).map (i :: ·)

/-- The positions of the elements, in storage order. -/
def positions (s : ArrayShape) : List (List Nat) := positionsOf s.dims

/-- The row-major index of a position: each index weighs the number of positions within the later
dimensions. -/
def rowMajor : List Nat → List Nat → Nat
  | _ :: ds, i :: is => i * countOf ds + rowMajor ds is
  | _, _ => 0

/-- Whether each index is within its dimension. -/
def inBounds : List Nat → List Int → Bool
  | d :: ds, i :: is => 0 ≤ i && i < d && inBounds ds is
  | [], [] => true
  | _, _ => false

/-- The index of the element at a position, in storage order. -/
def indexOf (s : ArrayShape) (position : List Int) : Except PositionFault Nat :=
  if position.length ≠ s.dims.length then .error .rankMismatch
  else if !inBounds s.dims position then .error .outOfBounds
  else .ok (rowMajor s.dims (position.map Int.toNat))

/-- The distance in bytes of the element at a position from the start of the array. -/
def byteOffsetOf (s : ArrayShape) (position : List Int) : Except PositionFault Nat :=
  (s.indexOf position).map (· * s.stride)

/-- Indices in brackets, as element names and array types show them. -/
def brackets (indices : List Nat) : String :=
  String.join (indices.map fun i => s!"[{i}]")

/-- A description of the shape. -/
def describe (s : ArrayShape) : String :=
  s!"<ArrayShape {brackets s.dims} stride={s.stride}>"

end ArrayShape

end DebugLayout
