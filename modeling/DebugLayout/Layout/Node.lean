import DebugLayout.ArrayShape
import DebugLayout.Scalar.DataType

/-!
# DebugLayout — layout trees

The **layout** of a symbol is the tree of everything that it is made of, at absolute addresses:
scalars and pointers at the leaves, composites and arrays above them. Members of anonymous
aggregates and of base classes appear as members of the composite around them.

* `LayoutNode`: the trees, with `ScalarLeaf` and `PointerLeaf` at their leaves;
* `LayoutNode.leaves`, `nodes`: what a tree holds, in memory layout order;
* `LayoutNode.shape`: the structure of a tree without its addresses;
* `LayoutNode.bitfieldUnits`: the bitfields of a composite by storage unit.
-/

namespace DebugLayout

/-- What all nodes have: a name (of the symbol or member, or indices in brackets), the path from the
symbol, an address, a size and the name of the type. -/
structure NodeHeader where
  name : String
  path : String
  address : Int
  byteSize : Int
  typeName : Option String
  deriving DecidableEq, Repr

/-- A scalar. Only a bitfield has a size in bits; its offset counts from the least significant bit
of its storage unit. A scalar of an enumeration knows the reference of its type. -/
structure ScalarLeaf extends NodeHeader where
  dataType : DataType
  bitOffset : Int
  bitSize : Option Int
  enumRef : Option Int
  deriving DecidableEq, Repr

/-- A pointer, of which only its own storage is described. A pointer to a function knows the
reference of its signature. -/
structure PointerLeaf extends NodeHeader where
  targetName : String
  isFunction : Bool
  signature : Option Int
  deriving DecidableEq, Repr

/-- A leaf of a layout. -/
inductive Leaf
  | scalar (leaf : ScalarLeaf)
  | pointer (leaf : PointerLeaf)
  deriving DecidableEq, Repr

/-- A layout tree. A union knows how many members it declares. -/
inductive LayoutNode
  | scalar (leaf : ScalarLeaf)
  | pointer (leaf : PointerLeaf)
  | composite (header : NodeHeader) (isUnion : Bool) (alternatives : Nat)
      (members : List LayoutNode)
  | array (header : NodeHeader) (shape : ArrayShape) (elementTypeName : String)
      (elements : List LayoutNode)

namespace ScalarLeaf

/-- Whether the scalar is a bitfield. -/
def isBitfield (leaf : ScalarLeaf) : Bool := leaf.bitSize.isSome

/-- The bits that the scalar takes. -/
def bitWidth (leaf : ScalarLeaf) : Int := leaf.bitSize.getD (leaf.byteSize * 8)

/-- Whether the scalar can hold a calibration value. -/
def isNumeric (leaf : ScalarLeaf) : Bool := leaf.dataType.isNumeric

end ScalarLeaf

/-- The bits that a pointer takes. -/
def PointerLeaf.bitWidth (leaf : PointerLeaf) : Int := leaf.byteSize * 8

/-- The structure of a layout without its addresses: member offsets take their place, and of an
array only the first element counts. -/
inductive LayoutShape
  | scalar (typeName : Option String) (byteSize : Int) (dataType : DataType) (bitOffset : Int)
      (bitSize : Option Int)
  | pointer (typeName : Option String) (byteSize : Int) (targetName : String) (isFunction : Bool)
  | composite (typeName : Option String) (byteSize : Int) (isUnion : Bool)
      (members : List (String × Int × LayoutShape))
  | array (typeName : Option String) (byteSize : Int) (dims : List Nat) (stride : Nat)
      (first : Option LayoutShape)

/-- The bitfields that share a storage unit. -/
structure BitfieldUnit where
  address : Int
  byteSize : Int
  fields : List ScalarLeaf
  deriving DecidableEq, Repr

namespace BitfieldUnit

/-- The bits that the fields take. -/
def usedBits (u : BitfieldUnit) : Int := u.fields.foldr (fun leaf bits => leaf.bitWidth + bits) 0

/-- The bits that are left. -/
def paddingBits (u : BitfieldUnit) : Int := u.byteSize * 8 - u.usedBits

end BitfieldUnit

namespace LayoutNode

/-- What the node has in common with all nodes. -/
def header : LayoutNode → NodeHeader
  | scalar leaf => leaf.toNodeHeader
  | pointer leaf => leaf.toNodeHeader
  | composite header .. => header
  | array header .. => header

/-- The name of the node. -/
def name (n : LayoutNode) : String := n.header.name

/-- The path of the node from the symbol. -/
def path (n : LayoutNode) : String := n.header.path

/-- The address of the node. -/
def address (n : LayoutNode) : Int := n.header.address

/-- The size of the node. -/
def byteSize (n : LayoutNode) : Int := n.header.byteSize

/-- The name of the type of the node. -/
def typeName (n : LayoutNode) : Option String := n.header.typeName

/-- The nodes directly under the node. -/
def children : LayoutNode → List LayoutNode
  | scalar _ | pointer _ => []
  | composite _ _ _ members => members
  | array _ _ _ elements => elements

/-- The scalars and pointers of the tree, in layout order. -/
def leaves : LayoutNode → List Leaf
  | scalar leaf => [.scalar leaf]
  | pointer leaf => [.pointer leaf]
  | composite _ _ _ members => members.flatMap leaves
  | array _ _ _ elements => elements.flatMap leaves

/-- The nodes of the tree, each before those under it. -/
def nodes : LayoutNode → List LayoutNode
  | scalar leaf => [scalar leaf]
  | pointer leaf => [pointer leaf]
  | composite header isUnion alternatives members =>
    composite header isUnion alternatives members :: members.flatMap nodes
  | array header shape elementTypeName elements =>
    array header shape elementTypeName elements :: elements.flatMap nodes

/-- The structure of the tree without its addresses. -/
def shape : LayoutNode → LayoutShape
  | scalar leaf =>
    .scalar leaf.typeName leaf.byteSize leaf.dataType leaf.bitOffset leaf.bitSize
  | pointer leaf => .pointer leaf.typeName leaf.byteSize leaf.targetName leaf.isFunction
  | composite header isUnion _ members =>
    .composite header.typeName header.byteSize isUnion
      (members.map fun m => (m.name, m.address - header.address, m.shape))
  | array header shape_ _ elements =>
    .array header.typeName header.byteSize shape_.dims shape_.stride
      (match elements with
        | [] => none
        | first :: _ => some first.shape)

/-- The first member of a name. -/
def member? (n : LayoutNode) (name : String) : Option LayoutNode :=
  match n with
  | composite _ _ _ members => members.find? (·.name = name)
  | _ => none

/-- The data type of the elements of an array of plain scalars. -/
def elementType? : LayoutNode → Option DataType
  | array _ _ _ (scalar leaf :: _) => if leaf.isBitfield then none else some leaf.dataType
  | _ => none

/-- Puts a bitfield with the others of its storage unit, or in a unit of its own after them. -/
def addField (leaf : ScalarLeaf) : List BitfieldUnit → List BitfieldUnit
  | [] => [⟨leaf.address, leaf.byteSize, [leaf]⟩]
  | u :: us =>
    if u.address = leaf.address ∧ u.byteSize = leaf.byteSize then
      { u with fields := u.fields ++ [leaf] } :: us
    else u :: addField leaf us

/-- The bitfields directly in a composite, in declaration order. -/
def bitfields (n : LayoutNode) : List ScalarLeaf :=
  match n with
  | composite _ _ _ members => members.filterMap fun m =>
    match m with
    | scalar leaf => if leaf.isBitfield then some leaf else none
    | _ => none
  | _ => []

/-- The bitfields directly in a composite, by storage unit and by increasing address. -/
def bitfieldUnits (n : LayoutNode) : List BitfieldUnit :=
  (n.bitfields.foldl (fun units leaf => addField leaf units) []).mergeSort
    (fun u v => u.address ≤ v.address)

end LayoutNode

end DebugLayout
