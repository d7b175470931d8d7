import DebugLayout.Layout.Node
import DebugLayout.TypeGraph.Basic
import DebugLayout.Value

/-!
# DebugLayout — expanding a type into a layout

The type of a symbol is **expanded** at the address of the symbol: composites into their members,
arrays into their elements, down to scalars and pointers, which are never followed. An array whose
elements are arrays that lie without gaps is one array of more dimensions. The expansion is limited
in depth, so that a type that contains itself is an error.

* `TypeGraph.foldNested`: the dimensions of arrays of arrays;
* `TypeGraph.expandWith`: the layout of a type within so many levels, with some folding of arrays;
* `TypeGraph.layout`: the layout of a symbol.
-/

namespace DebugLayout

/-- Why a type cannot be expanded. -/
inductive ExpandStop
  | dangling (fault : Dangling)
  | tooDeep
  | shape (fault : ShapeFault)
  deriving DecidableEq

/-- Why a symbol has no layout. -/
inductive LayoutFault
  | tooDeep (name : String) (depth : Nat)
  | unresolved (name : String) (fault : Dangling)
  | shape (fault : ShapeFault)
  deriving DecidableEq

/-- The wording of a fault. -/
def LayoutFault.message : LayoutFault → String
  | tooDeep name depth =>
    s!"Layout of \"" ++ name ++ s!"\" is nested deeper than {depth} levels. Malformed type graph?"
  | unresolved name fault =>
    "Layout of \"" ++ name ++ "\" cannot be resolved. Type <" ++ Text.hexLower fault.ref ++
      "> is not in the type graph"
  | shape fault => fault.message

/-- A limit of the depth that is no positive integer. -/
structure DepthFault where
  deriving DecidableEq

/-- The wording of a limit that is none. -/
def DepthFault.message (_ : DepthFault) : String := "max_depth must be a positive integer"

/-- The limit that a value is. -/
def readDepth (v : Value) : Except DepthFault Nat :=
  match v.int? with
  | some n => if n < 1 then .error {} else .ok n.toNat
  | none => .error {}

/-- The limit that is used when none is given. -/
def defaultDepth : Nat := 64

namespace TypeGraph

/-- Turns a dangling reference into a reason to stop. -/
def orStop {α : Type} : Except Dangling α → Except ExpandStop α
  | .ok a => .ok a
  | .error fault => .error (.dangling fault)

/-- The dimensions, the innermost elements and their stride of an array of arrays. The dimensions of
an inner array are appended as long as it has elements and leaves no gap in the outer one. -/
def foldNested (g : TypeGraph) :
    Nat → List Int → Int → Option Int → Except Dangling (List Int × Int × Option Int)
  | 0, dims, element, stride => .ok (dims, element, stride)
  | levels + 1, dims, element, stride => do
    let inner ← g.resolve element
    match inner.body with
    | .array innerElement innerDims explicit _ =>
      if innerDims.contains 0 then return (dims, element, stride)
      match ← g.arrayStride innerElement explicit with
      | none => return (dims, element, stride)
      | some innerStride =>
        if stride = some (innerStride * elementCount innerDims) then
          foldNested g levels (dims ++ innerDims) innerElement (some innerStride)
        else return (dims, element, stride)
    | _ => return (dims, element, stride)

/-- How arrays of arrays are folded: from the dimensions, the elements and the stride of the outer
array to those of a single one. -/
abbrev Folding := List Int → Int → Option Int → Except Dangling (List Int × Int × Option Int)

/-- The shape of an array and the type of its elements, once it is folded. -/
def arrayShape (g : TypeGraph) (fold : Folding) (element : Int) (dims : List Int)
    (stride : Option Int) : Except ExpandStop (ArrayShape × Int) := do
  let stride ← orStop (g.arrayStride element stride)
  let (dims, element, stride) ← orStop (fold dims element stride)
  match ArrayShape.ofInts dims (stride.getD 0) with
  | .error fault => throw (.shape fault)
  | .ok shape => return (shape, element)

/-- The reference of the signature that a pointer to a function points to. -/
def signature? (g : TypeGraph) (target : Option Int) (isFunction : Bool) :
    Except Dangling (Option Int) :=
  match isFunction, target with
  | true, some ref => do
    let pointed ← g.get ref
    match pointed.body with
    | .signature .. => return some pointed.ref
    | _ => return none
  | _, _ => .ok none

/-- The leaf of a pointer. -/
def pointerLeaf (g : TypeGraph) (header : NodeHeader) (node : TypeNode) (target : Option Int)
    (isFunction : Bool) : Except Dangling PointerLeaf := do
  let signature ← g.signature? target isFunction
  return { header with
    typeName := some (header.typeName.getD (g.describe node.ref))
    targetName := g.describe? target
    isFunction, signature }

/-- The leaf of a type that has no parts. -/
def leaf (g : TypeGraph) (ref : Int) (node : TypeNode) (address : Int) (name path : String) :
    Except Dangling LayoutNode :=
  let typeName := g.typeName? ref
  let scalar (size : Int) (typeName : Option String) (type : DataType) (enumRef : Option Int) :
      LayoutNode :=
    .scalar ⟨⟨name, path, address, size, typeName⟩, type, 0, none, enumRef⟩
  match node.body with
  | .scalar _ size type => .ok (scalar size typeName type none)
  | .enum size type _ => .ok (scalar size typeName type (some node.ref))
  | .pointer target size isFunction _ =>
    (g.pointerLeaf ⟨name, path, address, size, typeName⟩ node target isFunction).map .pointer
  | body =>
    .ok (scalar (body.byteSize?.getD 0) (some (typeName.getD (g.describe ref))) .unknown none)

/-- How a type is expanded: by its reference, an address, a name and a path. -/
abbrev Expansion := Int → Int → String → String → Except ExpandStop LayoutNode

/-- A member as it appears in its composite: a bitfield takes its place in the storage unit. -/
def asMember (m : Member) : LayoutNode → LayoutNode
  | .scalar leaf =>
    if m.isBitfield then
      .scalar { leaf with bitOffset := m.bitOffset.getD 0, bitSize := m.bitSize }
    else .scalar leaf
  | n => n

/-- What a member without name contributes to the composite around it. -/
def splice : LayoutNode → List LayoutNode
  | .composite _ _ _ members => members
  | _ => []

/-- The nodes that a member contributes to its composite. -/
def expandMember (expandType : Expansion) (isUnion : Bool) (address : Int) (path : String)
    (m : Member) : Except ExpandStop (List LayoutNode) :=
  let start := if isUnion then address else address + m.byteOffset
  match m.name with
  | none => (expandType m.typeRef start "" path).map splice
  | some name =>
    (expandType m.typeRef start name (path ++ "." ++ name)).map fun node => [asMember m node]

/-- The nodes of the members of a composite. -/
def expandMembers (expandType : Expansion) (isUnion : Bool) (address : Int) (path : String) :
    List Member → Except ExpandStop (List LayoutNode)
  | [] => .ok []
  | m :: ms => do
    let here ← expandMember expandType isUnion address path m
    let rest ← expandMembers expandType isUnion address path ms
    return here ++ rest

/-- The node of the element of an array at a position. -/
def expandElement (expandType : Expansion) (shape : ArrayShape) (element address : Int)
    (path : String) (position : List Nat) : Except ExpandStop LayoutNode :=
  let offset := ArrayShape.rowMajor shape.dims position * shape.stride
  let name := ArrayShape.brackets position
  expandType element (address + offset) name (path ++ name)

/-- The nodes of the elements of an array. -/
def expandElements (expandType : Expansion) (shape : ArrayShape) (element address : Int)
    (path : String) : List (List Nat) → Except ExpandStop (List LayoutNode)
  | [] => .ok []
  | position :: positions => do
    let node ← expandElement expandType shape element address path position
    let rest ← expandElements expandType shape element address path positions
    return node :: rest

/-- The layout of a type within so many levels, with some folding of arrays. -/
def expandWith (g : TypeGraph) (fold : Folding) : Nat → Expansion
  | 0, _, _, _, _ => .error .tooDeep
  | levels + 1, ref, address, name, path => do
    let node ← orStop (g.resolve ref)
    match node.body with
    | .array element dims stride _ => do
      let (shape, inner) ← g.arrayShape fold element dims stride
      let size ← orStop (g.byteSize ref)
      let elements ←
        expandElements (expandWith g fold levels) shape inner address path shape.positions
      return .array ⟨name, path, address, size.getD shape.byteSize, g.typeName? ref⟩ shape
        (g.describe inner) elements
    | .composite kind size members _ => do
      let isUnion := kind = .union
      let nodes ← expandMembers (expandWith g fold levels) isUnion address path members
      let typeName := (g.typeName? ref).getD (g.describe node.ref)
      return .composite ⟨name, path, address, size.getD 0, some typeName⟩ isUnion
        (if isUnion then members.length else 0) nodes
    | _ => orStop (g.leaf ref node address name path)

/-- The folding of all arrays that lie without gaps. There are no more of them than nodes. -/
def foldAll (g : TypeGraph) : Folding := g.foldNested (g.nodes.size + 1)

/-- The layout of a symbol of some type at some address, with some folding of arrays. -/
def layoutWith (g : TypeGraph) (fold : Folding) (depth : Nat) (ref address : Int) (name : String) :
    Except LayoutFault LayoutNode :=
  match g.expandWith fold (depth + 1) ref address name name with
  | .ok node => .ok node
  | .error (.dangling fault) => .error (.unresolved name fault)
  | .error .tooDeep => .error (.tooDeep name depth)
  | .error (.shape fault) => .error (.shape fault)

/-- The layout of a symbol of some type at some address. -/
def layout (g : TypeGraph) (depth : Nat) (ref address : Int) (name : String) :
    Except LayoutFault LayoutNode :=
  g.layoutWith g.foldAll depth ref address name

end TypeGraph

end DebugLayout
