import DebugLayout.Scalar.Encoding

/-!
# DebugLayout — type nodes

A type of the program is a **node**: a reference, a name if it has one, and what kind of type it
is. Nodes name one another by reference, so that a type may refer to itself through a pointer.

Typedefs and qualifiers are no nodes; see the type graph. A node of the kind `placeholder` stands
for a composite whose members are being read.

* `TypeNode`, `TypeBody`: the nodes;
* `Member`: the members of composites;
* `TypeNode.byteSize?`: the size that a node gives by itself.
-/

namespace DebugLayout

/-- A data member of a struct or a union. One without a name is an anonymous aggregate or a base
class. The bit offset counts from the least significant bit of the storage unit. -/
structure Member where
  name : Option String
  typeRef : Int
  byteOffset : Int
  bitOffset : Option Int
  bitSize : Option Int
  isBaseClass : Bool
  deriving DecidableEq, Repr

/-- The two kinds of composites. -/
inductive CompositeKind
  | struct
  | union
  deriving DecidableEq, Repr

/-- The kinds of types, with what is known of each. -/
inductive TypeBody
  /-- A base type; its encoding may be unknown. -/
  | scalar (encoding : Option Encoding) (byteSize : Int) (dataType : DataType)
  | enum (byteSize : Int) (dataType : DataType) (enumerators : List (String × Int))
  /-- A pointer or reference; one without target points to nothing in particular. -/
  | pointer (target : Option Int) (byteSize : Int) (isFunction isReference : Bool)
  /-- An array; its stride is the size of its elements unless it is given. -/
  | array (element : Int) (dims : List Int) (stride byteSize : Option Int)
  | composite (kind : CompositeKind) (byteSize : Option Int) (members : List Member)
      (isClass : Bool)
  /-- The signature of a function; one without result returns nothing. -/
  | signature (result : Option Int) (parameters : List Int) (isVariadic : Bool)
  | void
  /-- A type of which nothing is known but perhaps its size. -/
  | unspecified (byteSize : Option Int)
  | placeholder
  deriving DecidableEq, Repr

/-- A node of the type graph. -/
structure TypeNode where
  ref : Int
  name : Option String
  body : TypeBody
  deriving DecidableEq, Repr

namespace Member

/-- Whether the member is a field of bits. -/
def isBitfield (m : Member) : Bool := m.bitSize.isSome

end Member

namespace TypeBody

/-- Whether the type is still being read. -/
def isPlaceholder : TypeBody → Bool
  | placeholder => true
  | _ => false

/-- Whether the type is made of members. -/
def isComposite : TypeBody → Bool
  | composite .. => true
  | _ => false

/-- The size that a type gives by itself. -/
def byteSize? : TypeBody → Option Int
  | scalar _ size _ | enum size _ _ | pointer _ size _ _ => some size
  | array _ _ _ size | composite _ size _ _ | unspecified size => size
  | void => some 0
  | signature .. | placeholder => none

/-- The member of a name. -/
def member? (body : TypeBody) (name : String) : Option Member :=
  match body with
  | composite _ _ members _ => members.find? (·.name = some name)
  | _ => none

/-- The name of the first enumerator with a value. -/
def valueName? (body : TypeBody) (value : Int) : Option String :=
  match body with
  | enum _ _ enumerators => (enumerators.find? (·.2 = value)).map (·.1)
  | _ => none

/-- Whether some enumerator is below zero. -/
def hasNegativeValue (body : TypeBody) : Bool :=
  match body with
  | enum _ _ enumerators => enumerators.any (·.2 < 0)
  | _ => false

end TypeBody

namespace TypeNode

/-- The size that a node gives by itself. -/
def byteSize? (n : TypeNode) : Option Int := n.body.byteSize?

/-- Whether the node stands for a type that is still being read. -/
def isPlaceholder (n : TypeNode) : Bool := n.body.isPlaceholder

end TypeNode

end DebugLayout
