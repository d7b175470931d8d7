import DebugLayout.Proofs.Layout.Expansion

/-!
# DebugLayout — the same type elsewhere

What a type is expanded to depends on the type alone. At another address each node of the tree is
moved by the same distance and nothing else changes, and a type that cannot be expanded at one
address can be expanded at none, for the same reason. Under another name too the tree has the same
shape.

Both statements run two expansions side by side and relate what they end with. A relation between
outcomes passes from the parts to the whole, so that the two proofs have the same shape and differ
in the relation alone.

* `EndAlike`: two operations that end with the same fault or with related values;
* `LayoutNode.shift`: a tree moved by a distance;
* `TypeGraph.expandWith_shift`: the expansion at another address;
* `LayoutNode.outline`: the members of a composite as its shape shows them;
* `TypeGraph.expandWith_keepsShape`: the expansion at another address and under another name;
* `TypeGraph.layout_relocated`: both for the layout of a symbol.
-/

namespace DebugLayout

-- ---------------------------------------------------------------------------
-- Two operations side by side
-- ---------------------------------------------------------------------------

section EndAlike

variable {ε α α' β β' : Type} {R : α → α' → Prop} {S : β → β' → Prop}

/-- Two operations end alike: both with the same fault, or with values that are related. -/
inductive EndAlike (R : α → α' → Prop) : Except ε α → Except ε α' → Prop
  | fault (fault : ε) : EndAlike R (.error fault) (.error fault)
  | value {a : α} {a' : α'} (h : R a a') : EndAlike R (.ok a) (.ok a')

theorem EndAlike.bind {x : Except ε α} {x' : Except ε α'} {f : α → Except ε β}
    {f' : α' → Except ε β'} (hx : EndAlike R x x')
    (hf : ∀ {a a'}, x = .ok a → x' = .ok a' → R a a' → EndAlike S (f a) (f' a')) :
    EndAlike S (x >>= f) (x' >>= f') := by
  cases hx with
  | fault fault => exact .fault fault
  | value h => exact hf rfl rfl h

/-- Two operations that begin with the same step. -/
theorem EndAlike.following {x : Except ε α} {f : α → Except ε β} {f' : α → Except ε β'}
    (hf : ∀ a, x = .ok a → EndAlike S (f a) (f' a)) : EndAlike S (x >>= f) (x >>= f') := by
  cases x with
  | error fault => exact .fault fault
  | ok a => exact hf a rfl

/-- Operations end alike after functions have been applied that keep to the relation. -/
theorem EndAlike.map {x : Except ε α} {x' : Except ε α'} {f : α → β} {f' : α' → β'}
    (hx : EndAlike R x x')
    (hf : ∀ {a a'}, x = .ok a → x' = .ok a' → R a a' → S (f a) (f' a')) :
    EndAlike S (x.map f) (x'.map f') := by
  cases hx with
  | fault fault => exact .fault fault
  | value h => exact .value (hf rfl rfl h)

/-- To end with the value of a function is to be mapped by it. -/
theorem EndAlike.map_eq {f : α → β} {x : Except ε α} {x' : Except ε β}
    (h : EndAlike (fun a b => b = f a) x x') : x' = x.map f := by
  cases h with
  | fault fault => rfl
  | value h => exact congrArg Except.ok h

end EndAlike

-- ---------------------------------------------------------------------------
-- Trees elsewhere
-- ---------------------------------------------------------------------------

/-- The header of a node that is moved. -/
def NodeHeader.shift (distance : Int) (header : NodeHeader) : NodeHeader :=
  { header with address := header.address + distance }

namespace LayoutNode

/-- The tree with all its nodes moved by a distance. -/
def shift (distance : Int) : LayoutNode → LayoutNode
  | scalar leaf => scalar { leaf with toNodeHeader := leaf.toNodeHeader.shift distance }
  | pointer leaf => pointer { leaf with toNodeHeader := leaf.toNodeHeader.shift distance }
  | composite header isUnion alternatives members =>
    composite (header.shift distance) isUnion alternatives (members.map (shift distance))
  | array header shape elementTypeName elements =>
    array (header.shift distance) shape elementTypeName (elements.map (shift distance))

/-- The members of a composite as its shape shows them, relative to some address. -/
def outline (base : Int) (members : List LayoutNode) : List (String × Int × LayoutShape) :=
  members.map fun m => (m.name, m.address - base, m.shape)

theorem outline_append (base : Int) (members rest : List LayoutNode) :
    outline base (members ++ rest) = outline base members ++ outline base rest :=
  List.map_append

/-- Relative to an address further down, the members are further up. -/
theorem outline_add (base offset : Int) (members : List LayoutNode) :
    outline base members =
      (outline (base + offset) members).map fun (name, place, shape) =>
        (name, place + offset, shape) := by
  simp only [outline, List.map_map]
  refine List.map_congr_left fun m _ => ?_
  simp only [Function.comp_apply, Prod.mk.injEq, true_and, and_true]
  omega

theorem shape_scalar {leaf : ScalarLeaf} :
    (scalar leaf).shape =
      .scalar leaf.typeName leaf.byteSize leaf.dataType leaf.bitOffset leaf.bitSize := by
  rw [shape]

theorem shape_pointer {leaf : PointerLeaf} :
    (pointer leaf).shape =
      .pointer leaf.typeName leaf.byteSize leaf.targetName leaf.isFunction := by
  rw [shape]

/-- The shape of a composite shows its members from its own address on. -/
theorem shape_composite {header : NodeHeader} {isUnion : Bool} {alternatives : Nat}
    {members : List LayoutNode} :
    (composite header isUnion alternatives members).shape =
      .composite header.typeName header.byteSize isUnion (outline header.address members) := by
  rw [shape, outline]

/-- The shape of an array shows its first element. -/
theorem shape_array {header : NodeHeader} {arrayShape : ArrayShape} {elementTypeName : String}
    {elements : List LayoutNode} :
    (array header arrayShape elementTypeName elements).shape =
      .array header.typeName header.byteSize arrayShape.dims arrayShape.stride
        (elements.map shape).head? := by
  cases elements <;> rw [shape] <;> rfl

end LayoutNode

open LayoutNode (shift outline shape_scalar shape_pointer shape_composite shape_array)

namespace TypeGraph

variable {g : TypeGraph}

-- ---------------------------------------------------------------------------
-- At another address
-- ---------------------------------------------------------------------------

/-- What is expanded at another address is what is expanded here, moved. -/
def Shifts (distance : Int) (expandType : Expansion) : Prop :=
  ∀ ref address name path, EndAlike (fun n n' => n' = n.shift distance)
    (expandType ref address name path) (expandType ref (address + distance) name path)

/-- To become a member and to move may be done in either order. -/
theorem asMember_shift (distance : Int) (m : Member) (n : LayoutNode) :
    asMember m (n.shift distance) = (asMember m n).shift distance := by
  cases n with
  | scalar leaf =>
    rw [shift, asMember, asMember]
    split <;> rw [shift]
  | pointer leaf => simp only [shift, asMember]
  | composite header isUnion alternatives members => simp only [shift, asMember]
  | array header shape elementTypeName elements => simp only [shift, asMember]

/-- To be spliced in and to move may be done in either order. -/
theorem splice_shift (distance : Int) (n : LayoutNode) :
    splice (n.shift distance) = (splice n).map (shift distance) := by
  cases n <;> rw [shift] <;> rfl

/-- A leaf at another address is the leaf, moved. -/
theorem leaf_shift (distance ref address : Int) (node : TypeNode) (name path : String) :
    EndAlike (fun n n' => n' = n.shift distance) (g.leaf ref node address name path)
      (g.leaf ref node (address + distance) name path) := by
  unfold leaf
  cases node.body with
  | pointer target size isFunction =>
    refine EndAlike.map (R := fun p p' =>
      p' = { p with toNodeHeader := p.toNodeHeader.shift distance }) ?_ ?_
    · exact .following fun signature _ => .value rfl
    · rintro p _ - - rfl
      rw [shift]
  | _ => exact .value (by rw [shift]; rfl)

/-- The elements of an array at another address are its elements, moved. -/
theorem expandElements_shift {distance : Int} {expandType : Expansion}
    (h : Shifts distance expandType) (shape : ArrayShape) (element address : Int) (path : String)
    (positions : List (List Nat)) :
    EndAlike (fun nodes nodes' => nodes' = nodes.map (shift distance))
      (expandElements expandType shape element address path positions)
      (expandElements expandType shape element (address + distance) path positions) := by
  induction positions with
  | nil => exact .value rfl
  | cons position positions ih =>
    rw [expandElements, expandElements]
    refine .bind (R := fun n n' => n' = n.shift distance) ?_ ?_
    · rw [expandElement, expandElement, Int.add_right_comm]
      exact h ..
    · rintro node _ - - rfl
      refine .bind ih ?_
      rintro nodes _ - - rfl
      exact .value rfl

/-- A member of a composite at another address is the member, moved. -/
theorem expandMember_shift {distance : Int} {expandType : Expansion}
    (h : Shifts distance expandType) (isUnion : Bool) (address : Int) (path : String)
    (m : Member) :
    EndAlike (fun nodes nodes' => nodes' = nodes.map (shift distance))
      (expandMember expandType isUnion address path m)
      (expandMember expandType isUnion (address + distance) path m) := by
  -- a member is moved as far as its composite
  have hstart : (if isUnion then address + distance else address + distance + m.byteOffset) =
      (if isUnion then address else address + m.byteOffset) + distance := by
    split
    · rfl
    · rw [Int.add_right_comm]
  unfold expandMember
  simp only [hstart]
  cases m.name with
  | none =>
    refine .map (h ..) ?_
    rintro n _ - - rfl
    exact splice_shift distance n
  | some name =>
    refine .map (h ..) ?_
    rintro n _ - - rfl
    rw [asMember_shift, List.map_singleton]

/-- The members of a composite at another address are its members, moved. -/
theorem expandMembers_shift {distance : Int} {expandType : Expansion}
    (h : Shifts distance expandType) (isUnion : Bool) (address : Int) (path : String)
    (members : List Member) :
    EndAlike (fun nodes nodes' => nodes' = nodes.map (shift distance))
      (expandMembers expandType isUnion address path members)
      (expandMembers expandType isUnion (address + distance) path members) := by
  induction members with
  | nil => exact .value rfl
  | cons m ms ih =>
    rw [expandMembers, expandMembers]
    refine .bind (expandMember_shift h isUnion address path m) ?_
    rintro here _ - - rfl
    refine .bind ih ?_
    rintro rest _ - - rfl
    exact .value List.map_append.symm

/-- Look-ups that end alike by themselves end alike in an expansion. -/
theorem orStop_alike {α : Type} {R : α → α → Prop} {x x' : Except Dangling α}
    (h : EndAlike R x x') : EndAlike R (orStop x) (orStop x') := by
  cases h with
  | fault fault => exact .fault (ExpandStop.dangling fault)
  | value h => exact .value h

/-- At another address a type is expanded to the same tree, moved, or fails in the same way. -/
theorem expandWith_shift (g : TypeGraph) (fold : Folding) (levels : Nat) (distance : Int) :
    Shifts distance (g.expandWith fold levels) := by
  induction levels with
  | zero => exact fun _ _ _ _ => .fault _
  | succ levels ih =>
    intro ref address name path
    rw [expandWith, expandWith]
    refine .following fun node _ => ?_
    cases node.body with
    | array element dims stride size =>
      refine .following fun folded _ => ?_
      obtain ⟨shape, inner⟩ := folded
      refine .following fun size _ => ?_
      -- the shape does not depend on the address, the elements are moved with it
      refine .bind (expandElements_shift ih shape inner address path shape.positions) ?_
      rintro elements _ - - rfl
      exact .value (by rw [shift]; rfl)
    | composite kind size members isClass =>
      refine .bind (expandMembers_shift ih (kind = .union) address path members) ?_
      rintro nodes _ - - rfl
      exact .value (by rw [shift]; rfl)
    | _ => exact orStop_alike (leaf_shift distance ref address node name path)

-- ---------------------------------------------------------------------------
-- Under another name
-- ---------------------------------------------------------------------------

/-- A node is called and lies as it was asked for. -/
def Headed (expandType : Expansion) : Prop :=
  ∀ {ref address name path n}, expandType ref address name path = .ok n →
    n.name = name ∧ n.path = path ∧ n.address = address

/-- A type is expanded to the shape that it has, wherever it lies and whatever it is called. -/
def KeepsShape (expandType : Expansion) : Prop :=
  ∀ ref address address' name name' path path', EndAlike (fun n n' => n'.shape = n.shape)
    (expandType ref address name path) (expandType ref address' name' path')

/-- The shape of a member as it appears in its composite. -/
def shapeAsMember (m : Member) : LayoutShape → LayoutShape
  | .scalar typeName byteSize dataType bitOffset bitSize =>
    if m.isBitfield then .scalar typeName byteSize dataType (m.bitOffset.getD 0) m.bitSize
    else .scalar typeName byteSize dataType bitOffset bitSize
  | shape => shape

/-- As a member a tree has the shape that the member gives it. -/
theorem shape_asMember (m : Member) (n : LayoutNode) :
    (asMember m n).shape = shapeAsMember m n.shape := by
  cases n with
  | scalar leaf =>
    rw [asMember, shape_scalar, shapeAsMember]
    split <;> rw [shape_scalar]
  | pointer leaf => simp only [asMember, shape_pointer, shapeAsMember]
  | composite => simp only [asMember, shape_composite, shapeAsMember]
  | array => simp only [asMember, shape_array, shapeAsMember]

/-- What a shape contributes as a member without name. -/
def spliceShape : LayoutShape → List (String × Int × LayoutShape)
  | .composite _ _ _ members => members
  | _ => []

/-- What is spliced in shows what the shape contributes. -/
theorem outline_splice (n : LayoutNode) :
    outline n.address (splice n) = spliceShape n.shape := by
  cases n with
  | scalar leaf => rw [shape_scalar]; rfl
  | pointer leaf => rw [shape_pointer]; rfl
  | composite header isUnion alternatives members => rw [shape_composite]; rfl
  | array header shape elementTypeName elements => rw [shape_array]; rfl

/-- A leaf has one shape wherever it lies and whatever it is called. -/
theorem leaf_keepsShape (ref address address' : Int) (node : TypeNode)
    (name name' path path' : String) :
    EndAlike (fun n n' => n'.shape = n.shape) (g.leaf ref node address name path)
      (g.leaf ref node address' name' path') := by
  unfold leaf
  cases node.body with
  | pointer target size isFunction =>
    refine EndAlike.map (R := fun p p' : PointerLeaf =>
      (LayoutNode.pointer p').shape = (LayoutNode.pointer p).shape) ?_ fun _ _ h => h
    exact .following fun signature _ => .value (by rw [shape_pointer, shape_pointer])
  | _ => exact .value (by rw [shape_scalar, shape_scalar])

/-- Elements have their shapes wherever they lie and whatever the array is called. -/
theorem expandElements_keepsShape {expandType : Expansion} (h : KeepsShape expandType)
    (shape : ArrayShape) (element address address' : Int) (path path' : String)
    (positions : List (List Nat)) :
    EndAlike (fun nodes nodes' => nodes'.map LayoutNode.shape = nodes.map LayoutNode.shape)
      (expandElements expandType shape element address path positions)
      (expandElements expandType shape element address' path' positions) := by
  induction positions with
  | nil => exact .value rfl
  | cons position positions ih =>
    rw [expandElements, expandElements]
    refine .bind (h ..) ?_
    rintro node node' - - hnode
    refine .bind ih ?_
    rintro nodes nodes' - - hnodes
    exact .value (by rw [List.map_cons, List.map_cons, hnode, hnodes])

/-- A member is shown by its composite under its name, at its distance, in its shape. -/
theorem outline_asMember {m : Member} {n : LayoutNode} {name : String} {base offset : Int}
    (hname : n.name = name) (haddress : n.address = base + offset) :
    outline base [asMember m n] = [(name, offset, shapeAsMember m n.shape)] := by
  have hname' : (asMember m n).name = name := by rw [LayoutNode.name, asMember_header]; exact hname
  have haddress' : (asMember m n).address - base = offset := by
    rw [LayoutNode.address, asMember_header, ← LayoutNode.address, haddress]
    omega
  rw [outline, List.map_singleton, hname', haddress', shape_asMember]

/-- A member shows the same wherever the composite lies and whatever it is called. -/
theorem expandMember_keepsShape {expandType : Expansion} (hheader : Headed expandType)
    (h : KeepsShape expandType) (isUnion : Bool) (address address' : Int) (path path' : String)
    (m : Member) :
    EndAlike (fun nodes nodes' => outline address' nodes' = outline address nodes)
      (expandMember expandType isUnion address path m)
      (expandMember expandType isUnion address' path' m) := by
  -- both start at the same distance from their composite
  obtain ⟨offset, hoffset⟩ : ∃ offset, ∀ base : Int,
      (if isUnion then base else base + m.byteOffset) = base + offset := by
    cases isUnion with
    | true => exact ⟨0, fun base => by simp⟩
    | false => exact ⟨m.byteOffset, fun base => by simp⟩
  unfold expandMember
  simp only [hoffset]
  cases m.name with
  | none =>
    refine .map (h ..) ?_
    rintro n n' hn hn' hshape
    -- the outline is taken from the composite, from which the unnamed member is the offset away
    obtain ⟨-, -, haddress⟩ := hheader hn
    obtain ⟨-, -, haddress'⟩ := hheader hn'
    rw [LayoutNode.outline_add address offset, LayoutNode.outline_add address' offset, ← haddress,
      ← haddress', outline_splice, outline_splice, hshape]
  | some name =>
    refine .map (h ..) ?_
    rintro n n' hn hn' hshape
    obtain ⟨hname, -, haddress⟩ := hheader hn
    obtain ⟨hname', -, haddress'⟩ := hheader hn'
    rw [outline_asMember hname haddress, outline_asMember hname' haddress', hshape]

/-- The members show the same wherever the composite lies and whatever it is called. -/
theorem expandMembers_keepsShape {expandType : Expansion} (hheader : Headed expandType)
    (h : KeepsShape expandType) (isUnion : Bool) (address address' : Int) (path path' : String)
    (members : List Member) :
    EndAlike (fun nodes nodes' => outline address' nodes' = outline address nodes)
      (expandMembers expandType isUnion address path members)
      (expandMembers expandType isUnion address' path' members) := by
  induction members with
  | nil => exact .value rfl
  | cons m ms ih =>
    rw [expandMembers, expandMembers]
    refine .bind (expandMember_keepsShape hheader h isUnion address address' path path' m) ?_
    rintro here here' - - hhere
    refine .bind ih ?_
    rintro rest rest' - - hrest
    exact .value (by rw [LayoutNode.outline_append, LayoutNode.outline_append, hhere, hrest])

/-- At another address and under another name a type is expanded to the same shape, or fails in the
same way. -/
theorem expandWith_keepsShape (g : TypeGraph) (fold : Folding) (levels : Nat) :
    KeepsShape (g.expandWith fold levels) := by
  induction levels with
  | zero => exact fun _ _ _ _ _ _ _ => .fault _
  | succ levels ih =>
    intro ref address address' name name' path path'
    have hheader : Headed (g.expandWith fold levels) := header_of_expandWith
    rw [expandWith, expandWith]
    refine .following fun node _ => ?_
    cases node.body with
    | array element dims stride size =>
      refine .following fun folded _ => ?_
      obtain ⟨shape, inner⟩ := folded
      refine .following fun size _ => ?_
      refine .bind (expandElements_keepsShape ih shape inner address address' path path' _) ?_
      rintro elements elements' - - helements
      exact .value (by rw [shape_array, shape_array, helements])
    | composite kind size members isClass =>
      refine .bind (expandMembers_keepsShape hheader ih _ address address' path path' members) ?_
      rintro nodes nodes' - - hnodes
      exact .value (by rw [shape_composite, shape_composite, hnodes])
    | _ => exact orStop_alike (leaf_keepsShape ref address address' node name name' path path')

-- ---------------------------------------------------------------------------
-- The layout of a symbol
-- ---------------------------------------------------------------------------

/-- The layout of a symbol at another address is the same but that all its nodes are moved, and
fails in the same way; whatever the addresses and the names of two symbols of a type, both have
layouts of the same shape or neither has one. -/
theorem layout_relocated (g : TypeGraph) (depth : Nat) (ref a b : Int) (name name' : String) :
    g.layout depth ref b name = (g.layout depth ref a name).map (shift (b - a)) ∧
      (g.layout depth ref b name').toOption.map LayoutNode.shape =
        (g.layout depth ref a name).toOption.map LayoutNode.shape := by
  have hb : a + (b - a) = b := by omega
  unfold layout layoutWith
  constructor
  · have h := expandWith_shift g g.foldAll (depth + 1) (b - a) ref a name name
    rw [hb] at h
    rw [h.map_eq]
    cases g.expandWith g.foldAll (depth + 1) ref a name name with
    | ok n => rfl
    | error fault => cases fault <;> rfl
  · have h := expandWith_keepsShape g g.foldAll (depth + 1) ref a b name name' name name'
    -- both stop in the same way, or have layouts of one shape
    revert h
    generalize g.expandWith g.foldAll (depth + 1) ref a name name = x
    generalize g.expandWith g.foldAll (depth + 1) ref b name' name' = x'
    rintro (fault | h)
    · cases fault <;> rfl
    · exact congrArg some h

end TypeGraph

end DebugLayout
