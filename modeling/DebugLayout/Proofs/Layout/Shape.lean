import DebugLayout.Proofs.Layout.Find
import DebugLayout.Proofs.Layout.Relocation
import Mathlib.Data.List.Forall2

/-!
# DebugLayout — what a shape tells

The shape of a tree shows the members of a composite with their names and offsets, but only the
first element of an array. Nothing is lost by that in a layout: the elements of an array all have
one shape, and their places follow from the dimensions and the stride. Two layouts of the same
shape, of whatever types, therefore have the same leaves in the same order, but for where the
layouts lie and what they are called.

The leaves of the two trees are compared by induction over the first one. The children correspond
because the shapes of composites list them, and because in an array each element is where its
position says, with the shape of the first.

* `Leaf.Corresponds`: leaves that are the same relative to their trees;
* `LayoutNode.Repeats`: arrays whose elements have one shape and lie where they must;
* `TypeGraph.repeats_of_expandWith`: the arrays of a layout are such;
* `LayoutNode.OneShape`: how two trees can have one shape;
* `LayoutNode.forall₂_children`, `forall₂_leaves`: the children and the leaves of such trees;
* `TypeGraph.leaves_of_shape_eq`: the leaves of layouts of one shape.
-/

namespace DebugLayout

open LayoutNode (shape_scalar shape_pointer shape_composite shape_array)

/-- What the leaf has in common with all nodes. -/
def Leaf.header : Leaf → NodeHeader
  | scalar leaf => leaf.toNodeHeader
  | pointer leaf => leaf.toNodeHeader

theorem Leaf.address_eq (leaf : Leaf) : leaf.address = leaf.header.address := by
  cases leaf <;> rfl

/-- Whether two leaves hold the same: both a scalar of a data type in some of its bits, or both a
pointer to a target. -/
inductive Leaf.HoldsSame : Leaf → Leaf → Prop
  | scalar {s t : ScalarLeaf} (dataType : s.dataType = t.dataType)
      (bitOffset : s.bitOffset = t.bitOffset) (bitSize : s.bitSize = t.bitSize) :
      HoldsSame (.scalar s) (.scalar t)
  | pointer {p q : PointerLeaf} (targetName : p.targetName = q.targetName)
      (isFunction : p.isFunction = q.isFunction) : HoldsSame (.pointer p) (.pointer q)

/-- Whether a leaf of a tree corresponds to one of another tree: at the same path and the same
distance from the root, with the same size and name of the type, they hold the same. -/
structure Leaf.Corresponds (n m : LayoutNode) (a b : Leaf) : Prop where
  path : ∃ relative, a.header.path = n.path ++ relative ∧ b.header.path = m.path ++ relative
  address : a.address - n.address = b.address - m.address
  byteSize : a.header.byteSize = b.header.byteSize
  typeName : a.header.typeName = b.header.typeName
  same : a.HoldsSame b

/-- Leaves that hold the same correspond if they are the trees themselves. -/
theorem Leaf.HoldsSame.corresponds {n m : LayoutNode} {a b : Leaf} (h : a.HoldsSame b)
    (hn : a.header = n.header) (hm : b.header = m.header)
    (hbyteSize : a.header.byteSize = b.header.byteSize)
    (htypeName : a.header.typeName = b.header.typeName) : Leaf.Corresponds n m a b where
  path := ⟨"", by rw [hn, String.append_empty, LayoutNode.path],
    by rw [hm, String.append_empty, LayoutNode.path]⟩
  address := by
    rw [a.address_eq, b.address_eq, hn, hm, LayoutNode.address, LayoutNode.address, Int.sub_self,
      Int.sub_self]
  byteSize := hbyteSize
  typeName := htypeName
  same := h

-- ---------------------------------------------------------------------------
-- Arrays
-- ---------------------------------------------------------------------------

namespace LayoutNode

/-- Whether the elements of an array all have one shape, and each is at the path and the address of
its position. -/
def Repeats : LayoutNode → Prop
  | array header shape _ elements =>
    List.Forall₂ (fun p c => c.path = header.path ++ ArrayShape.brackets p ∧
      c.address = header.address + ArrayShape.rowMajor shape.dims p * shape.stride)
      shape.positions elements ∧
    ∀ c ∈ elements, ∀ d ∈ elements, c.shape = d.shape
  | _ => True

end LayoutNode

namespace TypeGraph

variable {g : TypeGraph} {fold : Folding} {levels : Nat} {ref address : Int} {name path : String}
variable {n : LayoutNode}

/-- A type has one shape wherever it lies and whatever it is called. -/
theorem shape_of_expandWith {address' : Int} {name' path' : String} {n' : LayoutNode}
    (h : g.expandWith fold levels ref address name path = .ok n)
    (h' : g.expandWith fold levels ref address' name' path' = .ok n') : n.shape = n'.shape := by
  have halike := expandWith_keepsShape g fold levels ref address address' name name' path path'
  rw [h, h'] at halike
  cases halike with
  | value hshape => exact hshape.symm

theorem repeats_asMember {m : Member} (h : ∀ c ∈ n.nodes, c.Repeats) :
    ∀ c ∈ (asMember m n).nodes, c.Repeats := by
  cases n with
  | scalar leaf =>
    rw [asMember]
    split
    · simp [LayoutNode.nodes, LayoutNode.Repeats]
    · exact h
  | pointer | composite | array => exact h

/-- The elements of each array of a layout have one shape and lie where they must. -/
theorem repeats_of_expandWith (h : g.expandWith fold levels ref address name path = .ok n) :
    ∀ m ∈ n.nodes, m.Repeats := by
  induction levels generalizing ref address name path n with
  | zero => exact absurd h (by simp [expandWith])
  | succ levels ih =>
    rw [LayoutNode.forall_nodes_iff]
    cases expandWith_succ_iff.1 h with
    | leaf _ _ _ hleaf =>
      obtain ⟨leaf, rfl⟩ | ⟨leaf, rfl⟩ := leaf_cases hleaf
      · exact ⟨trivial, by simp [LayoutNode.children]⟩
      · exact ⟨trivial, by simp [LayoutNode.children]⟩
    | array _ _ _ _ helements =>
      refine ⟨⟨helements.imp fun p c hc => (header_of_expandWith hc).2, ?_⟩, ?_⟩
      · -- both elements are expanded from one type
        intro c hc d hd
        obtain ⟨p, -, hpc⟩ := exists_of_mem_forall₂ helements hc
        obtain ⟨q, -, hqd⟩ := exists_of_mem_forall₂ helements hd
        exact shape_of_expandWith hpc hqd
      · intro c hc
        obtain ⟨p, -, hpc⟩ := exists_of_mem_forall₂ helements hc
        exact ih hpc
    | composite _ _ hparts =>
      refine ⟨trivial, fun c hc => ?_⟩
      obtain ⟨part, hpart, hc⟩ := List.mem_flatten.1 hc
      obtain ⟨m, -, hmpart⟩ := exists_of_mem_forall₂ hparts hpart
      cases contribution_of_expandMember hmpart with
      | spliced _ hn =>
        exact (LayoutNode.forall_nodes_iff.1 (ih hn)).2 c (mem_children_of_splice hc)
      | named _ hn =>
        rw [List.mem_singleton.1 hc]
        exact repeats_asMember (ih hn)

end TypeGraph

namespace LayoutNode

-- ---------------------------------------------------------------------------
-- Trees of one shape
-- ---------------------------------------------------------------------------

/-- How two trees can have one shape: as leaves that hold the same, as composites that show the same
members, or as arrays of one dimensions and stride whose first elements have one shape. -/
inductive OneShape : LayoutNode → LayoutNode → Prop
  | scalar {s t : ScalarLeaf} (typeName : s.typeName = t.typeName)
      (byteSize : s.byteSize = t.byteSize) (same : Leaf.HoldsSame (.scalar s) (.scalar t)) :
      OneShape (scalar s) (scalar t)
  | pointer {p q : PointerLeaf} (typeName : p.typeName = q.typeName)
      (byteSize : p.byteSize = q.byteSize) (same : Leaf.HoldsSame (.pointer p) (.pointer q)) :
      OneShape (pointer p) (pointer q)
  | composite {header header' : NodeHeader} {isUnion isUnion' : Bool}
      {alternatives alternatives' : Nat} {members members' : List LayoutNode}
      (shown : outline header.address members = outline header'.address members') :
      OneShape (composite header isUnion alternatives members)
        (composite header' isUnion' alternatives' members')
  | array {header header' : NodeHeader} {shape : ArrayShape}
      {elementTypeName elementTypeName' : String} {elements elements' : List LayoutNode}
      (first : (elements.map LayoutNode.shape).head? = (elements'.map LayoutNode.shape).head?) :
      OneShape (array header shape elementTypeName elements)
        (array header' shape elementTypeName' elements')

/-- Trees of equal shape have one shape in one of the three ways. -/
theorem oneShape_of_eq {n m : LayoutNode} (h : n.shape = m.shape) : OneShape n m := by
  cases n <;> cases m <;>
    simp only [shape_scalar, shape_pointer, shape_composite, shape_array, LayoutShape.scalar.injEq,
      LayoutShape.pointer.injEq, LayoutShape.composite.injEq, LayoutShape.array.injEq,
      reduceCtorEq] at h
  case scalar.scalar =>
    obtain ⟨htypeName, hbyteSize, hdataType, hbitOffset, hbitSize⟩ := h
    exact .scalar htypeName hbyteSize (.scalar hdataType hbitOffset hbitSize)
  case pointer.pointer =>
    obtain ⟨htypeName, hbyteSize, htargetName, hisFunction⟩ := h
    exact .pointer htypeName hbyteSize (.pointer htargetName hisFunction)
  case composite.composite => exact .composite h.2.2.2
  case array.array =>
    rename_i shape _ _ _ shape' _ _
    -- what an array keeps of its elements is the shape of the first
    obtain ⟨-, -, hdims, hstride, hfirst⟩ := h
    obtain ⟨dims, stride, _⟩ := shape
    obtain ⟨dims', stride', _⟩ := shape'
    obtain rfl : dims = dims' := hdims
    obtain rfl : stride = stride' := hstride
    exact .array hfirst

/-- Whether two nodes are at the same path and the same distance from two others. -/
structure SamePlace (n m c d : LayoutNode) : Prop where
  path : ∃ step, c.path = n.path ++ step ∧ d.path = m.path ++ step
  address : c.address - n.address = d.address - m.address

/-- Leaves that correspond in nodes at the same place correspond in the trees. -/
theorem SamePlace.corresponds {n m c d : LayoutNode} {a b : Leaf} (h : SamePlace n m c d)
    (hleaf : Leaf.Corresponds c d a b) : Leaf.Corresponds n m a b := by
  obtain ⟨step, hc, hd⟩ := h.path
  obtain ⟨relative, ha, hb⟩ := hleaf.path
  refine { hleaf with path := ⟨step ++ relative, ?_, ?_⟩, address := ?_ }
  · rw [ha, hc, String.append_assoc]
  · rw [hb, hd, String.append_assoc]
  · have hnear := h.address
    have hfar := hleaf.address
    omega

/-- Two lists beside the same list are beside each other. -/
theorem forall₂_of_common {α β γ : Type} {R : α → β → Prop} {S : α → γ → Prop} {as : List α}
    {bs : List β} {cs : List γ} (hR : List.Forall₂ R as bs) (hS : List.Forall₂ S as cs) :
    List.Forall₂ (fun b c => ∃ a, R a b ∧ S a c) bs cs := by
  induction hR generalizing cs with
  | nil =>
    cases hS
    exact .nil
  | cons hab _ ih =>
    cases hS with
    | cons hac hrest => exact .cons ⟨_, hab, hac⟩ (ih hrest)

/-- Members that their composites show alike are in the same places and have the same shapes. -/
theorem forall₂_members {n m : LayoutNode} {members members' : List LayoutNode}
    (hpaths : ∀ c ∈ members, c.path = n.path ++ "." ++ c.name)
    (hpaths' : ∀ d ∈ members', d.path = m.path ++ "." ++ d.name)
    (h : outline n.address members = outline m.address members') :
    List.Forall₂ (fun c d => SamePlace n m c d ∧ c.shape = d.shape) members members' := by
  -- the outlines are equal member by member
  have hboth : List.Forall₂ (fun c d => (c.name, c.address - n.address, c.shape) =
      (d.name, d.address - m.address, d.shape)) members members' := by
    have hsame :
        List.Forall₂ (· = ·) (outline n.address members) (outline m.address members') := by
      rw [List.forall₂_eq_eq_eq]
      exact h
    rwa [outline, outline, List.forall₂_map_left_iff, List.forall₂_map_right_iff] at hsame
  rw [List.forall₂_iff_zip] at hboth ⊢
  refine ⟨hboth.1, fun hmem => ?_⟩
  rename_i c d
  obtain ⟨hc, hd⟩ := List.of_mem_zip hmem
  obtain ⟨hname, haddress, hshape⟩ :
      c.name = d.name ∧ c.address - n.address = d.address - m.address ∧ c.shape = d.shape := by
    simpa using hboth.2 hmem
  refine ⟨⟨⟨"." ++ c.name, ?_, ?_⟩, haddress⟩, hshape⟩
  · rw [hpaths c hc, String.append_assoc]
  · rw [hpaths' d hd, String.append_assoc, hname]

/-- Elements that repeat one shape at the same positions are in the same places and have the same
shapes. -/
theorem forall₂_elements {header header' : NodeHeader} {shape : ArrayShape}
    {elementTypeName elementTypeName' : String} {elements elements' : List LayoutNode}
    (hn : (array header shape elementTypeName elements).Repeats)
    (hm : (array header' shape elementTypeName' elements').Repeats)
    (hfirst : (elements.map LayoutNode.shape).head? = (elements'.map LayoutNode.shape).head?) :
    List.Forall₂ (fun c d => SamePlace (array header shape elementTypeName elements)
      (array header' shape elementTypeName' elements') c d ∧ c.shape = d.shape) elements
      elements' := by
  obtain ⟨hplaces, halike⟩ := hn
  obtain ⟨hplaces', halike'⟩ := hm
  have hboth := forall₂_of_common hplaces hplaces'
  rw [List.forall₂_iff_zip] at hboth ⊢
  refine ⟨hboth.1, fun {c d} hcd => ?_⟩
  -- elements in one place of the two arrays have the same position
  obtain ⟨p, ⟨hpath, haddress⟩, hpath', haddress'⟩ := hboth.2 hcd
  obtain ⟨hc, hd⟩ := List.of_mem_zip hcd
  refine ⟨⟨⟨ArrayShape.brackets p, hpath, hpath'⟩, ?_⟩, ?_⟩
  · rw [haddress, haddress']
    simp only [address, LayoutNode.header]
    omega
  · obtain ⟨first, rest, rfl⟩ := List.exists_cons_of_ne_nil (List.ne_nil_of_mem hc)
    obtain ⟨first', rest', rfl⟩ := List.exists_cons_of_ne_nil (List.ne_nil_of_mem hd)
    calc c.shape = first.shape := halike c hc first List.mem_cons_self
      _ = first'.shape := by simpa using hfirst
      _ = d.shape := halike' first' List.mem_cons_self d hd

/-- The children of trees of one shape are in the same places and have the same shapes. -/
theorem forall₂_children {n m : LayoutNode} (hn : n.LabelsChildren) (hn' : n.Repeats)
    (hm : m.LabelsChildren) (hm' : m.Repeats) (h : n.shape = m.shape) :
    List.Forall₂ (fun c d => SamePlace n m c d ∧ c.shape = d.shape) n.children m.children := by
  cases oneShape_of_eq h with
  | scalar | pointer => exact .nil
  | composite houtline =>
    exact forall₂_members (labelsChildren_composite.1 hn) (labelsChildren_composite.1 hm) houtline
  | array hfirst => exact forall₂_elements hn' hm' hfirst

/-- The leaves of trees of one shape correspond, where paths are labels and arrays repeat. -/
theorem forall₂_leaves {n m : LayoutNode} (hn : n.Labelled) (hn' : ∀ c ∈ n.nodes, c.Repeats)
    (hm : m.Labelled) (hm' : ∀ d ∈ m.nodes, d.Repeats) (h : n.shape = m.shape) :
    List.Forall₂ (Leaf.Corresponds n m) n.leaves m.leaves := by
  induction n using childInduction generalizing m with
  | node n ih =>
    rw [labelled_iff] at hn hm
    rw [forall_nodes_iff] at hn' hm'
    have hchildren := forall₂_children hn.1 hn'.1 hm.1 hm'.1 h
    -- by induction over the first layout, the leaves below corresponding children correspond
    have hbelow : List.Forall₂ (fun c d => List.Forall₂ (Leaf.Corresponds n m) c.leaves d.leaves)
        n.children m.children := by
      rw [List.forall₂_iff_zip] at hchildren ⊢
      refine ⟨hchildren.1, fun {c d} hcd => ?_⟩
      obtain ⟨hplace, hshape⟩ := hchildren.2 hcd
      obtain ⟨hc, hd⟩ := List.of_mem_zip hcd
      exact (ih c hc (hn.2 c hc) (hn'.2 c hc) (hm.2 d hd) (hm'.2 d hd) hshape).imp
        fun _ _ => hplace.corresponds
    have hflat : List.Forall₂ (Leaf.Corresponds n m) (n.children.flatMap leaves)
        (m.children.flatMap leaves) := List.rel_flatMap hbelow fun _ _ hleaves => hleaves
    cases oneShape_of_eq h with
    | scalar htypeName hbyteSize hsame =>
      rw [leaves, leaves]
      exact .cons (hsame.corresponds rfl rfl hbyteSize htypeName) .nil
    | pointer htypeName hbyteSize hsame =>
      rw [leaves, leaves]
      exact .cons (hsame.corresponds rfl rfl hbyteSize htypeName) .nil
    | composite => simpa only [leaves, children] using hflat
    | array => simpa only [leaves, children] using hflat

end LayoutNode

namespace TypeGraph

/-- Two layouts of one shape, of whatever types in whatever graphs, have as many leaves, and these
correspond one by one, in their order. -/
theorem leaves_of_shape_eq {g g' : TypeGraph} {depth depth' : Nat} {ref ref' address address' : Int}
    {name name' : String} {n m : LayoutNode} (hn : g.layout depth ref address name = .ok n)
    (hm : g'.layout depth' ref' address' name' = .ok m) (h : n.shape = m.shape) :
    n.leaves.length = m.leaves.length ∧
      List.Forall₂ (Leaf.Corresponds n m) n.leaves m.leaves := by
  have hn := layoutWith_eq_ok.1 hn
  have hm := layoutWith_eq_ok.1 hm
  have hleaves := LayoutNode.forall₂_leaves (labelled_of_expandWith hn) (repeats_of_expandWith hn)
    (labelled_of_expandWith hm) (repeats_of_expandWith hm) h
  exact ⟨hleaves.length_eq, hleaves⟩

/-- The types of the record of bitfields, spliced numbers and a table, where the table is one array
of two dimensions and not an array of arrays. -/
def flatRecords : TypeGraph :=
  { records with nodes := records.nodes.insert 6 ⟨6, none, .array 3 [2, 2] none none⟩ }

/-- The layout of the table of two rows by two columns. -/
def tableTree (name : String) (address : Int) : LayoutNode :=
  .array ⟨name, name, address, 8, none⟩ ⟨[2, 2], 2, fun h => nomatch h⟩ "short"
    [.scalar ⟨⟨"[0][0]", name ++ "[0][0]", address, 2, some "short"⟩, .signed .w16, 0, none, none⟩,
      .scalar ⟨⟨"[0][1]", name ++ "[0][1]", address + 2, 2, some "short"⟩, .signed .w16, 0, none,
        none⟩,
      .scalar ⟨⟨"[1][0]", name ++ "[1][0]", address + 4, 2, some "short"⟩, .signed .w16, 0, none,
        none⟩,
      .scalar ⟨⟨"[1][1]", name ++ "[1][1]", address + 6, 2, some "short"⟩, .signed .w16, 0, none,
        none⟩]

/-- A table of rows and one of two dimensions, at two addresses and of two graphs. -/
theorem leaves_of_shape_eq_table :
    records.layout defaultDepth 6 0x1000 "table" = .ok (tableTree "table" 0x1000) ∧
      flatRecords.layout defaultDepth 6 0x2000 "twin" = .ok (tableTree "twin" 0x2000) ∧
      (tableTree "table" 0x1000).shape = (tableTree "twin" 0x2000).shape ∧
      (tableTree "table" 0x1000).leaves.length = (tableTree "twin" 0x2000).leaves.length ∧
      List.Forall₂ (Leaf.Corresponds (tableTree "table" 0x1000) (tableTree "twin" 0x2000))
        (tableTree "table" 0x1000).leaves (tableTree "twin" 0x2000).leaves := by
  have htable : records.layout defaultDepth 6 0x1000 "table" = .ok (tableTree "table" 0x1000) := rfl
  have htwin : flatRecords.layout defaultDepth 6 0x2000 "twin" = .ok (tableTree "twin" 0x2000) :=
    rfl
  have hshape : (tableTree "table" 0x1000).shape = (tableTree "twin" 0x2000).shape := by
    simp [tableTree, shape_array, shape_scalar]
  exact ⟨htable, htwin, hshape, leaves_of_shape_eq htable htwin hshape⟩

end TypeGraph

end DebugLayout
