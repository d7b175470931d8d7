import DebugLayout.Proofs.ArrayShape
import DebugLayout.Proofs.Layout.Expansion

/-!
# DebugLayout — arrays that keep their elements

The expansion in which no arrays are folded: every array of arrays has arrays as elements. Its tree
differs from the folded one, and so do the names of elements. What they have in common are the
**leaves**, with their paths and addresses, in layout order. This module defines when two trees are
alike in that sense, and takes the arrays within an array away, one level at a time.

* `Leaf.anonymous`, `LayoutNode.trace`: leaves without names;
* `LayoutNode.Alike`: trees of one kind with the same leaves;
* `TypeGraph.expandWith_rename`: the name given to an expansion does not matter;
* `TypeGraph.unfolded`: no folding;
* `TypeGraph.elements_nest`: the leaves of an array of arrays are those of the single array.
-/

namespace DebugLayout

-- ---------------------------------------------------------------------------
-- Leaves without names
-- ---------------------------------------------------------------------------

/-- A leaf without its name. The name of an element of an array only repeats the end of its path,
from the innermost array on. -/
def Leaf.anonymous : Leaf → Leaf
  | .scalar leaf => .scalar { leaf with name := "" }
  | .pointer leaf => .pointer { leaf with name := "" }

namespace LayoutNode

/-- The leaves of a tree, in layout order and without their names. -/
def trace (n : LayoutNode) : List Leaf := n.leaves.map Leaf.anonymous

/-- Two trees are alike if they are of one kind and have the same leaves. -/
inductive Alike : LayoutNode → LayoutNode → Prop
  | scalar {leaf leaf' : ScalarLeaf} (h : { leaf with name := "" } = { leaf' with name := "" }) :
      Alike (.scalar leaf) (.scalar leaf')
  | pointer {leaf leaf' : PointerLeaf} (h : { leaf with name := "" } = { leaf' with name := "" }) :
      Alike (.pointer leaf) (.pointer leaf')
  | composite {header header' : NodeHeader} {isUnion isUnion' : Bool}
      {alternatives alternatives' : Nat} {members members' : List LayoutNode}
      (h : members.flatMap trace = members'.flatMap trace) :
      Alike (.composite header isUnion alternatives members)
        (.composite header' isUnion' alternatives' members')
  | array {header header' : NodeHeader} {shape shape' : ArrayShape}
      {elementTypeName elementTypeName' : String} {elements elements' : List LayoutNode}
      (h : elements.flatMap trace = elements'.flatMap trace) :
      Alike (.array header shape elementTypeName elements)
        (.array header' shape' elementTypeName' elements')

variable {n n' : LayoutNode}

theorem trace_composite (header : NodeHeader) (isUnion : Bool) (alternatives : Nat)
    (members : List LayoutNode) :
    (composite header isUnion alternatives members).trace = members.flatMap trace := by
  rw [trace, leaves, List.map_flatMap]
  rfl

theorem trace_array (header : NodeHeader) (shape : ArrayShape) (elementTypeName : String)
    (elements : List LayoutNode) :
    (array header shape elementTypeName elements).trace = elements.flatMap trace := by
  rw [trace, leaves, List.map_flatMap]
  rfl

theorem Alike.refl (n : LayoutNode) : n.Alike n := by
  cases n with
  | scalar leaf => exact .scalar rfl
  | pointer leaf => exact .pointer rfl
  | composite => exact .composite rfl
  | array => exact .array rfl

/-- Trees that are alike have the same leaves. -/
theorem Alike.trace_eq (h : n.Alike n') : n.trace = n'.trace := by
  cases h with
  | scalar h =>
    rw [trace, trace, leaves, leaves]
    exact congrArg (fun leaf => [Leaf.scalar leaf]) h
  | pointer h =>
    rw [trace, trace, leaves, leaves]
    exact congrArg (fun leaf => [Leaf.pointer leaf]) h
  | composite h => rw [trace_composite, trace_composite, h]
  | array h => rw [trace_array, trace_array, h]

end LayoutNode

open LayoutNode (trace Alike)

namespace TypeGraph

variable {g : TypeGraph}

/-- Trees that are alike contribute the same leaves when they are spliced in. -/
theorem trace_splice {n n' : LayoutNode} (h : n.Alike n') :
    (splice n).flatMap trace = (splice n').flatMap trace := by
  cases h with
  | composite h => exact h
  | scalar | pointer | array => rfl

/-- A bitfield takes the same bits from both. -/
theorem alike_asMember {n n' : LayoutNode} (h : n.Alike n') (m : Member) :
    (asMember m n).Alike (asMember m n') := by
  cases h with
  | scalar h =>
    rw [asMember, asMember]
    split
    · refine .scalar ?_
      exact congrArg (fun leaf : ScalarLeaf =>
        { leaf with bitOffset := m.bitOffset.getD 0, bitSize := m.bitSize }) h
    · exact .scalar h
  | pointer h => exact .pointer h
  | composite h => exact .composite h
  | array h => exact .array h

-- ---------------------------------------------------------------------------
-- Names
-- ---------------------------------------------------------------------------

/-- Under another name, a leaf is the same but for the name. -/
theorem leaf_rename {ref address : Int} {node : TypeNode} {name path : String} {n : LayoutNode}
    (h : g.leaf ref node address name path = .ok n) (name' : String) :
    ∃ n', g.leaf ref node address name' path = .ok n' ∧ n.Alike n' := by
  unfold leaf at *
  simp only at h ⊢
  split at h
  · rw [Except.ok.injEq] at h
    subst h
    exact ⟨_, rfl, .scalar rfl⟩
  · rw [Except.ok.injEq] at h
    subst h
    exact ⟨_, rfl, .scalar rfl⟩
  · obtain ⟨pointer, hpointer, rfl⟩ := map_eq_ok.1 h
    unfold pointerLeaf at hpointer
    simp only [bind_eq_ok, pure_eq_ok] at hpointer
    -- the signature does not depend on the name
    obtain ⟨signature, hsignature, rfl⟩ := hpointer
    unfold pointerLeaf
    rw [hsignature]
    exact ⟨_, rfl, .pointer rfl⟩
  · rw [Except.ok.injEq] at h
    subst h
    exact ⟨_, rfl, .scalar rfl⟩

/-- Under another name, an expansion has the same leaves. -/
theorem expandWith_rename {fold : Folding} {levels : Nat} {ref address : Int} {name path : String}
    {n : LayoutNode} (h : g.expandWith fold levels ref address name path = .ok n)
    (name' : String) :
    ∃ n', g.expandWith fold levels ref address name' path = .ok n' ∧ n.Alike n' := by
  cases levels with
  | zero => exact absurd h (by simp [expandWith])
  | succ levels =>
    cases expandWith_succ_iff.1 h with
    | leaf hnode harray hcomposite hleaf =>
      obtain ⟨n', hleaf, halike⟩ := leaf_rename hleaf name'
      exact ⟨n', expandWith_succ_iff.2 (.leaf hnode harray hcomposite hleaf), halike⟩
    | array hnode hbody hshape hsize helements =>
      exact ⟨_, expandWith_succ_iff.2 (.array hnode hbody hshape hsize helements), .array rfl⟩
    | composite hnode hbody hparts =>
      exact ⟨_, expandWith_succ_iff.2 (.composite hnode hbody hparts), .composite rfl⟩

-- ---------------------------------------------------------------------------
-- No folding
-- ---------------------------------------------------------------------------

/-- Every array keeps its own elements. -/
def unfolded : Folding := fun dims element stride => .ok (dims, element, stride)

/-- Without folding an array has the dimensions that it declares and the stride of its elements. -/
theorem arrayShape_unfolded {element inner : Int} {dims : List Int} {stride : Option Int}
    {shape : ArrayShape} :
    g.arrayShape unfolded element dims stride = .ok (shape, inner) ↔
      inner = element ∧ ∃ outer, g.arrayStride element stride = .ok outer ∧
        ArrayShape.ofInts dims (outer.getD 0) = .ok shape := by
  rw [arrayShape_iff]
  constructor
  · rintro ⟨outer, dims', stride', houter, hfold, hshape⟩
    obtain ⟨rfl, rfl, rfl⟩ : dims = dims' ∧ element = inner ∧ outer = stride' := by
      simpa [unfolded] using hfold
    exact ⟨rfl, outer, houter, hshape⟩
  · rintro ⟨rfl, outer, houter, hshape⟩
    exact ⟨outer, dims, outer, houter, rfl, hshape⟩

/-- An array that is expanded without folding has elements of the type that it gives. -/
theorem unfolded_array {levels : Nat} {ref address : Int} {name path : String} {n : LayoutNode}
    {node : TypeNode} {element : Int} {dims : List Int} {stride explicitSize : Option Int}
    (hnode : g.resolve ref = .ok node) (hbody : node.body = .array element dims stride explicitSize)
    (h : g.expandWith unfolded (levels + 1) ref address name path = .ok n) :
    ∃ outer shape size elements, g.arrayStride element stride = .ok outer ∧
      ArrayShape.ofInts dims (outer.getD 0) = .ok shape ∧ g.byteSize ref = .ok size ∧
      g.Elements unfolded levels shape element address path elements ∧
      n = .array ⟨name, path, address, size.getD shape.byteSize, g.typeName? ref⟩ shape
        (g.describe element) elements := by
  obtain ⟨shape, inner, size, elements, hshape, hsize, helements, rfl⟩ :=
    (expandWith_array_iff hnode hbody).1 h
  obtain ⟨rfl, outer, houter, hshape⟩ := arrayShape_unfolded.1 hshape
  exact ⟨outer, shape, size, elements, houter, hshape, hsize, helements, rfl⟩

-- ---------------------------------------------------------------------------
-- One step of the folding
-- ---------------------------------------------------------------------------

/-- Nodes that each have the leaves of some others may be replaced by all of those. -/
theorem forall₂_flatMap {α β : Type} {R : α → LayoutNode → Prop} {S : β → LayoutNode → Prop}
    {f : α → List β} {as : List α} {nodes : List LayoutNode} (h : List.Forall₂ R as nodes)
    (hstep : ∀ a n, R a n → ∃ ns, List.Forall₂ S (f a) ns ∧ n.trace = ns.flatMap trace) :
    ∃ ns, List.Forall₂ S (as.flatMap f) ns ∧ nodes.flatMap trace = ns.flatMap trace := by
  induction h with
  | nil => exact ⟨[], .nil, rfl⟩
  | cons hn _ ih =>
    obtain ⟨here, hhere, htrace⟩ := hstep _ _ hn
    obtain ⟨rest, hrest, htraces⟩ := ih
    refine ⟨here ++ rest, ?_, ?_⟩
    · rw [List.flatMap_cons]
      exact List.rel_append hhere hrest
    · rw [List.flatMap_cons, List.flatMap_append, htrace, htraces]

/-- An element of an inner array is an element of the single array, at the position of the inner
array followed by its own. -/
theorem expandElement_nest {outer inner : ArrayShape} {expandType : Expansion}
    {element address : Int} {path : String} {p q : List Nat} (hp : p.length = outer.dims.length)
    (hfit : outer.stride = inner.stride * inner.count) :
    expandElement expandType (outer.nest inner) element address path (p ++ q) =
      expandType element
        (address + (ArrayShape.rowMajor outer.dims p * outer.stride : Nat) +
          (ArrayShape.rowMajor inner.dims q * inner.stride : Nat))
        (ArrayShape.brackets (p ++ q))
        (path ++ ArrayShape.brackets p ++ ArrayShape.brackets q) := by
  have hoffset : ArrayShape.rowMajor (outer.nest inner).dims (p ++ q) * (outer.nest inner).stride =
      ArrayShape.rowMajor outer.dims p * outer.stride +
        ArrayShape.rowMajor inner.dims q * inner.stride := by
    show ArrayShape.rowMajor (outer.dims ++ inner.dims) (p ++ q) * inner.stride = _
    rw [ArrayShape.rowMajor_append hp, hfit, ArrayShape.count, Nat.add_mul, Nat.mul_assoc,
      Nat.mul_comm inner.stride]
  rw [expandElement, hoffset, ArrayShape.brackets_append, Int.natCast_add, Int.add_assoc,
    String.append_assoc]

/-- The elements of an array of arrays that lie without gaps, each expanded on its own, have the
leaves of the elements of the single array. -/
theorem elements_nest {outer inner : ArrayShape} {levels : Nat} {element innerElement : Int}
    {address : Int} {path : String} {nodes : List LayoutNode} {node : TypeNode}
    {dims : List Int} {explicit size stride : Option Int} (hnode : g.resolve element = .ok node)
    (hbody : node.body = .array innerElement dims explicit size)
    (hstride : g.arrayStride innerElement explicit = .ok stride)
    (hinner : ArrayShape.ofInts dims (stride.getD 0) = .ok inner)
    (hfit : outer.stride = inner.stride * inner.count)
    (h : g.Elements unfolded (levels + 1) outer element address path nodes) :
    ∃ nodes', g.Elements unfolded levels (outer.nest inner) innerElement address path nodes' ∧
      nodes.flatMap trace = nodes'.flatMap trace := by
  have hpositions : (outer.nest inner).positions =
      outer.positions.flatMap fun p => inner.positions.flatMap fun q => [p ++ q] := by
    simp only [← List.map_eq_flatMap]
    exact ArrayShape.positionsOf_append _ _
  have h := (List.forall₂_and_left _ _).2 ⟨fun p => ArrayShape.length_of_mem_positionsOf, h⟩
  unfold Elements
  rw [hpositions]
  refine forall₂_flatMap h fun p n hn => ?_
  obtain ⟨hp, hn⟩ := hn
  -- each element of the outer array is an inner one, of the same shape
  obtain ⟨stride', inner', size', elements, hstride', hinner', -, helements, rfl⟩ :=
    unfolded_array hnode hbody hn
  obtain rfl := eq_of_ok hstride hstride'
  obtain rfl := eq_of_ok hinner hinner'
  rw [LayoutNode.trace_array]
  refine forall₂_flatMap helements fun q m hm => ?_
  -- the path and the address are the same, while the name was that within the inner array
  obtain ⟨m', hm', halike⟩ := expandWith_rename hm (ArrayShape.brackets (p ++ q))
  refine ⟨[m'], .cons ?_ .nil, ?_⟩
  · rw [expandElement_nest hp hfit]
    exact hm'
  · rw [halike.trace_eq]
    simp

end TypeGraph

end DebugLayout
