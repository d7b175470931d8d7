import DebugLayout.Proofs.Layout.Folding
import DebugLayout.Proofs.Layout.Parts
import DebugLayout.Proofs.Layout.Tree

/-!
# DebugLayout — what a layout occupies

A type **fits** if its parts lie within it: the members of a composite, and one after the other the
elements of an array. When all types that a symbol is made of fit, each node of its layout occupies
bytes of the node above it. Spliced members and folded arrays are no exception, although the types
between them and that node have left no node.

The induction is on the levels of the expansion. The condition is one on all types that can be
reached, because the members of a member have to lie within it too; the size of an element may be
less than the stride, which leaves a gap but nothing beyond the array.

* `TypeGraph.Fits`, `LayoutNode.Nested`: types that hold their parts, and trees that do;
* `TypeGraph.Tiles`, `tiles_of_arrayShape`: arrays of arrays take the bytes of a single one;
* `TypeGraph.nested_of_expandWith`: the layout of such types is such a tree.
-/

namespace DebugLayout

-- ---------------------------------------------------------------------------
-- Nodes within nodes
-- ---------------------------------------------------------------------------

namespace LayoutNode

/-- Whether a node occupies none but bytes of another one. -/
def Within (inner outer : LayoutNode) : Prop :=
  outer.address ≤ inner.address ∧
    inner.address + inner.byteSize ≤ outer.address + outer.byteSize

/-- Whether every node of a tree lies within the node above it. -/
def Nested (n : LayoutNode) : Prop := ∀ p ∈ n.nodes, ∀ c ∈ p.children, c.Within p

theorem Within.refl (n : LayoutNode) : n.Within n := ⟨Int.le_refl _, Int.le_refl _⟩

/-- What lies within a node lies within what that node lies in. -/
theorem Within.trans {a b c : LayoutNode} (h : a.Within b) (h' : b.Within c) : a.Within c :=
  ⟨Int.le_trans h'.1 h.1, Int.le_trans h.2 h'.2⟩

/-- A tree is nested if each child lies within its node and is nested itself. -/
theorem nested_iff {n : LayoutNode} :
    n.Nested ↔ ∀ c ∈ n.children, c.Within n ∧ c.Nested := by
  rw [Nested, forall_nodes_iff]
  constructor
  · rintro ⟨hn, hall⟩ c hc
    exact ⟨hn c hc, hall c hc⟩
  · intro h
    exact ⟨fun c hc => (h c hc).1, fun c hc => (h c hc).2⟩

/-- All nodes of a nested tree lie within its root. -/
theorem Nested.within {n : LayoutNode} (h : n.Nested) : ∀ m ∈ n.nodes, m.Within n := by
  induction n using childInduction with
  | node n ih =>
    rw [forall_nodes_iff]
    refine ⟨.refl n, fun c hc m hm => ?_⟩
    obtain ⟨hwithin, hnested⟩ := nested_iff.1 h c hc
    exact (ih c hc hnested m hm).trans hwithin

end LayoutNode

namespace TypeGraph

open LayoutNode (Within Nested)

variable {g : TypeGraph}

/-- Where a member starts in its composite; all members of a union start with it. -/
def startOf (kind : CompositeKind) (m : Member) : Int :=
  if kind = .union then 0 else m.byteOffset

/-- Whether a type holds its parts. The size of a composite and of its members is known, and these
lie within it; the elements of an array are no larger than its stride, and the array, if it gives a
size, is no smaller than all of them. -/
def BodyFits (g : TypeGraph) : TypeBody → Prop
  | .composite kind size members _ =>
    ∃ total, size = some total ∧ ∀ m ∈ members, ∃ own, g.byteSize m.typeRef = .ok (some own) ∧
      0 ≤ startOf kind m ∧ startOf kind m + own ≤ total
  | .array element dims stride size =>
    ∃ step, g.arrayStride element stride = .ok (some step) ∧
      ∃ own, g.byteSize element = .ok (some own) ∧ 0 ≤ own ∧ own ≤ step ∧
        ∀ total, size = some total → elementCount dims * step ≤ total
  | _ => True

/-- Whether the type of a reference holds its parts. -/
def Fits (g : TypeGraph) (ref : Int) : Prop := g.Holds g.BodyFits ref

instance : DecidablePred g.BodyFits
  | .composite .. | .array .. => by unfold BodyFits; infer_instance
  | .scalar .. | .enum .. | .pointer .. | .signature .. | .void | .unspecified _ | .placeholder =>
    isTrue trivial

instance : DecidablePred g.Fits :=
  fun ref => inferInstanceAs (Decidable (g.Holds g.BodyFits ref))

-- ---------------------------------------------------------------------------
-- Arrays
-- ---------------------------------------------------------------------------

theorem elementCount_append (dims dims' : List Int) :
    elementCount (dims ++ dims') = elementCount dims * elementCount dims' := by
  induction dims with
  | nil => simp [elementCount]
  | cons d ds ih =>
    have h : elementCount (ds ++ dims') = elementCount ds * elementCount dims' := ih
    show d * elementCount (ds ++ dims') = d * elementCount ds * elementCount dims'
    rw [h, Int.mul_assoc]

/-- An array, given by its dimensions, its elements and their stride, takes so many bytes, and its
elements are no larger than its stride. -/
def Tiles (g : TypeGraph) (ref total : Int) (dims : List Int) (element : Int)
    (stride : Option Int) : Prop :=
  g.Reaches ref element ∧ ∃ step own, stride = some step ∧ g.byteSize element = .ok (some own) ∧
    0 ≤ own ∧ own ≤ step ∧ elementCount dims * step = total

/-- An array whose elements are contiguous arrays takes the same bytes as the single one. -/
theorem Tiles.step {ref total element innerElement innerStride : Int} {dims innerDims : List Int}
    {explicit size : Option Int} {node : TypeNode} (hfits : ∀ t, g.Reaches ref t → g.Fits t)
    (hnode : g.resolve element = .ok node)
    (hbody : node.body = .array innerElement innerDims explicit size)
    (hstride : g.arrayStride innerElement explicit = .ok (some innerStride))
    (h : g.Tiles ref total dims element (some (innerStride * elementCount innerDims))) :
    g.Tiles ref total (dims ++ innerDims) innerElement (some innerStride) := by
  obtain ⟨hreach, step, -, hstep, -, -, -, htotal⟩ := h
  have hfits' := hfits element hreach node hnode
  rw [hbody] at hfits'
  obtain ⟨step', hstride', own, hown, hpos, hle, -⟩ := hfits'
  obtain rfl : innerStride = step' := Option.some.inj (eq_of_ok hstride hstride')
  refine ⟨hreach.tail (.element hnode hbody), innerStride, own, rfl, hown, hpos, hle, ?_⟩
  rw [← htotal, ← Option.some.inj hstep, elementCount_append, Int.mul_assoc,
    Int.mul_comm innerStride]

/-- The bytes that an array needs for its elements. -/
theorem byteSize_of_shape {dims : List Int} {step : Int} {shape : ArrayShape}
    (h : ArrayShape.ofInts dims step = .ok shape) :
    (shape.byteSize : Int) = elementCount dims * step := by
  obtain ⟨-, hpos, hstep, hdims, hstride⟩ := ArrayShape.ofInts_eq_ok.1 h
  rw [ArrayShape.byteSize, ArrayShape.count, hdims, hstride, elementCount_eq hpos,
    Int.natCast_mul, Int.toNat_of_nonneg hstep]

/-- An array of a type that fits has a shape whose elements are no larger than its stride, and is
no smaller than all of them. -/
theorem tiles_of_arrayShape {ref element inner : Int} {node : TypeNode} {dims : List Int}
    {stride explicit size : Option Int} {shape : ArrayShape}
    (hfits : ∀ t, g.Reaches ref t → g.Fits t) (hnode : g.resolve ref = .ok node)
    (hbody : node.body = .array element dims stride explicit)
    (hshape : g.arrayShape g.foldAll element dims stride = .ok (shape, inner))
    (hsize : g.byteSize ref = .ok size) :
    g.Reaches ref inner ∧ ∃ own, g.byteSize inner = .ok (some own) ∧ 0 ≤ own ∧
      own ≤ shape.stride ∧ (shape.byteSize : Int) ≤ size.getD shape.byteSize := by
  have hfits' := hfits ref (.refl g ref) node hnode
  rw [hbody] at hfits'
  obtain ⟨step, hstep, own, hown, hpos, hle, htotal⟩ := hfits'
  obtain ⟨outer, dims', stride', houter, hfold, hofInts⟩ := arrayShape_iff.1 hshape
  obtain rfl : some step = outer := eq_of_ok hstep houter
  have hstart : g.Tiles ref (elementCount dims * step) dims element (some step) :=
    ⟨.head (.element hnode hbody) (.refl g element), step, own, rfl, hown, hpos, hle, rfl⟩
  -- every folded dimension keeps the bytes of the whole
  obtain ⟨hreach, step', own', rfl, hown', hpos', hle', htotal'⟩ :=
    foldNested_invariant (P := g.Tiles ref (elementCount dims * step)) (Tiles.step hfits) hstart
      hfold
  have hbytes : (shape.byteSize : Int) = elementCount dims * step := by
    rw [byteSize_of_shape hofInts, Option.getD_some, htotal']
  have hstride : (shape.stride : Int) = step' := by
    obtain ⟨-, -, hnonneg, -, hs⟩ := ArrayShape.ofInts_eq_ok.1 hofInts
    rw [Option.getD_some] at hnonneg hs
    omega
  refine ⟨hreach, own', hown', hpos', by omega, ?_⟩
  -- the size is that of the entry where it gives one, and else the count of the elements
  cases size with
  | none => exact Int.le_refl _
  | some size =>
    rw [Option.getD_some, hbytes]
    rcases byteSize_array hnode hbody hsize hstep with hexplicit | ⟨-, hcount⟩
    · exact htotal size hexplicit
    · exact Int.le_of_eq hcount.symm

-- ---------------------------------------------------------------------------
-- Nesting
-- ---------------------------------------------------------------------------

/-- An element lies within its array. -/
theorem within_of_expandElement {levels : Nat} {shape : ArrayShape} {inner own address : Int}
    {path : String} {p : List Nat} {c n : LayoutNode} (hp : p ∈ shape.positions)
    (hown : g.byteSize inner = .ok (some own)) (hle : own ≤ shape.stride)
    (haddress : n.address = address) (htotal : (shape.byteSize : Int) ≤ n.byteSize)
    (h : expandElement (g.expandWith g.foldAll levels) shape inner address path p = .ok c) :
    c.Within n := by
  have hstart : c.address = address + (ArrayShape.rowMajor shape.dims p * shape.stride : Nat) :=
    (header_of_expandWith h).2.2
  have hsize : c.byteSize = own := byteSize_of_expandWith h hown
  have hindex : ArrayShape.rowMajor shape.dims p + 1 ≤ shape.count := ArrayShape.rowMajor_lt hp
  have hend : ArrayShape.rowMajor shape.dims p * shape.stride + shape.stride ≤ shape.byteSize := by
    have h := Nat.mul_le_mul_right shape.stride hindex
    rwa [Nat.add_mul, Nat.one_mul] at h
  unfold Within
  omega

/-- What a member contributes lies within its composite. -/
theorem within_of_expandMember {levels : Nat} {kind : CompositeKind} {address own total : Int}
    {path : String} {m : Member} {part : List LayoutNode} {n : LayoutNode}
    (h : expandMember (g.expandWith g.foldAll levels) (kind = .union) address path m = .ok part)
    (hown : g.byteSize m.typeRef = .ok (some own)) (hstart : 0 ≤ startOf kind m)
    (hend : startOf kind m + own ≤ total) (haddress : n.address = address)
    (htotal : n.byteSize = total)
    (hnested : ∀ {address name path c},
      g.expandWith g.foldAll levels m.typeRef address name path = .ok c → c.Nested) :
    ∀ c ∈ part, c.Within n ∧ c.Nested := by
  -- a member of a union starts where the union does
  have haddr : (if (decide (kind = .union)) = true then address else address + m.byteOffset) =
      address + startOf kind m := by
    unfold startOf
    by_cases hkind : kind = .union <;> simp [hkind]
  have hwithin : ∀ {name path c}, g.expandWith g.foldAll levels m.typeRef
      (if (decide (kind = .union)) = true then address else address + m.byteOffset) name path =
        .ok c → c.Within n := by
    intro name path c hc
    have haddress' := (header_of_expandWith hc).2.2
    have hsize := byteSize_of_expandWith hc hown
    rw [haddr] at haddress'
    unfold Within
    omega
  cases contribution_of_expandMember h with
  | spliced hname hsub =>
    -- the members of an unnamed member lie within it, and it lies within the composite
    intro c hc
    obtain ⟨hcsub, hcnested⟩ :=
      LayoutNode.nested_iff.1 (hnested hsub) c (mem_children_of_splice hc)
    exact ⟨hcsub.trans (hwithin hsub), hcnested⟩
  | named hname hnode =>
    rename_i name node
    intro c hc
    rw [List.mem_singleton] at hc
    subst hc
    have hheader := asMember_header m node
    constructor
    · unfold Within LayoutNode.address LayoutNode.byteSize
      rw [hheader]
      exact hwithin hnode
    · rw [LayoutNode.nested_iff, asMember_children]
      intro c hc
      obtain ⟨hcnode, hcnested⟩ := LayoutNode.nested_iff.1 (hnested hnode) c hc
      refine ⟨?_, hcnested⟩
      unfold Within LayoutNode.address LayoutNode.byteSize at *
      rw [hheader]
      exact hcnode

/-- The layout of a type whose parts all fit is nested. -/
theorem nested_of_expandWith {levels : Nat} {ref address : Int} {name path : String}
    {n : LayoutNode} (hfits : ∀ t, g.Reaches ref t → g.Fits t)
    (h : g.expandWith g.foldAll levels ref address name path = .ok n) : n.Nested := by
  induction levels generalizing ref address name path n with
  | zero => exact absurd h (by simp [expandWith])
  | succ levels ih =>
    cases expandWith_succ_iff.1 h with
    | leaf _ _ _ hleaf =>
      rw [LayoutNode.nested_iff, children_of_leaf hleaf]
      simp
    | array hnode hbody hshape hsize helements =>
      -- the elements lie one after the other, each no longer than the stride
      obtain ⟨hreach, own, hown, -, hle, htotal⟩ :=
        tiles_of_arrayShape hfits hnode hbody hshape hsize
      rw [LayoutNode.nested_iff]
      intro c hc
      obtain ⟨p, hp, hcp⟩ := exists_of_mem_forall₂ helements hc
      refine ⟨within_of_expandElement hp hown hle rfl htotal hcp, ?_⟩
      exact ih (fun t ht => hfits t (hreach.trans ht)) hcp
    | composite hnode hbody hparts =>
      have hfits' := hfits ref (.refl g ref) _ hnode
      rw [hbody] at hfits'
      obtain ⟨total, rfl, hmembers⟩ := hfits'
      rw [LayoutNode.nested_iff]
      intro c hc
      obtain ⟨part, hpart, hc⟩ := List.mem_flatten.1 hc
      obtain ⟨m, hm, hmpart⟩ := exists_of_mem_forall₂ hparts hpart
      obtain ⟨own, hown, hstart, hend⟩ := hmembers m hm
      have hpartfits := Reaches.of_part (.member hnode hbody hm) hfits
      exact within_of_expandMember hmpart hown hstart hend rfl rfl (fun hc => ih hpartfits hc) c hc

end TypeGraph

end DebugLayout
