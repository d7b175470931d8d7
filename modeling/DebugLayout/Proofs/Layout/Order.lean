import DebugLayout.Proofs.Layout.Bounds
import DebugLayout.TypeGraph.Build
import Mathlib.Data.List.Chain

/-!
# DebugLayout — leaves in the order of memory

The leaves of a layout are listed as the members and elements are declared. If the members of each
struct are declared one **after** the other in memory, and there are no unions, that is also the
order of their addresses.

A bitfield may share its storage unit with the next member, which is why its end does not count.
This only goes for bitfields whose type has no parts: one of a struct has leaves beyond its start.
Nor does the order follow if a member can have a negative size, and so end before it starts.

The proof is about spans: the leaves of a part lie in order between its beginning and its end, and
the parts lie one behind the other. For a bitfield the end is replaced by the beginning, which is
enough for a leaf and for nothing larger.

* `TypeGraph.InOrder`: structs whose members come one after the other;
* `LayoutNode.Spans`: addresses that come in order, between two others;
* `TypeGraph.spans_of_expandWith`: the leaves of a layout are such;
* `TypeGraph.layout_nested`: where the nodes of a layout lie, and in which order the leaves.
-/

namespace DebugLayout

/-- The address of a leaf. -/
def Leaf.address : Leaf → Int
  | .scalar leaf => leaf.address
  | .pointer leaf => leaf.address

namespace LayoutNode

/-- The addresses of the leaves of a tree, in layout order. -/
def leafAddresses (n : LayoutNode) : List Int := n.leaves.map Leaf.address

/-- Whether some addresses come in order and lie between two others. -/
structure Spans (first last : Int) (addresses : List Int) : Prop where
  sorted : addresses.Pairwise (· ≤ ·)
  lower : ∀ a ∈ addresses, first ≤ a
  upper : ∀ a ∈ addresses, a ≤ last

theorem Spans.nil (first last : Int) : Spans first last [] := ⟨.nil, by simp, by simp⟩

/-- Addresses that lie between two lie between any two further apart. -/
theorem Spans.widen {first first' last last' : Int} {addresses : List Int}
    (h : Spans first last addresses) (hfirst : first' ≤ first) (hlast : last ≤ last') :
    Spans first' last' addresses :=
  ⟨h.sorted, fun a ha => Int.le_trans hfirst (h.lower a ha),
    fun a ha => Int.le_trans (h.upper a ha) hlast⟩

/-- Addresses in blocks come in order if those of each block do, and no block starts before the
previous one has ended. -/
theorem spans_flatten {first last : Int} {blocks : List (List Int)}
    (hblock : ∀ b ∈ blocks, Spans first last b)
    (hcross : blocks.Pairwise fun b b' => ∀ a ∈ b, ∀ a' ∈ b', a ≤ a') :
    Spans first last blocks.flatten where
  sorted := List.pairwise_flatten.2 ⟨fun b hb => (hblock b hb).sorted, hcross⟩
  lower := fun a ha => by
    obtain ⟨b, hb, ha⟩ := List.mem_flatten.1 ha
    exact (hblock b hb).lower a ha
  upper := fun a ha => by
    obtain ⟨b, hb, ha⟩ := List.mem_flatten.1 ha
    exact (hblock b hb).upper a ha

theorem leafAddresses_scalar (leaf : ScalarLeaf) :
    (scalar leaf).leafAddresses = [leaf.address] := by
  rw [leafAddresses, leaves]
  rfl

theorem leafAddresses_pointer (leaf : PointerLeaf) :
    (pointer leaf).leafAddresses = [leaf.address] := by
  rw [leafAddresses, leaves]
  rfl

/-- The leaves of a composite are those of its members, one after the other. -/
theorem leafAddresses_composite (header : NodeHeader) (isUnion : Bool) (alternatives : Nat)
    (members : List LayoutNode) :
    (composite header isUnion alternatives members).leafAddresses =
      (members.map leafAddresses).flatten := by
  rw [leafAddresses, leaves, List.map_flatMap, List.flatMap_def]
  rfl

/-- The leaves of an array are those of its elements, one after the other. -/
theorem leafAddresses_array (header : NodeHeader) (shape : ArrayShape) (elementTypeName : String)
    (elements : List LayoutNode) :
    (array header shape elementTypeName elements).leafAddresses =
      (elements.map leafAddresses).flatten := by
  rw [leafAddresses, leaves, List.map_flatMap, List.flatMap_def]
  rfl

end LayoutNode

namespace TypeGraph

open LayoutNode (Spans leafAddresses)

variable {g : TypeGraph}

-- ---------------------------------------------------------------------------
-- Members in order
-- ---------------------------------------------------------------------------

/-- Whether a type has no parts. -/
def Undivided (g : TypeGraph) (ref : Int) : Prop :=
  g.Holds (·.hasParts = false) ref

/-- Whether a member ends before another one starts, or, if it may share its storage, starts no
later. -/
def Precedes (g : TypeGraph) (shares : Member → Prop) (m m' : Member) : Prop :=
  (shares m ∧ m.byteOffset ≤ m'.byteOffset) ∨
    ∃ own, g.byteSize m.typeRef = .ok (some own) ∧ m.byteOffset + own ≤ m'.byteOffset

/-- Whether a type, if it has members, is a struct whose members come one after the other. -/
def BodyInOrder (g : TypeGraph) (shares : Member → Prop) : TypeBody → Prop
  | .composite kind _ members _ => kind = .struct ∧ List.IsChain (g.Precedes shares) members
  | _ => True

/-- Whether the members of the type of a reference come one after the other. -/
def InOrder (g : TypeGraph) (shares : Member → Prop) (ref : Int) : Prop :=
  g.Holds (g.BodyInOrder shares) ref

/-- Whether no member of a type has a negative size. -/
def BodyForward (g : TypeGraph) : TypeBody → Prop
  | .composite _ _ members _ =>
    ∀ m ∈ members, ∀ own, g.byteSize m.typeRef = .ok (some own) → 0 ≤ own
  | _ => True

/-- Whether no member of the type of a reference has a negative size. -/
def Forward (g : TypeGraph) (ref : Int) : Prop := g.Holds g.BodyForward ref

/-- The members that may share their storage with the next one. -/
def SharesUnit (g : TypeGraph) (m : Member) : Prop := m.isBitfield ∧ g.Undivided m.typeRef

section Decidable

variable (shares : Member → Prop) [DecidablePred shares]

instance : DecidablePred g.Undivided :=
  fun ref => inferInstanceAs (Decidable (g.Holds (·.hasParts = false) ref))

instance : DecidablePred g.SharesUnit :=
  fun m => inferInstanceAs (Decidable (m.isBitfield ∧ g.Undivided m.typeRef))

instance : DecidableRel (g.Precedes shares) :=
  fun m m' => by unfold Precedes; infer_instance

instance : DecidablePred (g.BodyInOrder shares)
  | .composite .. => by unfold BodyInOrder; infer_instance
  | .array .. | .scalar .. | .enum .. | .pointer .. | .signature .. | .void | .unspecified _
  | .placeholder => isTrue trivial

instance : DecidablePred (g.InOrder shares) :=
  fun ref => inferInstanceAs (Decidable (g.Holds (g.BodyInOrder shares) ref))

instance : DecidablePred g.BodyForward
  | .composite .. => by unfold BodyForward; infer_instance
  | .array .. | .scalar .. | .enum .. | .pointer .. | .signature .. | .void | .unspecified _
  | .placeholder => isTrue trivial

instance : DecidablePred g.Forward :=
  fun ref => inferInstanceAs (Decidable (g.Holds g.BodyForward ref))

end Decidable

/-- Whether a member precedes another one and starts no later. -/
def Before (g : TypeGraph) (shares : Member → Prop) (m m' : Member) : Prop :=
  m.byteOffset ≤ m'.byteOffset ∧ g.Precedes shares m m'

/-- A member that precedes another one precedes what that one precedes. -/
theorem Before.trans {shares : Member → Prop} {a b c : Member} (hab : g.Before shares a b)
    (hbc : g.Before shares b c) : g.Before shares a c := by
  obtain ⟨hle, hprecedes⟩ := hab
  refine ⟨Int.le_trans hle hbc.1, ?_⟩
  rcases hprecedes with ⟨hshares, -⟩ | ⟨own, hown, hend⟩
  · exact .inl ⟨hshares, Int.le_trans hle hbc.1⟩
  · exact .inr ⟨own, hown, Int.le_trans hend hbc.1⟩

instance (shares : Member → Prop) :
    Trans (g.Before shares) (g.Before shares) (g.Before shares) := ⟨Before.trans⟩

/-- Each member comes before all later ones, unless one of them has a negative size. -/
theorem pairwise_precedes {shares : Member → Prop} {members : List Member}
    (hchain : List.IsChain (g.Precedes shares) members)
    (hforward : ∀ m ∈ members, ∀ own, g.byteSize m.typeRef = .ok (some own) → 0 ≤ own) :
    members.Pairwise (g.Precedes shares) := by
  have hbefore : List.IsChain (g.Before shares) members := by
    refine hchain.imp_of_mem_imp fun m m' hm _ h => ⟨?_, h⟩
    rcases h with ⟨-, hle⟩ | ⟨own, hown, hend⟩
    · exact hle
    · have := hforward m hm own hown
      omega
  exact (List.isChain_iff_pairwise.1 hbefore).imp And.right

-- ---------------------------------------------------------------------------
-- The leaves of the parts
-- ---------------------------------------------------------------------------

theorem leafAddresses_of_leaf {ref address : Int} {node : TypeNode} {name path : String}
    {n : LayoutNode} (h : g.leaf ref node address name path = .ok n) :
    n.leafAddresses = [address] := by
  have haddress := (header_of_leaf h).2.2.1
  obtain ⟨leaf, rfl⟩ | ⟨leaf, rfl⟩ := leaf_cases h
  · rw [LayoutNode.leafAddresses_scalar, ← haddress]
    rfl
  · rw [LayoutNode.leafAddresses_pointer, ← haddress]
    rfl

theorem leafAddresses_asMember (m : Member) (n : LayoutNode) :
    (asMember m n).leafAddresses = n.leafAddresses := by
  cases n with
  | scalar leaf =>
    rw [asMember]
    split
    · rw [LayoutNode.leafAddresses_scalar, LayoutNode.leafAddresses_scalar]
    · rfl
  | pointer | composite | array => rfl

/-- The only leaf of a type without parts lies where the type does. -/
theorem leafAddresses_of_undivided {fold : Folding} {levels : Nat} {ref address : Int}
    {name path : String} {n : LayoutNode} (hundivided : g.Undivided ref)
    (h : g.expandWith fold levels ref address name path = .ok n) : n.leafAddresses = [address] := by
  obtain ⟨levels, node, rfl, hnode⟩ := resolve_of_expandWith h
  have hparts := hundivided node hnode
  cases expandWith_succ_iff.1 h with
  | leaf _ _ _ hleaf => exact leafAddresses_of_leaf hleaf
  | array hnode' hbody | composite hnode' hbody =>
    obtain rfl := eq_of_ok hnode hnode'
    rw [hbody] at hparts
    exact absurd hparts (by simp [TypeBody.hasParts])

/-- The leaves that a member of a struct contributes are those of its type, or none. -/
theorem leafAddresses_of_expandMember {expandType : Expansion} {address : Int} {path : String}
    {m : Member} {part : List LayoutNode}
    (h : expandMember expandType false address path m = .ok part) :
    ∃ name path n, expandType m.typeRef (address + m.byteOffset) name path = .ok n ∧
      ((part.map leafAddresses).flatten = n.leafAddresses ∨
        (part.map leafAddresses).flatten = []) := by
  cases contribution_of_expandMember h with
  | spliced hname hn =>
    rename_i n
    refine ⟨_, _, n, hn, ?_⟩
    cases n with
    | composite => exact .inl (LayoutNode.leafAddresses_composite ..).symm
    | scalar | pointer | array => exact .inr rfl
  | named hname hn =>
    rename_i name n
    refine ⟨_, _, n, hn, .inl ?_⟩
    rw [List.map_singleton, List.flatten_singleton, leafAddresses_asMember]

/-- The leaves that a member of a struct contributes lie in the bytes of the member. -/
theorem spans_of_expandMember {levels : Nat} {address own : Int} {path : String} {m : Member}
    {part : List LayoutNode}
    (h : expandMember (g.expandWith g.foldAll levels) false address path m = .ok part)
    (hown : g.byteSize m.typeRef = .ok (some own)) (hforward : 0 ≤ own)
    (hspans : ∀ {address name path n},
      g.expandWith g.foldAll levels m.typeRef address name path = .ok n →
        Spans address (address + max 0 n.byteSize) n.leafAddresses) :
    Spans (address + m.byteOffset) (address + m.byteOffset + own)
      (part.map leafAddresses).flatten := by
  obtain ⟨name, path', n, hn, hleaves | hleaves⟩ := leafAddresses_of_expandMember h
  · rw [hleaves]
    have hsize := byteSize_of_expandWith hn hown
    exact (hspans hn).widen (Int.le_refl _) (by omega)
  · rw [hleaves]
    exact .nil _ _

/-- No leaf of a member lies beyond one of a member that it precedes. -/
theorem le_of_precedes {levels : Nat} {address : Int} {path : String} {m m' : Member}
    {part part' : List LayoutNode}
    (h : expandMember (g.expandWith g.foldAll levels) false address path m = .ok part)
    (hprecedes : g.Precedes g.SharesUnit m m')
    (hspans : ∀ own, g.byteSize m.typeRef = .ok (some own) →
      Spans (address + m.byteOffset) (address + m.byteOffset + own)
        (part.map leafAddresses).flatten)
    (hspans' : ∃ last, Spans (address + m'.byteOffset) last (part'.map leafAddresses).flatten) :
    ∀ a ∈ (part.map leafAddresses).flatten, ∀ a' ∈ (part'.map leafAddresses).flatten, a ≤ a' := by
  intro a ha a' ha'
  obtain ⟨last, hspans'⟩ := hspans'
  have hstart := hspans'.lower a' ha'
  rcases hprecedes with ⟨⟨-, hundivided⟩, hle⟩ | ⟨own, hown, hend⟩
  · obtain ⟨name, path', n, hn, hleaves | hleaves⟩ := leafAddresses_of_expandMember h
    · rw [hleaves, leafAddresses_of_undivided hundivided hn, List.mem_singleton] at ha
      omega
    · rw [hleaves] at ha
      simp at ha
  · have := (hspans own hown).upper a ha
    omega

-- ---------------------------------------------------------------------------
-- The leaves of a layout
-- ---------------------------------------------------------------------------

/-- The leaves of an array come in order if those of each element lie in it. -/
theorem spans_of_elements {levels : Nat} {shape : ArrayShape} {inner own address : Int}
    {path : String} {elements : List LayoutNode} (hown : g.byteSize inner = .ok (some own))
    (hle : own ≤ shape.stride) (hpos : 0 ≤ own)
    (helements : g.Elements g.foldAll levels shape inner address path elements)
    (hspans : ∀ {address name path n},
      g.expandWith g.foldAll levels inner address name path = .ok n →
        Spans address (address + max 0 n.byteSize) n.leafAddresses) :
    Spans address (address + shape.byteSize) (elements.map leafAddresses).flatten := by
  have hblock : ∀ p n, expandElement (g.expandWith g.foldAll levels) shape inner address path p =
      .ok n → Spans (address + (ArrayShape.rowMajor shape.dims p * shape.stride : Nat))
        (address + (ArrayShape.rowMajor shape.dims p * shape.stride : Nat) + own)
        n.leafAddresses := by
    intro p n hn
    have hsize := byteSize_of_expandWith hn hown
    exact (hspans hn).widen (Int.le_refl _) (by omega)
  -- an element ends where the next one starts, or before
  have hend : ∀ i j, i < j → i * shape.stride + shape.stride ≤ j * shape.stride := by
    intro i j hij
    have h := Nat.mul_le_mul_right shape.stride (show i + 1 ≤ j from hij)
    rwa [Nat.add_mul, Nat.one_mul] at h
  refine LayoutNode.spans_flatten (fun b hb => ?_) ?_
  · obtain ⟨n, hn, rfl⟩ := List.mem_map.1 hb
    obtain ⟨p, hp, hpn⟩ := exists_of_mem_forall₂ helements hn
    have := hend _ _ (ArrayShape.rowMajor_lt hp)
    refine (hblock p n hpn).widen (by omega) ?_
    rw [ArrayShape.byteSize, ArrayShape.count]
    omega
  · rw [List.pairwise_map]
    refine pairwise_of_forall₂ helements (ArrayShape.pairwise_rowMajor shape.dims) ?_
    intro p p' n n' hlt hn hn' a ha a' ha'
    have := hend _ _ hlt
    have hupper := (hblock p n hn).upper a ha
    -- the leaves of the earlier element lie below its end, those of the later one above its start
    have hlower := (hblock p' n' hn').lower a' ha'
    omega

/-- The leaves of a struct come in order if its members do. -/
theorem spans_of_contributions {levels : Nat} {address total : Int} {path : String}
    {members : List Member} {parts : List (List LayoutNode)}
    (hfits : ∀ m ∈ members, ∃ own, g.byteSize m.typeRef = .ok (some own) ∧
      0 ≤ m.byteOffset ∧ m.byteOffset + own ≤ total)
    (horder : List.IsChain (g.Precedes g.SharesUnit) members)
    (hforward : ∀ m ∈ members, ∀ own, g.byteSize m.typeRef = .ok (some own) → 0 ≤ own)
    (hparts : g.Contributions g.foldAll levels false address path members parts)
    (hspans : ∀ m ∈ members, ∀ {address name path n},
      g.expandWith g.foldAll levels m.typeRef address name path = .ok n →
        Spans address (address + max 0 n.byteSize) n.leafAddresses) :
    Spans address (address + total) (parts.flatten.map leafAddresses).flatten := by
  have hparts := (List.forall₂_and_left _ _).2 ⟨fun m hm => hm, hparts⟩
  -- every member spans the bytes of its type, from its offset on
  have hblock : ∀ m part, m ∈ members ∧
      expandMember (g.expandWith g.foldAll levels) false address path m = .ok part →
        ∀ own, g.byteSize m.typeRef = .ok (some own) →
          Spans (address + m.byteOffset) (address + m.byteOffset + own)
            (part.map leafAddresses).flatten :=
    fun m part ⟨hm, hpart⟩ own hown =>
      spans_of_expandMember hpart hown (hforward m hm own hown) (hspans m hm)
  rw [List.map_flatten, List.flatten_flatten, List.map_map]
  refine LayoutNode.spans_flatten (fun b hb => ?_) ?_
  · obtain ⟨part, hpart, rfl⟩ := List.mem_map.1 hb
    obtain ⟨m, hm, hmpart⟩ := exists_of_mem_forall₂ hparts hpart
    obtain ⟨own, hown, hstart, hend⟩ := hfits m hmpart.1
    exact (hblock m part hmpart own hown).widen (by omega) (by omega)
  · rw [List.pairwise_map]
    refine pairwise_of_forall₂ hparts (pairwise_precedes horder hforward) ?_
    intro m m' part part' hprecedes hpart hpart'
    obtain ⟨own', hown', -⟩ := hfits m' hpart'.1
    exact le_of_precedes hpart.2 hprecedes (hblock m part hpart)
      ⟨_, hblock m' part' hpart' own' hown'⟩

/-- The leaves of a layout come in order, if all types on the way fit and have their members in
order. -/
theorem spans_of_expandWith {levels : Nat} {ref address : Int} {name path : String}
    {n : LayoutNode} (hfits : ∀ t, g.Reaches ref t → g.Fits t)
    (horder : ∀ t, g.Reaches ref t → g.InOrder g.SharesUnit t ∧ g.Forward t)
    (h : g.expandWith g.foldAll levels ref address name path = .ok n) :
    Spans address (address + max 0 n.byteSize) n.leafAddresses := by
  induction levels generalizing ref address name path n with
  | zero => exact absurd h (by simp [expandWith])
  | succ levels ih =>
    cases expandWith_succ_iff.1 h with
    | leaf _ _ _ hleaf =>
      rw [leafAddresses_of_leaf hleaf]
      -- a leaf is alone at its address
      refine ⟨List.pairwise_singleton _ _, by simp, fun a ha => ?_⟩
      rw [List.mem_singleton.1 ha]
      omega
    | array hnode hbody hshape hsize helements =>
      obtain ⟨hreach, own, hown, hpos, hle, htotal⟩ :=
        tiles_of_arrayShape hfits hnode hbody hshape hsize
      rw [LayoutNode.leafAddresses_array]
      have hspans := spans_of_elements hown hle hpos helements
        fun hn =>
          ih (fun t ht => hfits t (hreach.trans ht)) (fun t ht => horder t (hreach.trans ht)) hn
      refine hspans.widen (Int.le_refl _) ?_
      show address + (_ : Int) ≤ address + max 0 (Option.getD _ _)
      omega
    | composite hnode hbody hparts =>
      have hfits' := hfits ref (.refl g ref) _ hnode
      obtain ⟨hinorder, hforward⟩ := horder ref (.refl g ref)
      -- nothing but the order of the members is needed of the composite itself
      have hinorder := hinorder _ hnode
      have hforward := hforward _ hnode
      rw [hbody] at hfits' hinorder hforward
      obtain ⟨total, rfl, hmembers⟩ := hfits'
      obtain ⟨rfl, hchain⟩ := hinorder
      rw [LayoutNode.leafAddresses_composite]
      have hspans := spans_of_contributions hmembers hchain hforward hparts
        fun m hm _ _ _ _ hn =>
          ih (Reaches.of_part (.member hnode hbody hm) hfits)
            (Reaches.of_part (.member hnode hbody hm) horder) hn
      refine hspans.widen (Int.le_refl _) ?_
      show address + total ≤ address + max 0 (Option.getD (some total) 0)
      rw [Option.getD_some]
      omega

/-- In the layout of a symbol whose types all fit, each node lies within the one above it and within
the symbol. If the members of all types come in order, so do the leaves. -/
theorem layout_nested {depth : Nat} {ref address : Int} {name : String} {n : LayoutNode}
    (hfits : ∀ t, g.Reaches ref t → g.Fits t) (h : g.layout depth ref address name = .ok n) :
    n.address = address ∧ n.Nested ∧ (∀ m ∈ n.nodes, m.Within n) ∧
      ((∀ t, g.Reaches ref t → g.InOrder g.SharesUnit t ∧ g.Forward t) →
        n.leafAddresses.Pairwise (· ≤ ·)) := by
  have h := layoutWith_eq_ok.1 h
  have hnested := nested_of_expandWith hfits h
  exact ⟨(header_of_expandWith h).2.2, hnested, hnested.within,
    fun horder => (spans_of_expandWith hfits horder h).sorted⟩

-- ---------------------------------------------------------------------------
-- A record whose leaves come in order
-- ---------------------------------------------------------------------------

/-- A unit with a record of two bitfields in one storage unit, an unnamed structure of two numbers
and a table of two rows by two columns. -/
def recordUnit : Entry :=
  .node 1 Tag.compileUnit (.ofList [(Attr.name, .text "a.c")])
    [.node 2 Tag.baseType (.ofList [(Attr.name, .text "unsigned"), (Attr.byteSize, .int 4),
        (Attr.encoding, .int 7)]) [],
      .node 3 Tag.baseType (.ofList [(Attr.name, .text "short"), (Attr.byteSize, .int 2),
        (Attr.encoding, .int 5)]) [],
      .node 4 Tag.arrayType (.ofList [(Attr.type, .int 3)])
        [.node 5 Tag.subrangeType (.ofList [(Attr.count, .int 2)]) []],
      .node 6 Tag.arrayType (.ofList [(Attr.type, .int 4)])
        [.node 7 Tag.subrangeType (.ofList [(Attr.count, .int 2)]) []],
      .node 8 Tag.structureType (.ofList [(Attr.byteSize, .int 4)])
        [.node 9 Tag.member (.ofList [(Attr.name, .text "low"), (Attr.type, .int 3),
            (Attr.memberLocation, .int 0)]) [],
          .node 10 Tag.member (.ofList [(Attr.name, .text "high"), (Attr.type, .int 3),
            (Attr.memberLocation, .int 2)]) []],
      .node 11 Tag.structureType (.ofList [(Attr.name, .text "record"), (Attr.byteSize, .int 16)])
        [.node 12 Tag.member (.ofList [(Attr.name, .text "mode"), (Attr.type, .int 2),
            (Attr.memberLocation, .int 0), (Attr.bitSize, .int 3)]) [],
          .node 13 Tag.member (.ofList [(Attr.name, .text "state"), (Attr.type, .int 2),
            (Attr.memberLocation, .int 0), (Attr.bitSize, .int 5),
            (Attr.dataBitOffset, .int 3)]) [],
          .node 14 Tag.member (.ofList [(Attr.type, .int 8), (Attr.memberLocation, .int 4)]) [],
          .node 15 Tag.member (.ofList [(Attr.name, .text "table"), (Attr.type, .int 6),
            (Attr.memberLocation, .int 8)]) []]]

/-- The types of that unit. -/
def records : TypeGraph where
  nodes := ⟨[(2, ⟨2, some "unsigned", .scalar (some .unsigned) 4 (.unsigned .w32)⟩),
    (3, ⟨3, some "short", .scalar (some .signed) 2 (.signed .w16)⟩),
    (4, ⟨4, none, .array 3 [2] none none⟩), (6, ⟨6, none, .array 4 [2] none none⟩),
    (8, ⟨8, none, .composite .struct (some 4)
      [⟨some "low", 3, 0, none, none, false⟩, ⟨some "high", 3, 2, none, none, false⟩] false⟩),
    (11, ⟨11, some "record", .composite .struct (some 16)
      [⟨some "mode", 2, 0, some 0, some 3, false⟩, ⟨some "state", 2, 0, some 3, some 5, false⟩,
        ⟨none, 8, 4, none, none, false⟩, ⟨some "table", 6, 8, none, none, false⟩] false⟩)]⟩
  aliases := .empty
  typedefNames := .empty
  faults := []

theorem build_recordUnit : build .standard (Store.empty.addRoot recordUnit).1 = records := by
  decide +kernel

/-- All types that the record reaches have their members in order. -/
theorem records_inOrder {t : Int} (h : records.Reaches 11 t) :
    records.Fits t ∧ records.InOrder records.SharesUnit t ∧ records.Forward t := by
  have hmem : t ∈ [11, 8, 6, 4, 3, 2] := h.mem_of_closed (by decide +kernel) (by simp)
  have hall : ∀ t ∈ [11, 8, 6, 4, 3, 2],
      records.Fits t ∧ records.InOrder records.SharesUnit t ∧ records.Forward t := by
    decide +kernel
  exact hall t hmem

/-- The layout of a record is nested, and its leaves come in order. -/
theorem layout_nested_record :
    build .standard (Store.empty.addRoot recordUnit).1 = records ∧
    ∃ n, records.layout defaultDepth 11 0x1000 "record" = .ok n ∧
      n.address = 0x1000 ∧ n.Nested ∧ (∀ m ∈ n.nodes, m.Within n) ∧
      ((∀ t, records.Reaches 11 t → records.InOrder records.SharesUnit t ∧ records.Forward t) →
        n.leafAddresses.Pairwise (· ≤ ·)) ∧
      ∀ t, records.Reaches 11 t → records.InOrder records.SharesUnit t ∧ records.Forward t := by
  have h : records.layout defaultDepth 11 0x1000 "record" = .ok _ := rfl
  obtain ⟨haddress, hnested, hwithin, horder⟩ :=
    layout_nested (fun t ht => (records_inOrder ht).1) h
  exact ⟨build_recordUnit, _, h, haddress, hnested, hwithin, horder,
    fun t ht => (records_inOrder ht).2⟩

-- ---------------------------------------------------------------------------
-- Structs whose leaves do not come in order
-- ---------------------------------------------------------------------------

/-- A unit with a struct whose first member is a bitfield of a struct of two numbers, and with one
whose first member has a negative size. -/
def overlapUnit : Entry :=
  .node 1 Tag.compileUnit (.ofList [(Attr.name, .text "a.c")])
    [.node 2 Tag.baseType (.ofList [(Attr.name, .text "int"), (Attr.byteSize, .int 4),
        (Attr.encoding, .int 5)]) [],
      .node 3 Tag.baseType (.ofList [(Attr.name, .text "odd"), (Attr.byteSize, .int (-4)),
        (Attr.encoding, .int 5)]) [],
      .node 4 Tag.structureType (.ofList [(Attr.name, .text "pair"), (Attr.byteSize, .int 8)])
        [.node 5 Tag.member (.ofList [(Attr.name, .text "a"), (Attr.type, .int 2),
            (Attr.memberLocation, .int 0)]) [],
          .node 6 Tag.member (.ofList [(Attr.name, .text "b"), (Attr.type, .int 2),
            (Attr.memberLocation, .int 4)]) []],
      .node 7 Tag.structureType (.ofList [(Attr.name, .text "shared"), (Attr.byteSize, .int 8)])
        [.node 8 Tag.member (.ofList [(Attr.name, .text "f"), (Attr.type, .int 4),
            (Attr.memberLocation, .int 0), (Attr.bitSize, .int 3)]) [],
          .node 9 Tag.member (.ofList [(Attr.name, .text "z"), (Attr.type, .int 2),
            (Attr.memberLocation, .int 0)]) []],
      .node 10 Tag.structureType (.ofList [(Attr.name, .text "backward"), (Attr.byteSize, .int 4)])
        [.node 11 Tag.member (.ofList [(Attr.name, .text "s"), (Attr.type, .int 3),
            (Attr.memberLocation, .int 4)]) [],
          .node 12 Tag.member (.ofList [(Attr.name, .text "u"), (Attr.type, .int 2),
            (Attr.memberLocation, .int 0)]) []]]

/-- The types of that unit. -/
def overlaps : TypeGraph where
  nodes := ⟨[(2, ⟨2, some "int", .scalar (some .signed) 4 (.signed .w32)⟩),
    (3, ⟨3, some "odd", .scalar (some .signed) (-4) .unknown⟩),
    (4, ⟨4, some "pair", .composite .struct (some 8)
      [⟨some "a", 2, 0, none, none, false⟩, ⟨some "b", 2, 4, none, none, false⟩] false⟩),
    (7, ⟨7, some "shared", .composite .struct (some 8)
      [⟨some "f", 4, 0, some 0, some 3, false⟩, ⟨some "z", 2, 0, none, none, false⟩] false⟩),
    (10, ⟨10, some "backward", .composite .struct (some 4)
      [⟨some "s", 3, 4, none, none, false⟩, ⟨some "u", 2, 0, none, none, false⟩] false⟩)]⟩
  aliases := .empty
  typedefNames := .empty
  faults := []

theorem overlaps_fit {ref t : Int} (href : ref ∈ [7, 10]) (h : overlaps.Reaches ref t) :
    overlaps.Fits t ∧ overlaps.InOrder (·.isBitfield) t := by
  have hsub : ∀ ref ∈ ([7, 10] : List Int), ref ∈ ([2, 3, 4, 7, 10] : List Int) := by decide
  have hmem : t ∈ [2, 3, 4, 7, 10] := h.mem_of_closed (by decide +kernel) (hsub ref href)
  have hall : ∀ t ∈ [2, 3, 4, 7, 10], overlaps.Fits t ∧ overlaps.InOrder (·.isBitfield) t := by
    decide +kernel
  exact hall t hmem

/-- That all bitfields may share their storage is not enough, nor is it without negative sizes. -/
theorem leaves_out_of_order :
    build .standard (Store.empty.addRoot overlapUnit).1 = overlaps ∧
      ∀ ref ∈ [7, 10],
        (∀ t, overlaps.Reaches ref t → overlaps.Fits t ∧ overlaps.InOrder (·.isBitfield) t) ∧
          ∃ n, overlaps.layout defaultDepth ref 0x1000 "x" = .ok n ∧
            ¬n.leafAddresses.Pairwise (· ≤ ·) := by
  refine ⟨by decide +kernel, fun ref href => ⟨fun t ht => overlaps_fit href ht, ?_⟩⟩
  simp only [List.mem_cons, List.not_mem_nil, or_false] at href
  rcases href with rfl | rfl
  · refine ⟨_, rfl, ?_⟩
    simp [leafAddresses, LayoutNode.leaves, asMember, Member.isBitfield, Leaf.address]
  · refine ⟨_, rfl, ?_⟩
    simp [leafAddresses, LayoutNode.leaves, asMember, Member.isBitfield, Leaf.address]

end TypeGraph

end DebugLayout
