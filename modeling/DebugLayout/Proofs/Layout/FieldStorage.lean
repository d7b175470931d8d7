import DebugLayout.Proofs.Layout.BitfieldUnits
import DebugLayout.Proofs.TypeGraph.StorageUnits

/-!
# DebugLayout — the bytes that hold a bitfield

A bitfield is checked to lie inside its storage unit when its type is built, and it is expanded with
the bytes of its type. The two agree as long as the entry of the member gives no storage unit of its
own, or one that is no larger than the type. Then all of the bits are among those of the bytes at
the address of the field. If the entry gives a larger unit, the bits may lie behind these bytes.

* `Entry.DescribesField`, `Entry.unitSize`: the entry of a bitfield, and the size of its unit;
* `TypeGraph.stored_of_expandWith`: the bitfields of an expansion lie inside their units;
* `TypeGraph.bitfields_of_layout`: and where the units are no larger, inside their bytes.
-/

namespace DebugLayout

/-- Whether the entry of a member describes a bitfield: it gives its name and the number of its
bits, and the type whose bytes it takes. -/
structure Entry.DescribesField (c : Entry) (g : TypeGraph) (leaf : ScalarLeaf) : Prop where
  tag : c.tag = Tag.member
  name : c.name? = some leaf.name
  bitSize : c.intAttr? Attr.bitSize = .ok leaf.bitSize
  type : ∃ type node, c.typeRef? = some type ∧ g.resolve type = .ok node ∧
    leaf.byteSize = node.byteSize?.getD 0

/-- The size of the storage unit of a bitfield: what its entry gives, or else the size of its
type. -/
def Entry.unitSize (c : Entry) (leaf : ScalarLeaf) : Int := c.byteSize?.getD leaf.byteSize

/-- Whether a scalar is no bitfield or has some bits, all of them inside the storage unit of an
entry that describes it. -/
def ScalarLeaf.Stored (store : Store) (g : TypeGraph) (leaf : ScalarLeaf) : Prop :=
  ∀ size, leaf.bitSize = some size → 0 < size ∧ 0 ≤ leaf.bitOffset ∧
    ∃ e, store.entry? e.ref = some e ∧ ∃ c ∈ e.children, c.DescribesField g leaf ∧
      leaf.bitOffset + size ≤ c.unitSize leaf * 8

/-- A member that has bits is read from the entry of a member, with its name and its type. -/
theorem Member.ReadFrom.entry_of_bitSize {m : Member} {target : Target} {inUnion : Bool} {c : Entry}
    {size : Int} (h : m.ReadFrom target inUnion c) (hsize : m.bitSize = some size) :
    c.tag = Tag.member ∧ c.name? = m.name ∧ c.typeRef? = some m.typeRef := by
  cases h with
  | baseClass | whole => exact absurd hsize (by simp)
  | field htag htype => exact ⟨htag, rfl, htype⟩

namespace TypeGraph

variable {store : Store} {target : Target} {g : TypeGraph} {ref : Int} {type : TypeNode}
variable {leaf : ScalarLeaf}

/-- A scalar takes the bytes of its type. -/
theorem ScalarOf.byteSize_eq (h : g.ScalarOf ref type leaf) :
    leaf.byteSize = type.byteSize?.getD 0 :=
  (header_of_leaf h.expanded).2.2.2

theorem ScalarOf.byteSize_of_sizedAs {unit : Int} (h : g.ScalarOf ref type leaf)
    (hunit : g.SizedAs ref unit) : leaf.byteSize = unit := by
  obtain ⟨node, hnode, hsize⟩ := hunit
  obtain rfl := eq_of_ok h.resolved hnode
  rw [h.byteSize_eq, hsize h.not_array, Option.getD_some]

/-- The bitfields of the types of a graph that was built lie inside their storage units. -/
theorem stored_of_expandWith {fold : Folding} {levels : Nat} {ref address : Int}
    {name path : String} {n : LayoutNode}
    (h : (build target store).expandWith fold levels ref address name path = .ok n) :
    n.AllScalars (ScalarLeaf.Stored store (build target store)) := by
  refine allScalars_of_expandWith (fun hscalar size hsize => ?_)
    (fun {ref node kind total members isClass m type leaf} hnode hbody hm _ hname htype size
      hsize => ?_) h
  · -- a leaf that is no member has no bit size
    rw [bitSize_of_leaf hscalar.expanded] at hsize
    exact absurd hsize (by simp)
  · -- a member was read from a child of an entry, where its attributes are
    obtain ⟨e, he, c, hc, hread, hunit⟩ := inUnit_of_resolve hnode hbody hm
    obtain ⟨hbits, hpos, offset, unit, hoffset, hstart, hend, hsource⟩ := hunit size hsize
    obtain ⟨htag, hcname, hctype⟩ := hread.entry_of_bitSize hsize
    rw [hoffset]
    refine ⟨hpos, hstart, e, he, c, hc, ?_, ?_⟩
    · exact
        { tag := htag
          name := hcname.trans hname
          bitSize := hbits.trans (congrArg Except.ok hsize.symm)
          type := ⟨m.typeRef, type, hctype, htype.resolved, htype.byteSize_eq⟩ }
    · -- without a size in the entry, the unit has the size of the type, as the scalar does
      rcases hsource with hown | ⟨hnone, hsized⟩
      · rw [Entry.unitSize, hown]
        exact hend
      · rw [Entry.unitSize, hnone]
        rw [← htype.byteSize_of_sizedAs hsized] at hend
        exact hend

/-- Every bitfield in the layout of a type has some bits, which start within its storage unit and
end within the unit that an entry that describes it speaks of. They end within the bytes of the
field if the entry speaks of no unit larger than these. -/
theorem bitfields_of_layout {depth : Nat} {ref address : Int} {name : String} {n : LayoutNode}
    {leaf : ScalarLeaf} {size : Int}
    (h : (build target store).layout depth ref address name = .ok n)
    (hleaf : .scalar leaf ∈ n.nodes) (hsize : leaf.bitSize = some size) :
    1 ≤ size ∧ 0 ≤ leaf.bitOffset ∧
      ∃ e, store.entry? e.ref = some e ∧ ∃ c ∈ e.children,
        c.DescribesField (build target store) leaf ∧ leaf.bitOffset + size ≤ 8 * c.unitSize leaf ∧
        (c.unitSize leaf ≤ leaf.byteSize → leaf.bitOffset + size ≤ 8 * leaf.byteSize) := by
  have hstored := (stored_of_expandWith (layoutWith_eq_ok.1 h)).of_mem_nodes hleaf
  obtain ⟨hpos, hstart, e, he, c, hc, hdescribes, hend⟩ :=
    (LayoutNode.allScalars_iff.1 hstored).1 leaf rfl size hsize
  exact ⟨hpos, hstart, e, he, c, hc, hdescribes, by omega, fun hle => by omega⟩

/-- A struct of two fields of the type of a byte, one of which has a storage unit of four bytes. -/
def flagsUnit : Entry :=
  .node 1 Tag.compileUnit (.ofList [(Attr.name, .text "a.c")])
    [.node 2 Tag.baseType (.ofList [(Attr.name, .text "unsigned char"), (Attr.byteSize, .int 1),
        (Attr.encoding, .int 8)]) [],
      .node 3 Tag.structureType (.ofList [(Attr.name, .text "Flags"), (Attr.byteSize, .int 4)])
        [.node 4 Tag.member (.ofList [(Attr.name, .text "ready"), (Attr.type, .int 2),
            (Attr.bitSize, .int 1), (Attr.dataBitOffset, .int 0)]) [],
          .node 5 Tag.member (.ofList [(Attr.name, .text "mode"), (Attr.type, .int 2),
            (Attr.byteSize, .int 4), (Attr.bitSize, .int 3), (Attr.bitOffset, .int 19)]) []]]

/-- The types of that unit. -/
def flags : TypeGraph where
  nodes := ⟨[(2, ⟨2, some "unsigned char", .scalar (some .unsignedChar) 1 (.unsigned .w8)⟩),
    (3, ⟨3, some "Flags", .composite .struct (some 4)
      [⟨some "ready", 2, 0, some 0, some 1, false⟩, ⟨some "mode", 2, 0, some 10, some 3, false⟩]
      false⟩)]⟩
  aliases := .empty
  typedefNames := .empty
  faults := []

theorem build_flags : build .standard (Store.empty.addRoot flagsUnit).1 = flags := by
  decide +kernel

/-- One of these fields, in a symbol at 0x1000. -/
def flag (name path : String) (bitOffset bitSize : Int) : ScalarLeaf :=
  ⟨⟨name, path, 0x1000, 1, some "unsigned char"⟩, .unsigned .w8, bitOffset, some bitSize, none⟩

/-- The layout of that symbol. -/
def flagsTree : LayoutNode :=
  .composite ⟨"f", "f", 0x1000, 4, some "Flags"⟩ false 0
    [.scalar (flag "ready" "f.ready" 0 1), .scalar (flag "mode" "f.mode" 10 3)]

/-- The layout of the flags. -/
theorem layout_flags :
    (build .standard (Store.empty.addRoot flagsUnit).1).layout defaultDepth 3 0x1000 "f" =
      .ok flagsTree := by
  rw [build_flags]
  rfl

theorem mem_nodes_flagsTree {leaf : ScalarLeaf} (h : .scalar leaf ∈ flagsTree.children) :
    .scalar leaf ∈ flagsTree.nodes := by
  rw [LayoutNode.nodes_eq]
  exact List.mem_cons_of_mem _
    (List.mem_flatMap.2 ⟨_, h, by rw [LayoutNode.nodes_eq]; exact List.mem_cons_self⟩)

/-- A field at bit 10 of a unit of one byte lies inside the unit that its entry describes. -/
theorem bitfields_of_layout_flags :
    let ready := flag "ready" "f.ready" 0 1
    .scalar ready ∈ flagsTree.nodes ∧ 1 ≤ (1 : Int) ∧ 0 ≤ ready.bitOffset ∧
      ∃ e, Store.entry? (Store.empty.addRoot flagsUnit).1 e.ref = some e ∧ ∃ c ∈ e.children,
        c.DescribesField (build .standard (Store.empty.addRoot flagsUnit).1) ready ∧
          ready.bitOffset + 1 ≤ 8 * c.unitSize ready ∧
          (c.unitSize ready ≤ ready.byteSize → ready.bitOffset + 1 ≤ 8 * ready.byteSize) := by
  have hready := @mem_nodes_flagsTree (flag "ready" "f.ready" 0 1) List.mem_cons_self
  exact ⟨hready, bitfields_of_layout layout_flags hready rfl⟩

/-- The bits of the other field lie behind the byte of its type. -/
theorem flag_behind_its_bytes :
    let mode := flag "mode" "f.mode" 10 3
    (build .standard (Store.empty.addRoot flagsUnit).1).layout defaultDepth 3 0x1000 "f" =
        .ok flagsTree ∧
      .scalar mode ∈ flagsTree.nodes ∧ mode.bitSize = some 3 ∧
        ¬mode.bitOffset + 3 ≤ 8 * mode.byteSize :=
  ⟨layout_flags, mem_nodes_flagsTree (List.mem_cons_of_mem _ List.mem_cons_self), rfl, by decide⟩

end TypeGraph

end DebugLayout
