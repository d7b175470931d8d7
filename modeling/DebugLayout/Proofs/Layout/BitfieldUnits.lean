import DebugLayout.Proofs.Layout.Faults
import DebugLayout.Proofs.TypeGraph.Contents
import Mathlib.Data.Finset.Card

/-!
# DebugLayout — bitfields that share a storage unit

The bitfields directly in a composite are told by storage unit, and of every unit how many of its
bits are used. Each bitfield comes to be in exactly one unit, after those that were declared before
it, whether the composite is a struct, a union or has the members of unnamed ones.

The bits that are used are counted field by field. A bit that several fields take, as they do in a
union, is counted for each of them. So the count is that of the bits that are taken exactly for
the units in which no two fields overlap.

The walk over the fields is described by an invariant: after each field, the units group the fields
so far. A field that finds its unit extends it, and one that finds none opens a new one at the end,
so that the order of the units is that of their first fields.

* `BitfieldUnit.Groups`, `LayoutNode.groups_bitfieldUnits`: the units of a composite;
* `BitfieldUnit.takenBits`, `Apart`, `Encloses.usedBits_eq_iff`: the bits of a unit;
* `TypeGraph.bitfieldUnits_of_layout`: both for the composites of all layouts.
-/

namespace DebugLayout

/-- So many bits from one on. -/
def bitsFrom (start width : Int) : Finset Int :=
  (Finset.range width.toNat).image fun i : Nat => start + i

theorem mem_bitsFrom {start width bit : Int} :
    bit ∈ bitsFrom start width ↔ start ≤ bit ∧ bit < start + width := by
  simp only [bitsFrom, Finset.mem_image, Finset.mem_range]
  constructor
  · rintro ⟨i, hi, rfl⟩
    omega
  · rintro ⟨hle, hlt⟩
    exact ⟨(bit - start).toNat, by omega, by omega⟩

/-- There are as many bits as the width says, and none if it is negative. -/
theorem card_bitsFrom (start width : Int) : (bitsFrom start width).card = width.toNat := by
  have hinjective : Function.Injective fun i : Nat => start + i :=
    fun i j hij => Int.ofNat_inj.1 (Int.add_left_cancel hij)
  rw [bitsFrom, Finset.card_image_of_injective _ hinjective, Finset.card_range]

/-- The bits of its storage unit that a scalar takes. -/
def ScalarLeaf.bits (leaf : ScalarLeaf) : Finset Int := bitsFrom leaf.bitOffset leaf.bitWidth

/-- Whether a scalar starts within its storage unit and takes some bits, if it is a bitfield. -/
def ScalarLeaf.HasPlace (leaf : ScalarLeaf) : Prop :=
  ∀ size, leaf.bitSize = some size → 0 ≤ leaf.bitOffset ∧ 0 < size

/-- Whether a scalar ends within its storage unit. -/
def ScalarLeaf.EndsInside (leaf : ScalarLeaf) : Prop :=
  leaf.bitOffset + leaf.bitWidth ≤ leaf.byteSize * 8

instance (leaf : ScalarLeaf) : Decidable leaf.EndsInside := inferInstanceAs (Decidable (_ ≤ _))

namespace BitfieldUnit

variable {u : BitfieldUnit} {us : List BitfieldUnit} {leaf : ScalarLeaf} {fields : List ScalarLeaf}

/-- Where the unit lies. -/
def place (u : BitfieldUnit) : Int × Int := (u.address, u.byteSize)

/-- Whether a unit is the storage unit of a bitfield. -/
def Holds (u : BitfieldUnit) (leaf : ScalarLeaf) : Prop :=
  u.address = leaf.address ∧ u.byteSize = leaf.byteSize

instance (u : BitfieldUnit) (leaf : ScalarLeaf) : Decidable (u.Holds leaf) :=
  inferInstanceAs (Decidable (_ ∧ _))

theorem holds_iff : u.Holds leaf ↔ u.place = (leaf.address, leaf.byteSize) := by
  rw [Holds, place, Prod.mk.injEq]

-- ---------------------------------------------------------------------------
-- Units
-- ---------------------------------------------------------------------------

/-- Some units are those of some bitfields: there is one for the storage unit of each of them, and
it has those that share it, in order. -/
structure Groups (us : List BitfieldUnit) (fields : List ScalarLeaf) : Prop where
  distinct : (us.map place).Nodup
  fields_eq : ∀ u ∈ us, u.fields = fields.filter u.Holds
  nonempty : ∀ u ∈ us, u.fields ≠ []
  unit : ∀ leaf ∈ fields, ∃ u ∈ us, u.Holds leaf

/-- The unit with one more field, if it is the storage unit of that. -/
def extend (leaf : ScalarLeaf) (u : BitfieldUnit) : BitfieldUnit :=
  if u.Holds leaf then { u with fields := u.fields ++ [leaf] } else u

theorem extend_of_not (h : ¬u.Holds leaf) : u.extend leaf = u := if_neg h

theorem place_extend : (u.extend leaf).place = u.place := by
  unfold extend
  split <;> rfl

/-- A unit with one more bitfield holds the same bitfields as before. -/
theorem holds_extend {other : ScalarLeaf} : (u.extend leaf).Holds other ↔ u.Holds other := by
  rw [holds_iff, holds_iff, place_extend]

/-- A bitfield joins the fields of the unit that holds it, at their end. -/
theorem fields_extend :
    (u.extend leaf).fields = u.fields ++ if u.Holds leaf then [leaf] else [] := by
  unfold extend
  split <;> simp

/-- A bitfield joins the first unit that holds it, and looks at the others if there is none. -/
theorem addField_cons : LayoutNode.addField leaf (u :: us) =
    if u.Holds leaf then { u with fields := u.fields ++ [leaf] } :: us
    else u :: LayoutNode.addField leaf us := rfl

/-- A bitfield without unit is put in one of its own behind all others. -/
theorem addField_of_new (hnew : ∀ u ∈ us, ¬u.Holds leaf) :
    LayoutNode.addField leaf us = us ++ [⟨leaf.address, leaf.byteSize, [leaf]⟩] := by
  induction us with
  | nil => rfl
  | cons u us ih =>
    obtain ⟨hu, hus⟩ := List.forall_mem_cons.1 hnew
    rw [addField_cons, if_neg hu, ih hus, List.cons_append]

/-- A bitfield is put with its unit, which is the only one at its place. -/
theorem addField_of_mem (hdistinct : (us.map place).Nodup) (hfound : ∃ u ∈ us, u.Holds leaf) :
    LayoutNode.addField leaf us = us.map (extend leaf) := by
  induction us with
  | nil => exact absurd hfound (by simp)
  | cons u us ih =>
    rw [List.map_cons, List.nodup_cons] at hdistinct
    obtain ⟨hfresh, hdistinct⟩ := hdistinct
    rw [addField_cons, List.map_cons]
    by_cases hu : u.Holds leaf
    · -- no other unit is in the same place
      have hothers : ∀ v ∈ us, extend leaf v = v := by
        refine fun v hv => extend_of_not fun hholds => hfresh ?_
        rw [holds_iff.1 hu, ← holds_iff.1 hholds]
        exact List.mem_map_of_mem hv
      rw [if_pos hu, extend, if_pos hu, List.map_congr_left hothers, List.map_id']
    · have hrest : ∃ v ∈ us, v.Holds leaf := by simpa [hu] using hfound
      rw [if_neg hu, ih hdistinct hrest, extend_of_not hu]

theorem groups_nil : Groups [] [] := ⟨.nil, by simp, by simp, by simp⟩

/-- With its unit extended, the units are those of one more bitfield. -/
theorem Groups.extend (h : Groups us fields) (hfound : ∃ u ∈ us, u.Holds leaf) :
    Groups (us.map (extend leaf)) (fields ++ [leaf]) where
  distinct := by
    -- a unit keeps its place when a field is put into it
    have hplaces : (us.map (BitfieldUnit.extend leaf)).map place = us.map place := by
      rw [List.map_map]
      exact List.map_congr_left fun u _ => place_extend
    rw [hplaces]
    exact h.distinct
  fields_eq := by
    refine List.forall_mem_map.2 fun u hu => ?_
    simp only [holds_extend, List.filter_append, fields_extend, h.fields_eq u hu]
    by_cases hholds : u.Holds leaf <;> simp [hholds]
  nonempty := by
    refine List.forall_mem_map.2 fun u hu => ?_
    rw [fields_extend]
    simp [h.nonempty u hu]
  unit := by
    intro other hother
    obtain ⟨u, hu, hholds⟩ : ∃ u ∈ us, u.Holds other := by
      rcases List.mem_append.1 hother with hother | hother
      · exact h.unit other hother
      · rwa [List.mem_singleton.1 hother]
    exact ⟨u.extend leaf, List.mem_map_of_mem hu, holds_extend.2 hholds⟩

/-- With a unit of its own, the units are those of one more bitfield. -/
theorem Groups.append (h : Groups us fields) (hnew : ∀ u ∈ us, ¬u.Holds leaf) :
    Groups (us ++ [⟨leaf.address, leaf.byteSize, [leaf]⟩]) (fields ++ [leaf]) where
  distinct := by
    rw [List.map_append, List.map_singleton, List.nodup_append]
    refine ⟨h.distinct, List.nodup_singleton _, ?_⟩
    rintro _ hplace _ hsame rfl
    obtain ⟨u, hu, huplace⟩ := List.mem_map.1 hplace
    -- a unit in the place of the new one would hold the field
    exact hnew u hu (holds_iff.2 (huplace.trans (List.mem_singleton.1 hsame)))
  fields_eq := by
    refine List.forall_mem_append.2 ⟨fun u hu => ?_, List.forall_mem_singleton.2 ?_⟩
    · rw [List.filter_append, ← h.fields_eq u hu]
      simp [hnew u hu]
    · -- no field so far shares the storage unit of the new one
      rw [List.filter_append, List.filter_eq_nil_iff.2 fun other hother => ?_]
      · simp [Holds]
      · obtain ⟨u, hu, hholds⟩ := h.unit other hother
        rw [decide_eq_true_eq]
        exact fun hshares =>
          hnew u hu ⟨hholds.1.trans hshares.1.symm, hholds.2.trans hshares.2.symm⟩
  nonempty := List.forall_mem_append.2 ⟨h.nonempty, by simp⟩
  unit := by
    refine List.forall_mem_append.2 ⟨fun other hother => ?_, List.forall_mem_singleton.2 ?_⟩
    · obtain ⟨u, hu, hholds⟩ := h.unit other hother
      exact ⟨u, List.mem_append_left _ hu, hholds⟩
    · exact ⟨_, List.mem_append_right _ (List.mem_singleton_self _), rfl, rfl⟩

/-- One more bitfield finds its unit, be it there already or new. -/
theorem Groups.addField (h : Groups us fields) (leaf : ScalarLeaf) :
    Groups (LayoutNode.addField leaf us) (fields ++ [leaf]) := by
  by_cases hfound : ∃ u ∈ us, u.Holds leaf
  · rw [addField_of_mem h.distinct hfound]
    exact h.extend hfound
  · have hnew : ∀ u ∈ us, ¬u.Holds leaf := fun u hu hholds => hfound ⟨u, hu, hholds⟩
    rw [addField_of_new hnew]
    exact h.append hnew

/-- The order of the units makes no difference. -/
theorem Groups.perm {vs : List BitfieldUnit} (h : Groups us fields) (hperm : vs.Perm us) :
    Groups vs fields where
  distinct := (hperm.map place).nodup_iff.2 h.distinct
  fields_eq := fun u hu => h.fields_eq u (hperm.mem_iff.1 hu)
  nonempty := fun u hu => h.nonempty u (hperm.mem_iff.1 hu)
  unit := by
    intro leaf hleaf
    obtain ⟨u, hu, hholds⟩ := h.unit leaf hleaf
    exact ⟨u, hperm.mem_iff.2 hu, hholds⟩

/-- Every bitfield is in one of the units and in no other. -/
theorem Groups.existsUnique (h : Groups us fields) (hleaf : leaf ∈ fields) :
    ∃! u, u ∈ us ∧ leaf ∈ u.fields := by
  have hmem : ∀ u ∈ us, leaf ∈ u.fields ↔ u.Holds leaf := by
    intro u hu
    rw [h.fields_eq u hu]
    simp [hleaf]
  obtain ⟨u, hu, hholds⟩ := h.unit leaf hleaf
  refine ⟨u, ⟨hu, (hmem u hu).2 hholds⟩, ?_⟩
  rintro v ⟨hv, hleafv⟩
  refine List.inj_on_of_nodup_map h.distinct hv hu ?_
  rw [holds_iff.1 hholds, holds_iff.1 ((hmem v hv).1 hleafv)]

end BitfieldUnit

/-- The units of a composite are those of its bitfields. -/
theorem LayoutNode.groups_bitfieldUnits (n : LayoutNode) :
    BitfieldUnit.Groups n.bitfieldUnits n.bitfields := by
  have hfold : ∀ fields : List ScalarLeaf,
      BitfieldUnit.Groups (fields.foldl (fun us leaf => addField leaf us) []) fields := by
    intro fields
    induction fields using List.reverseRecOn with
    | nil => exact BitfieldUnit.groups_nil
    | append_singleton fields leaf ih =>
      rw [List.foldl_append]
      exact ih.addField leaf
  unfold bitfieldUnits
  exact (hfold n.bitfields).perm (List.mergeSort_perm _ _)

namespace BitfieldUnit

variable {u : BitfieldUnit}

-- ---------------------------------------------------------------------------
-- Bits
-- ---------------------------------------------------------------------------

/-- The bits of a unit that at least one of its fields takes. -/
def takenBits (u : BitfieldUnit) : Finset Int :=
  (bitsFrom 0 (u.byteSize * 8)).filter fun bit => ∃ leaf ∈ u.fields, bit ∈ leaf.bits

/-- Whether no two fields of a unit take the same bit. -/
def Apart (u : BitfieldUnit) : Prop := u.fields.Pairwise fun a b => ∀ bit ∈ a.bits, bit ∉ b.bits

/-- The bits that some fields take. -/
def bitsOf (fields : List ScalarLeaf) : Finset Int :=
  fields.foldr (fun leaf bits => leaf.bits ∪ bits) ∅

theorem mem_bitsOf {fields : List ScalarLeaf} {bit : Int} :
    bit ∈ bitsOf fields ↔ ∃ leaf ∈ fields, bit ∈ leaf.bits := by
  induction fields with
  | nil => simp [bitsOf]
  | cons leaf fields ih =>
    rw [List.exists_mem_cons_iff, ← ih]
    exact Finset.mem_union

/-- A bitfield of a width that is not negative has that many bits. -/
theorem card_bits {leaf : ScalarLeaf} (h : 0 ≤ leaf.bitWidth) :
    (leaf.bits.card : Int) = leaf.bitWidth := by
  rw [ScalarLeaf.bits, card_bitsFrom]
  omega

/-- The widths of some fields come to no less than the bits that they take, and to as many just if
the fields lie apart. -/
theorem card_bitsOf {address byteSize : Int} {fields : List ScalarLeaf}
    (hwidth : ∀ leaf ∈ fields, 0 ≤ leaf.bitWidth) :
    (bitsOf fields).card ≤ usedBits ⟨address, byteSize, fields⟩ ∧
      (usedBits ⟨address, byteSize, fields⟩ = (bitsOf fields).card ↔
        Apart ⟨address, byteSize, fields⟩) := by
  induction fields with
  | nil => exact ⟨Int.le_refl 0, iff_of_true rfl .nil⟩
  | cons leaf fields ih =>
    obtain ⟨hleaf, hfields⟩ := List.forall_mem_cons.1 hwidth
    obtain ⟨hle, hiff⟩ := ih hfields
    have hused : usedBits ⟨address, byteSize, leaf :: fields⟩ =
        leaf.bitWidth + usedBits ⟨address, byteSize, fields⟩ := rfl
    have hunion : (bitsOf (leaf :: fields)).card = (leaf.bits ∪ bitsOf fields).card := rfl
    have hcard := card_bits hleaf
    have hsum : (leaf.bits ∪ bitsOf fields).card ≤ leaf.bits.card + (bitsOf fields).card :=
      Finset.card_union_le _ _
    -- the new field takes bits of its own exactly if it is apart from all the others
    have hdisjoint : Disjoint leaf.bits (bitsOf fields) ↔
        ∀ other ∈ fields, ∀ bit ∈ leaf.bits, bit ∉ other.bits := by
      simp only [Finset.disjoint_left, mem_bitsOf, not_exists, not_and]
      exact ⟨fun h other hother bit hbit => h hbit other hother,
        fun h bit hbit other hother => h other hother bit hbit⟩
    rw [hused, hunion, Apart, List.pairwise_cons, ← hdisjoint, ← Finset.card_union_eq_card_add_card]
    rw [Apart] at hiff
    rw [← hiff]
    omega

/-- Whether all fields of a unit take bits of it only. -/
def Encloses (u : BitfieldUnit) : Prop :=
  ∀ leaf ∈ u.fields, 0 ≤ leaf.bitOffset ∧ 0 ≤ leaf.bitWidth ∧
    leaf.bitOffset + leaf.bitWidth ≤ u.byteSize * 8

/-- A unit that encloses its fields has all their bits. -/
theorem Encloses.takenBits_eq (h : u.Encloses) : u.takenBits = bitsOf u.fields := by
  ext bit
  rw [takenBits, Finset.mem_filter, mem_bitsOf, and_iff_right_iff_imp]
  rintro ⟨leaf, hleaf, hbit⟩
  obtain ⟨hstart, -, hend⟩ := h leaf hleaf
  rw [ScalarLeaf.bits, mem_bitsFrom] at hbit
  rw [mem_bitsFrom]
  omega

/-- The bits that are used are no less than those that are taken. -/
theorem Encloses.card_takenBits_le (h : u.Encloses) : u.takenBits.card ≤ u.usedBits := by
  rw [h.takenBits_eq]
  exact (card_bitsOf fun leaf hleaf => (h leaf hleaf).2.1).1

/-- The bits that are used are those that are taken just if no two fields overlap. -/
theorem Encloses.usedBits_eq_iff (h : u.Encloses) :
    u.usedBits = u.takenBits.card ↔ u.Apart := by
  rw [h.takenBits_eq]
  exact (card_bitsOf fun leaf hleaf => (h leaf hleaf).2.1).2

/-- Fields that lie apart leave no less than nothing of their unit. -/
theorem Encloses.paddingBits_nonneg (h : u.Encloses) (hfields : u.fields ≠ []) (hapart : u.Apart) :
    0 ≤ u.paddingBits := by
  obtain ⟨leaf, hleaf⟩ := List.exists_mem_of_ne_nil _ hfields
  obtain ⟨hstart, hwidth, hend⟩ := h leaf hleaf
  have hused := h.usedBits_eq_iff.2 hapart
  have htaken : u.takenBits.card ≤ (bitsFrom 0 (u.byteSize * 8)).card :=
    Finset.card_le_card (Finset.filter_subset _ _)
  rw [card_bitsFrom] at htaken
  rw [paddingBits]
  omega

end BitfieldUnit

-- ---------------------------------------------------------------------------
-- Layouts
-- ---------------------------------------------------------------------------

/-- The bitfields of a composite are those of its members that are bitfields. -/
theorem LayoutNode.mem_bitfields {n : LayoutNode} {leaf : ScalarLeaf} (h : leaf ∈ n.bitfields) :
    .scalar leaf ∈ n.children ∧ leaf.isBitfield = true := by
  cases n with
  | scalar | pointer | array => exact absurd h (by simp [bitfields])
  | composite header isUnion alternatives members =>
    obtain ⟨m, hm, hleaf⟩ := List.mem_filterMap.1 h
    cases m with
    | scalar own =>
      dsimp only at hleaf
      split at hleaf
      · rename_i hbitfield
        obtain rfl := Option.some.inj hleaf
        exact ⟨hm, hbitfield⟩
      · exact absurd hleaf (by simp)
    | pointer | composite | array => exact absurd hleaf (by simp)

namespace TypeGraph

variable {store : Store} {target : Target}

/-- A scalar is no bitfield as long as no member makes it one. -/
theorem bitSize_of_leaf {g : TypeGraph} {ref address : Int} {node : TypeNode} {name path : String}
    {leaf : ScalarLeaf} (h : g.leaf ref node address name path = .ok (.scalar leaf)) :
    leaf.bitSize = none := by
  unfold TypeGraph.leaf at h
  simp only at h
  split at h
  · obtain rfl := LayoutNode.scalar.inj (Except.ok.inj h)
    rfl
  · obtain rfl := LayoutNode.scalar.inj (Except.ok.inj h)
    rfl
  · obtain ⟨pointer, -, hpointer⟩ := map_eq_ok.1 h
    exact absurd hpointer (by simp)
  · obtain rfl := LayoutNode.scalar.inj (Except.ok.inj h)
    rfl

/-- All bitfields of the types of a graph that was built have a place. -/
theorem hasPlace_of_expandWith {fold : Folding} {levels : Nat} {ref address : Int}
    {name path : String} {n : LayoutNode}
    (h : (build target store).expandWith fold levels ref address name path = .ok n) :
    n.AllScalars ScalarLeaf.HasPlace := by
  refine allScalars_of_expandWith (fun hscalar size hsize => ?_)
    (fun hnode hbody hm _ _ _ size hsize => ?_) h
  · rw [bitSize_of_leaf hscalar.expanded] at hsize
    exact absurd hsize (by simp)
  · obtain ⟨e, -, -, hread⟩ := readFrom_of_resolve hnode
    rw [hbody] at hread
    cases hread with
    | composite _ _ hmembers =>
      obtain ⟨c, -, hmember⟩ := hmembers _ hm
      obtain ⟨hpos, offset, hoffset, hstart⟩ := hmember.field_place hsize
      rw [hoffset]
      exact ⟨hstart, hpos⟩

/-- The units of a composite enclose their fields, if these end inside their storage. -/
theorem encloses_of_groups {c : LayoutNode} {u : BitfieldUnit}
    (hplaces : c.AllScalars ScalarLeaf.HasPlace) (hinside : ∀ leaf ∈ c.bitfields, leaf.EndsInside)
    (hu : u ∈ c.bitfieldUnits) : u.Encloses := by
  intro leaf hleaf
  rw [c.groups_bitfieldUnits.fields_eq u hu, List.mem_filter, decide_eq_true_eq] at hleaf
  obtain ⟨hleaf, -, hsize⟩ := hleaf
  obtain ⟨hchild, hbitfield⟩ := LayoutNode.mem_bitfields hleaf
  obtain ⟨size, hbits⟩ := Option.isSome_iff_exists.1 hbitfield
  obtain ⟨hstart, hpos⟩ :=
    (LayoutNode.allScalars_iff.1 ((LayoutNode.allScalars_iff.1 hplaces).2 _ hchild)).1 leaf rfl
      size hbits
  have hend := hinside leaf hleaf
  rw [ScalarLeaf.EndsInside, ← hsize] at hend
  have hwidth : leaf.bitWidth = size := by rw [ScalarLeaf.bitWidth, hbits, Option.getD_some]
  exact ⟨hstart, by omega, hend⟩

/-- In all composites of the layout of a type, each bitfield is in exactly one unit, which is that
of its storage and has its fields in order. If all bitfields end inside their storage, the bits that
a unit says are used are no less than those that its fields take, and as many just if no two of
these overlap; then none are missing. -/
theorem bitfieldUnits_of_layout {depth : Nat} {ref address : Int} {name : String}
    {n c : LayoutNode} (h : (build target store).layout depth ref address name = .ok n)
    (hc : c ∈ n.nodes) (hinside : ∀ leaf ∈ c.bitfields, leaf.EndsInside) :
    BitfieldUnit.Groups c.bitfieldUnits c.bitfields ∧
      (∀ leaf ∈ c.bitfields, ∃! u, u ∈ c.bitfieldUnits ∧ leaf ∈ u.fields) ∧
      ∀ u ∈ c.bitfieldUnits, u.takenBits.card ≤ u.usedBits ∧
        (u.usedBits = u.takenBits.card ↔ u.Apart) ∧ (u.Apart → 0 ≤ u.paddingBits) := by
  have hgroups := c.groups_bitfieldUnits
  have hplaces := (hasPlace_of_expandWith (layoutWith_eq_ok.1 h)).of_mem_nodes hc
  refine ⟨hgroups, fun leaf hleaf => hgroups.existsUnique hleaf, fun u hu => ?_⟩
  have hencloses := encloses_of_groups hplaces hinside hu
  exact ⟨hencloses.card_takenBits_le, hencloses.usedBits_eq_iff,
    hencloses.paddingBits_nonneg (hgroups.nonempty u hu)⟩

/-- A union that shows a word as a whole and its low byte, and a register whose fields lie side by
side. -/
def registerUnit : Entry :=
  .node 1 Tag.compileUnit (.ofList [(Attr.name, .text "a.c")])
    [.node 2 Tag.baseType (.ofList [(Attr.name, .text "unsigned int"), (Attr.byteSize, .int 4),
        (Attr.encoding, .int 7)]) [],
      .node 3 Tag.unionType (.ofList [(Attr.name, .text "u"), (Attr.byteSize, .int 4)])
        [.node 4 Tag.member (.ofList [(Attr.name, .text "all"), (Attr.type, .int 2),
            (Attr.bitSize, .int 32), (Attr.dataBitOffset, .int 0)]) [],
          .node 5 Tag.member (.ofList [(Attr.name, .text "low"), (Attr.type, .int 2),
            (Attr.bitSize, .int 8), (Attr.dataBitOffset, .int 0)]) []],
      .node 6 Tag.structureType (.ofList [(Attr.name, .text "reg"), (Attr.byteSize, .int 4)])
        [.node 7 Tag.member (.ofList [(Attr.name, .text "ready"), (Attr.type, .int 2),
            (Attr.bitSize, .int 1), (Attr.dataBitOffset, .int 0)]) [],
          .node 8 Tag.member (.ofList [(Attr.name, .text "count"), (Attr.type, .int 2),
            (Attr.bitSize, .int 12), (Attr.dataBitOffset, .int 4)]) []]]

/-- The types of that unit. -/
def registers : TypeGraph where
  nodes := ⟨[(2, ⟨2, some "unsigned int", .scalar (some .unsigned) 4 (.unsigned .w32)⟩),
    (3, ⟨3, some "u", .composite .union (some 4)
      [⟨some "all", 2, 0, some 0, some 32, false⟩, ⟨some "low", 2, 0, some 0, some 8, false⟩]
      false⟩),
    (6, ⟨6, some "reg", .composite .struct (some 4)
      [⟨some "ready", 2, 0, some 0, some 1, false⟩, ⟨some "count", 2, 0, some 4, some 12, false⟩]
      false⟩)]⟩
  aliases := .empty
  typedefNames := .empty
  faults := []

theorem build_registers : build .standard (Store.empty.addRoot registerUnit).1 = registers := by
  decide +kernel

/-- A field of one of these types, in a symbol at 0x1000. -/
def registerField (name path : String) (bitOffset bitSize : Int) : ScalarLeaf :=
  ⟨⟨name, path, 0x1000, 4, some "unsigned int"⟩, .unsigned .w32, bitOffset, some bitSize, none⟩

/-- The layouts of two symbols of these types. -/
def wordTree : LayoutNode :=
  .composite ⟨"w", "w", 0x1000, 4, some "u"⟩ true 2
    [.scalar (registerField "all" "w.all" 0 32), .scalar (registerField "low" "w.low" 0 8)]

def registerTree : LayoutNode :=
  .composite ⟨"r", "r", 0x1000, 4, some "reg"⟩ false 0
    [.scalar (registerField "ready" "r.ready" 0 1), .scalar (registerField "count" "r.count" 4 12)]

/-- A register of bitfields, two of which take the same bits. -/
theorem bitfieldUnits_of_layout_register :
    (build .standard (Store.empty.addRoot registerUnit).1).layout defaultDepth 6 0x1000 "r" =
        .ok registerTree ∧
      (∀ leaf ∈ registerTree.bitfields, leaf.EndsInside) ∧
      BitfieldUnit.Groups registerTree.bitfieldUnits registerTree.bitfields ∧
      (∀ leaf ∈ registerTree.bitfields, ∃! u, u ∈ registerTree.bitfieldUnits ∧ leaf ∈ u.fields) ∧
      ∀ u ∈ registerTree.bitfieldUnits, u.takenBits.card ≤ u.usedBits ∧
        (u.usedBits = u.takenBits.card ↔ u.Apart) ∧ (u.Apart → 0 ≤ u.paddingBits) := by
  have hlayout : (build .standard (Store.empty.addRoot registerUnit).1).layout defaultDepth 6 0x1000
      "r" = .ok registerTree := by
    rw [build_registers]
    rfl
  have hself : registerTree ∈ registerTree.nodes := by
    rw [LayoutNode.nodes_eq]
    exact List.mem_cons_self
  have hinside : ∀ leaf ∈ registerTree.bitfields, leaf.EndsInside := by decide
  exact ⟨hlayout, hinside, bitfieldUnits_of_layout hlayout hself hinside⟩

/-- The members of a union overlap, and then its unit is said to use bits that it does not have. -/
theorem union_uses_more_than_its_unit :
    (build .standard (Store.empty.addRoot registerUnit).1).layout defaultDepth 3 0x1000 "w" =
        .ok wordTree ∧
      (∀ leaf ∈ wordTree.bitfields, leaf.EndsInside) ∧
      ∃ u, wordTree.bitfieldUnits = [u] ∧ u.takenBits.card = 32 ∧ u.usedBits = 40 ∧
        u.paddingBits = -8 := by
  have hlayout : (build .standard (Store.empty.addRoot registerUnit).1).layout defaultDepth 3 0x1000
      "w" = .ok wordTree := by
    rw [build_registers]
    rfl
  have hinside : ∀ leaf ∈ wordTree.bitfields, leaf.EndsInside := by decide
  have hunits : wordTree.bitfieldUnits =
      [⟨0x1000, 4, [registerField "all" "w.all" 0 32, registerField "low" "w.low" 0 8]⟩] :=
    List.mergeSort_singleton _
  exact ⟨hlayout, hinside, _, hunits, by decide, by decide, by decide⟩

end TypeGraph

end DebugLayout
