import DebugLayout.Proofs.Image.Regions
import DebugLayout.Proofs.Program.Placement

/-!
# DebugLayout — which symbols lie in the regions

A symbol with a layout lies in the addressable regions as far as its size was known when its address
was looked up. That is the size which the symbol table gives. A variable that is placed at the
location of the debug information has none, and for it only the first byte is asked for. A layout
that takes more than that may stand out of every region.

The check at look-up and the question asked afterwards are the same, for two sizes. Whether they
agree depends on the regions that hold the start alone, since a region that does not hold it can
hold neither of the two.

* `Program.placedSize`: the size that is known of a symbol with its address;
* `Program.Overhangs`: a layout that goes on behind the regions which hold its start;
* `Program.contain_iff_not_overhangs`: when a region holds the whole of a layout.
-/

namespace DebugLayout

open Regions (HeldBy addRegion)

/-- A region that holds something holds what is smaller there. -/
theorem Regions.HeldBy.mono {region : Int × Int} {address size size' : Int}
    (h : HeldBy region address size') (hle : size ≤ max size' 1) : HeldBy region address size := by
  obtain ⟨hstart, hend⟩ := h
  exact ⟨hstart, by omega⟩

namespace Program

variable {p : Program} {additions : List (Int × Int)} {name : String} {n : LayoutNode}

/-- The size that is known of a symbol with its address: the one that the symbol table gives if it
has placed the variable, and none otherwise. -/
def placedSize (p : Program) (name : String) : Int :=
  match p.variableIndex.get? name with
  | some v => (p.locate v).2
  | none => 0

/-- A layout overhangs some regions when it takes more bytes than were known of its symbol, and each
region that holds those ends before the layout does. -/
structure Overhangs (p : Program) (regions : List (Int × Int)) (name : String)
    (n : LayoutNode) : Prop where
  beyond : max (p.placedSize name) 1 < n.byteSize
  cut : ∀ region ∈ regions, HeldBy region n.address (p.placedSize name) →
    region.2 < n.address + n.byteSize

/-- What was known of a symbol when its address was looked up lies in the regions. -/
theorem contain_placedSize {regions : Regions} (hregions : p.regions = some regions)
    (h : p.layoutOf name = .ok n) :
    regions.contain n.address (p.placedSize name) = true := by
  obtain ⟨v, size, hv, hlocate, hcontain⟩ := locate_of_layoutOf h
  have hsize : p.placedSize name = size := by
    rw [placedSize, hv]
    exact congrArg Prod.snd hlocate
  rw [hregions, Option.all_some] at hcontain
  rw [hsize]
  exact hcontain

/-- A single one of the regions that were added holds the whole of a layout, unless the layout
overhangs them. It holds what was known of the symbol in any case. -/
theorem contain_iff_not_overhangs
    (hregions : p.regions = some (addEach addRegion .empty additions))
    (h : p.layoutOf name = .ok n) :
    (addEach addRegion .empty additions).contain n.address (p.placedSize name) = true ∧
      ((addEach addRegion .empty additions).contain n.address n.byteSize = true ↔
        ¬p.Overhangs (accepted addRegion .empty additions) name n) := by
  have hplaced := contain_placedSize hregions h
  have hsum := Regions.sumUp_addEach additions
  refine ⟨hplaced, ?_⟩
  rw [hsum.contain_iff] at hplaced ⊢
  constructor
  · rintro ⟨region, hregion, hheld⟩ ⟨hbeyond, hcut⟩
    have hlt := hcut region hregion (hheld.mono (by omega))
    have hend := hheld.2
    omega
  · intro hover
    by_cases hbeyond : max (p.placedSize name) 1 < n.byteSize
    · by_contra hnone
      refine hover ⟨hbeyond, fun region hregion hheld => ?_⟩
      by_contra hend
      exact hnone ⟨region, hregion, hheld.1, by omega⟩
    · -- no more is asked for than was checked when it was placed
      obtain ⟨region, hregion, hheld⟩ := hplaced
      exact ⟨region, hregion, hheld.mono (by omega)⟩

/-- A unit with a variable `x` of four numbers at `0x1000`. -/
def bufferUnit : Entry :=
  .node 1 Tag.compileUnit (.ofList [(Attr.name, .text "a.c")])
    [.node 2 Tag.baseType
        (.ofList [(Attr.name, .text "int"), (Attr.byteSize, .int 4), (Attr.encoding, .int 5)]) [],
      .node 3 Tag.arrayType (.ofList [(Attr.type, .int 2)])
        [.node 4 Tag.subrangeType (.ofList [(Attr.count, .int 4)]) []],
      .node 5 Tag.variable_
        (.ofList [(Attr.name, .text "x"), (Attr.type, .int 3), (Attr.location, .int 0x1000)]) []]

/-- The program of that variable, with a region that ends behind the first number. The symbol table
is empty. -/
def cutOff : Program :=
  .load (Store.empty.addRoot bufferUnit).1 .empty .standard
    (some (addEach addRegion .empty [(0x1000, 0x1004)])) none .default defaultDepth

/-- The same program, with a region that ends behind the last number. -/
def roomy : Program :=
  { cutOff with regions := some (addEach addRegion .empty [(0x1000, 0x1010)]) }

/-- The larger region holds the whole layout, and the smaller one is overhung. -/
theorem contain_iff_not_overhangs_cutOff :
    (∃ n, roomy.layoutOf "x" = .ok n ∧
      (addEach addRegion .empty [(0x1000, 0x1010)]).contain n.address n.byteSize = true ∧
      ¬roomy.Overhangs (accepted addRegion .empty [(0x1000, 0x1010)]) "x" n) ∧
    ∃ n, cutOff.layoutOf "x" = .ok n ∧
      (addEach addRegion .empty [(0x1000, 0x1004)]).contain n.address n.byteSize = false ∧
      cutOff.Overhangs (accepted addRegion .empty [(0x1000, 0x1004)]) "x" n := by
  have hroomy : ∃ n, roomy.layoutOf "x" = .ok n ∧
      (addEach addRegion .empty [(0x1000, 0x1010)]).contain n.address n.byteSize = true :=
    ⟨_, rfl, rfl⟩
  have hcutOff : ∃ n, cutOff.layoutOf "x" = .ok n ∧
      (addEach addRegion .empty [(0x1000, 0x1004)]).contain n.address n.byteSize = false :=
    ⟨_, rfl, rfl⟩
  obtain ⟨n, hn, hheld⟩ := hroomy
  obtain ⟨n', hn', hcut⟩ := hcutOff
  refine ⟨⟨n, hn, hheld, (contain_iff_not_overhangs rfl hn).2.1 hheld⟩, n', hn', hcut, ?_⟩
  by_contra hover
  have hheld := (contain_iff_not_overhangs rfl hn').2.2 hover
  rw [hcut] at hheld
  exact absurd hheld (by simp)

/-- The layout goes on for three more numbers, which lie in no region. -/
theorem layoutOf_beyond_regions :
    ∃ n, cutOff.layoutOf "x" = .ok n ∧
      (addEach addRegion .empty [(0x1000, 0x1004)]).contain n.address n.byteSize = false :=
  ⟨_, rfl, rfl⟩

/-- With a symbol of sixteen bytes the variable is refused. -/
example : ∀ symbols, SymbolTable.empty.add "x" ⟨0x1000, 16, false⟩ = .ok symbols →
    { cutOff with symbols }.layoutOf "x" = .error (.outside "x" 0x1000) := by
  rintro _ ⟨⟩
  rfl

end Program

end DebugLayout
