import DebugLayout.Proofs.Calibration.Safety

/-!
# DebugLayout — what numbers are classified as

Numbers are calibration data: a number by itself is a value, and an array of numbers is what the
rules make of it. Each rule looks at a part of the arrays only. Arrays of up to two dimensions are
a value block, or bytes, unless axes are found for them; with three dimensions no axes are sought;
and with more of them an array is a blob if its elements are bytes. Wider numbers in more than three
dimensions are left to no rule, and that is all that is left out.

* `ArrayView.HoldsNumbers`, `ArrayView.IsWide`: arrays of numbers, and of numbers wider than a byte;
* `TypeGraph.LaysOut.length_elements`: a layout has all the elements of its shape;
* `Classifier.classify_flat`, `classify_deep`: arrays that can have axes, and those that cannot;
* `Classifier.classify_numbers`: which numbers are left out, when a classification goes wrong, and
  which arrays are value blocks;
* `Classifier.classify_tesseract`: an array that is left out.
-/

namespace DebugLayout

namespace ArrayView

/-- Whether an array consists of plain numbers, one at least, and takes some memory. -/
structure HoldsNumbers (a : ArrayView) : Prop where
  nonempty : a.elements ≠ []
  numbers : ∀ e ∈ a.elements,
    ∃ leaf, e = .scalar leaf ∧ leaf.isBitfield = false ∧ leaf.isNumeric = true
  size : 0 < a.header.byteSize

/-- Whether the elements of an array are plain scalars wider than a byte. -/
def IsWide (a : ArrayView) : Prop := ∃ type, a.elementType? = some type ∧ 1 < type.byteSize

variable {a : ArrayView}

/-- An array that holds numbers has a first element, which is a number and no bitfield. -/
theorem HoldsNumbers.exists_elements (h : a.HoldsNumbers) :
    ∃ leaf rest, a.elements = .scalar leaf :: rest ∧ leaf.isBitfield = false ∧
      leaf.isNumeric = true := by
  obtain ⟨e, rest, helements⟩ := List.exists_cons_of_ne_nil h.nonempty
  obtain ⟨leaf, rfl, hplain, hnumeric⟩ := h.numbers e (by simp [helements])
  exact ⟨leaf, rest, helements, hplain, hnumeric⟩

/-- The elements of an array that holds numbers have a numeric type. -/
theorem HoldsNumbers.exists_elementType (h : a.HoldsNumbers) :
    ∃ type, a.elementType? = some type ∧ type.isNumeric = true := by
  obtain ⟨leaf, rest, helements, hplain, hnumeric⟩ := h.exists_elements
  refine ⟨leaf.dataType, ?_, hnumeric⟩
  simp [elementType?, toNode, helements, LayoutNode.elementType?, hplain]

theorem HoldsNumbers.isNumeric (h : a.HoldsNumbers) : a.isNumeric = true := by
  obtain ⟨type, htype, hnumeric⟩ := h.exists_elementType
  simp [ArrayView.isNumeric, htype, hnumeric]

/-- Numbers are bytes or wider. -/
theorem HoldsNumbers.isBytes_eq_false_iff (h : a.HoldsNumbers) : a.isBytes = false ↔ a.IsWide := by
  obtain ⟨type, htype, hnumeric⟩ := h.exists_elementType
  have hknown : type ≠ .unknown := by
    rintro rfl
    cases hnumeric
  have hpos := DataType.byteSize_pos hknown
  simp only [isBytes, IsWide, htype, Option.any_some, decide_eq_false_iff_not, Option.some.injEq,
    exists_eq_left']
  omega

end ArrayView

/-- An array of a layout has the elements of its shape. -/
theorem TypeGraph.LaysOut.length_elements {g : TypeGraph} {a : ArrayView} (h : g.LaysOut a.toNode) :
    a.elements.length = a.shape.count := by
  obtain ⟨depth, ref, address, name, h⟩ := h
  have hexpanded := expandWith_succ_iff.1 (layoutWith_eq_ok.1 h)
  generalize hnode : a.toNode = n at hexpanded
  cases hexpanded with
  | leaf _ _ _ hleaf => rcases leaf_cases hleaf with ⟨leaf, rfl⟩ | ⟨leaf, rfl⟩ <;> cases hnode
  | array _ _ _ _ helements =>
    obtain ⟨-, rfl, -, rfl⟩ := LayoutNode.array.inj hnode
    rw [← helements.length_eq]
    exact ArrayShape.length_positionsOf a.shape.dims
  | composite => cases hnode

namespace Classifier

variable {c : Classifier} {name : String} {siblings : Siblings} {value : ArrayView}

-- ------------------------------------------------------------------------------------------------
-- The rules for arrays of numbers
-- ------------------------------------------------------------------------------------------------

section Numbers

variable (hnumbers : value.HoldsNumbers)
include hnumbers

/-- Numbers are a blob if they are bytes. -/
theorem blobRule_of_holdsNumbers (name : String) :
    blobRule name value.toNode = if value.isBytes then
      some (.blob name value.toNode value.toNode.address value.toNode.byteSize) else none := by
  obtain ⟨leaf, rest, helements, -, -⟩ := hnumbers.exists_elements
  obtain ⟨header, shape, elementTypeName, elements⟩ := value
  obtain rfl : elements = .scalar leaf :: rest := helements
  have hsize : 0 < header.byteSize := hnumbers.size
  simp [blobRule, ArrayView.toNode, hsize]

/-- The axes that were found for numbers of up to two dimensions, or that there are none, say which
object they are. -/
theorem objectOf_ne_none {found : Option (List (String × ArrayView))}
    (hlength : ∀ axes, found = some axes → axes.length = 1 ∨ axes.length = 2) :
    objectOf name value.toNode value found ≠ none := by
  cases found with
  | none =>
    rw [objectOf, blobRule_of_holdsNumbers hnumbers]
    cases value.isBytes <;> simp
  | some axes =>
    rcases hlength axes rfl with hone | htwo
    · obtain ⟨x, rfl⟩ := List.length_eq_one_iff.1 hone
      simp [objectOf]
    · obtain ⟨x, y, rfl⟩ := List.length_eq_two.1 htwo
      simp [objectOf]

variable (hshape : value.shape.isEmpty = false)
include hshape

/-- Numbers are a value array of their own dimension, and of no other. -/
theorem asValue_of_holdsNumbers (dimensions : Nat) :
    asValue dimensions value.toNode =
      if dimensions = value.dims.length then some value else none :=
  asValue_of_asValue (asValue_eq_some.2 ⟨rfl, rfl, hshape, hnumbers.isNumeric⟩) dimensions

/-- Numbers are values up to three dimensions. -/
theorem anyValue_of_holdsNumbers :
    anyValue value.toNode = if value.dims.length ≤ 3 then some value else none := by
  have hpos : 1 ≤ value.dims.length := List.length_pos_iff.2 value.shape.dims_ne_nil
  split
  · rename_i hle
    exact anyValue_eq_some.2 ⟨_, hpos, hle,
      (asValue_of_holdsNumbers hnumbers hshape _).trans (if_pos rfl)⟩
  · rename_i hmore
    rw [Option.eq_none_iff_forall_ne_some]
    intro other hother
    obtain ⟨dimensions, -, hle, hother⟩ := anyValue_eq_some.1 hother
    rw [asValue_of_holdsNumbers hnumbers hshape, if_neg (by omega)] at hother
    cases hother

/-- Numbers of up to two dimensions are what the search for axes makes of them. -/
theorem classify_flat (hdims : value.dims.length ≤ 2) :
    c.classify name value.toNode siblings =
      (c.externalAxes name siblings value.dims).map (objectOf name value.toNode value) := by
  have hembedded : c.hasEmbeddedAxis value.toNode = false := rfl
  have hany : anyValue value.toNode = some value :=
    (anyValue_of_holdsNumbers hnumbers hshape).trans (if_pos (by omega))
  refine classify_of_sought ?_ name siblings
  rw [sought, hembedded, hany]
  simp [hdims]

/-- Numbers of three dimensions or more are what they are by themselves. -/
theorem classify_deep (hdims : 3 ≤ value.dims.length) :
    c.classify name value.toNode siblings =
      .ok (if value.isBytes then
          some (.blob name value.toNode value.toNode.address value.toNode.byteSize)
        else if value.dims.length = 3 then some (.valueBlock name value.toNode value)
        else none) := by
  have hembedded : c.hasEmbeddedAxis value.toNode = false := rfl
  have hvalue : valueRule name value.toNode = none := rfl
  -- more dimensions than a curve or a map has
  have hnone : ∀ dimensions, dimensions ≤ 2 → asValue dimensions value.toNode = none := by
    intro dimensions hle
    rw [asValue_of_holdsNumbers hnumbers hshape, if_neg (by omega)]
  have hcurve : c.externalCurveRule name value.toNode siblings = .ok none := by
    rw [externalCurveRule, hembedded, hnone 1 (by decide)]
    rfl
  have hmap : c.externalMapRule name value.toNode siblings = .ok none := by
    rw [externalMapRule, hembedded, hnone 2 (by decide)]
    rfl
  have hblock : c.valueBlockRule name value.toNode siblings =
      .ok (if value.isBytes then none else if value.dims.length = 3 then
        some (.valueBlock name value.toNode value) else none) := by
    have hany := anyValue_of_holdsNumbers hnumbers hshape
    rw [valueBlockRule, hembedded]
    -- a value block takes one to three, of elements wider than a byte
    by_cases hthree : value.dims.length = 3
    · rw [hany.trans (if_pos hthree.le), if_pos hthree]
      simp only [if_neg (by omega : ¬value.dims.length ≤ 2)]
      cases value.isBytes <;> rfl
    · rw [hany.trans (if_neg (by omega)), if_neg hthree]
      cases value.isBytes <;> rfl
  -- so that the block decides, and the blob after it
  rw [classify, hvalue, hblock, internalCurveRule_eq_none hembedded, hcurve,
    internalMapRule_eq_none hembedded, hmap, blobRule_of_holdsNumbers hnumbers]
  cases value.isBytes with
  | true => rfl
  | false => by_cases hthree : value.dims.length = 3 <;> simp [hthree] <;> rfl

/-- Numbers are left out exactly if they are wide and have more than three dimensions. -/
theorem classify_eq_none_iff :
    c.classify name value.toNode siblings = .ok none ↔ 3 < value.dims.length ∧ value.IsWide := by
  rw [← hnumbers.isBytes_eq_false_iff]
  by_cases hdims : value.dims.length ≤ 2
  · -- of one or two dimensions an object is made, whatever the axes are
    refine iff_of_false ?_ (by omega)
    rw [classify_flat hnumbers hshape hdims, map_eq_ok]
    rintro ⟨found, hfound, hnone⟩
    have hpos : 1 ≤ value.dims.length := List.length_pos_iff.2 value.shape.dims_ne_nil
    refine objectOf_ne_none hnumbers ?_ hnone
    rintro axes rfl
    have hlength := externalAxes_length hfound
    omega
  · rw [classify_deep hnumbers hshape (by omega)]
    cases value.isBytes with
    | true => simp
    | false =>
      by_cases hthree : value.dims.length = 3
      · simp [hthree]
      · simp [hthree]
        omega

/-- Wide numbers of up to three dimensions for which no policy finds axes are a value block. -/
theorem classify_of_ask_eq_none (hdims : value.dims.length ≤ 3) (hwide : value.IsWide)
    (hask : ∀ q ∈ c.config.policies, c.ask name siblings value.dims q = .ok none) :
    c.classify name value.toNode siblings = .ok (some (.valueBlock name value.toNode value)) := by
  have hbytes := hnumbers.isBytes_eq_false_iff.2 hwide
  by_cases htwo : value.dims.length ≤ 2
  · have hnothing : c.externalAxes name siblings value.dims = .ok none :=
      axesByPolicies_of_ask hask
    rw [classify_flat hnumbers hshape htwo, hnothing]
    simp [Except.map, objectOf, hbytes]
  · rw [classify_deep hnumbers hshape (by omega), hbytes]
    simp [show value.dims.length = 3 by omega]

end Numbers

-- ------------------------------------------------------------------------------------------------
-- Layouts of numbers
-- ------------------------------------------------------------------------------------------------

/-- The classification of numbers goes wrong only with the search for their axes. -/
theorem classify_eq_error_of_holdsNumbers {fault : ClassifyFault} (hnumbers : value.HoldsNumbers)
    (hshape : value.shape.isEmpty = false)
    (h : c.classify name value.toNode siblings = .error fault) :
    value.dims.length ≤ 2 ∧ c.externalAxes name siblings value.dims = .error fault := by
  by_cases hdims : value.dims.length ≤ 2
  · rw [classify_flat hnumbers hshape hdims] at h
    exact ⟨hdims, map_eq_error.1 h⟩
  · rw [classify_deep hnumbers hshape (by omega)] at h
    cases h

/-- Of the layouts of a graph that was built, a plain number is a value. An array of numbers is some
object unless it has more than three dimensions and its numbers are wider than a byte, or the search
for its axes, which takes at most two dimensions, goes wrong; among layouts of the graph that is for
a sibling without shape or a name that is no natural key. Wide numbers of up to three dimensions for
which no policy finds axes are a value block. -/
theorem classify_numbers {target : Target} {store : Store} {layout : LayoutNode}
    (hlayout : (TypeGraph.build target store).LaysOut layout) (c : Classifier) (name : String)
    (siblings : Siblings) :
    (∀ leaf, layout = .scalar leaf → leaf.isBitfield = false → leaf.isNumeric = true →
      c.classify name layout siblings = .ok (some (.value name leaf))) ∧
    ∀ value : ArrayView, layout = value.toNode → value.HoldsNumbers →
      (c.classify name layout siblings = .ok none ↔ 3 < value.dims.length ∧ value.IsWide) ∧
      (∀ fault, c.classify name layout siblings = .error fault →
        value.dims.length ≤ 2 ∧ c.externalAxes name siblings value.dims = .error fault ∧
        ((∀ {n sibling}, siblings.layout? n = .ok (some sibling) →
            (TypeGraph.build target store).LaysOut sibling) →
          c.Impeded name siblings fault)) ∧
      (value.dims.length ≤ 3 → value.IsWide →
        (∀ q ∈ c.config.policies, c.ask name siblings value.dims q = .ok none) →
        c.classify name layout siblings = .ok (some (.valueBlock name layout value))) := by
  constructor
  · rintro leaf rfl hplain hnumeric
    have hvalue : valueRule name (.scalar leaf) = some (.value name leaf) := by
      simp [valueRule, hplain, hnumeric]
    rw [classify, hvalue]
    rfl
  · rintro value rfl hnumbers
    -- elements and shape agree, and there is an element
    have hshape : value.shape.isEmpty = false := by
      have hpos := List.length_pos_iff.2 hnumbers.nonempty
      rw [hlayout.length_elements] at hpos
      simp [ArrayShape.isEmpty, Nat.pos_iff_ne_zero.1 hpos]
    refine ⟨classify_eq_none_iff hnumbers hshape, fun fault hfault => ?_,
      classify_of_ask_eq_none hnumbers hshape⟩
    obtain ⟨hdims, haxes⟩ := classify_eq_error_of_holdsNumbers hnumbers hshape hfault
    exact ⟨hdims, haxes,
      fun hsiblings => impeded_of_externalAxes (fun h => (hsiblings h).sized) haxes⟩

-- ------------------------------------------------------------------------------------------------
-- Arrays of two and of four dimensions
-- ------------------------------------------------------------------------------------------------

/-- A unit with a number of two bytes and with arrays of it, of two and of four dimensions. -/
def gridsUnit : Entry :=
  let two (ref : Int) : Entry := .node ref Tag.subrangeType (.ofList [(Attr.count, .int 2)]) []
  .node 1 Tag.compileUnit (.ofList [(Attr.name, .text "a.c")])
    [.node 2 Tag.baseType
        (.ofList [(Attr.name, .text "short"), (Attr.byteSize, .int 2), (Attr.encoding, .int 5)]) [],
      .node 3 Tag.arrayType (.ofList [(Attr.type, .int 2)]) [two 4, two 5],
      .node 6 Tag.arrayType (.ofList [(Attr.type, .int 2)]) [two 7, two 8, two 9, two 10]]

def gridsGraph : TypeGraph := .build .standard (Store.empty.addRoot gridsUnit).1

/-- An array of such numbers as a graph lays it out. -/
def grid (dims : List Nat) (h : dims ≠ []) : ArrayView :=
  let element (position : List Nat) : LayoutNode :=
    let name := ArrayShape.brackets position
    let address := 0x1000 + ArrayShape.rowMajor dims position * 2
    .scalar ⟨⟨name, "Torque" ++ name, address, 2, some "short"⟩, .signed .w16, 0, none, none⟩
  ⟨⟨"Torque", "Torque", 0x1000, ArrayShape.countOf dims * 2, none⟩, ⟨dims, 2, h⟩, "short",
    (ArrayShape.positionsOf dims).map element⟩

theorem holdsNumbers_grid {dims : List Nat} (h : dims ≠ []) (hcount : 0 < ArrayShape.countOf dims) :
    (grid dims h).HoldsNumbers where
  nonempty := by
    rw [← List.length_pos_iff, grid, List.length_map, ArrayShape.length_positionsOf]
    exact hcount
  numbers := List.forall_mem_map.2 fun _ _ => ⟨_, rfl, rfl, rfl⟩
  size := by
    simp only [grid]
    omega

/-- A table of numbers. -/
def square : ArrayView := grid [2, 2] (by decide)

/-- As many numbers in each of four dimensions. -/
def tesseract : ArrayView := grid [2, 2, 2, 2] (by decide)

theorem square_laysOut : gridsGraph.LaysOut square.toNode := ⟨64, 3, 0x1000, "Torque", rfl⟩

theorem tesseract_laysOut : gridsGraph.LaysOut tesseract.toNode := ⟨64, 6, 0x1000, "Torque", rfl⟩

/-- A square of short numbers is a value block. -/
theorem classify_numbers_square :
    gridsGraph.LaysOut square.toNode ∧ square.HoldsNumbers ∧ square.IsWide ∧
      plainClassifier.classify "Torque" square.toNode (.ofList []) =
        .ok (some (.valueBlock "Torque" square.toNode square)) := by
  have hnumbers : square.HoldsNumbers := holdsNumbers_grid _ (by decide)
  have hwide : square.IsWide := ⟨.signed .w16, rfl, by decide⟩
  have hask : ∀ q ∈ plainClassifier.config.policies,
      plainClassifier.ask "Torque" (.ofList []) square.dims q = .ok none := by
    intro q _
    cases q <;> rfl
  obtain ⟨-, hvalue⟩ := classify_numbers square_laysOut plainClassifier "Torque" (.ofList [])
  exact ⟨square_laysOut, hnumbers, hwide,
    (hvalue square rfl hnumbers).2.2 (by decide) hwide hask⟩

/-- Numbers of two bytes in four dimensions are not classified. -/
theorem classify_tesseract :
    gridsGraph.LaysOut tesseract.toNode ∧ tesseract.HoldsNumbers ∧ tesseract.IsWide ∧
      plainClassifier.classify "Torque" tesseract.toNode (.ofList []) = .ok none :=
  ⟨tesseract_laysOut, holdsNumbers_grid _ (by decide), ⟨.signed .w16, rfl, by decide⟩, rfl⟩

end Classifier

end DebugLayout
