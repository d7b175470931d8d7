import DebugLayout.Proofs.Calibration.Soundness

/-!
# DebugLayout — tables in a struct with their axes

A struct that holds two axes and a table over them, where no member is called like a value, is meant
to be a **map**. The rule for curves, however, comes before the one for maps and has its own notion
of what the value array is: the only array of one dimension that is not the x axis. In such a struct
this is the y axis. So the struct is a map if its axes differ in length, and if they do not it is
taken for the **curve** of its y axis over its x axis, and the table is lost.

Nothing is assumed about the order of the members, about other members, or about the siblings: an
embedded axis takes the rules that look at siblings out of the game. The condition that no member is
called like a value is needed, since such a member would be the value array of either rule.

* `TableStruct`: a struct of two axes and a table;
* `Classifier.classify_of_hasEmbeddedAxis`: the rules that count for a struct with an axis;
* `Classifier.internalCurveRule_tableStruct`, `internalMapRule_tableStruct`: what each of them says;
* `Classifier.classify_tableStruct`: what the struct is classified as, for axes of any lengths.
-/

namespace DebugLayout

/-- A struct of two axes in order and a table of their lengths, in any order, of which no member is
called like a value. -/
structure TableStruct (c : Classifier) where
  header : NodeHeader
  alternatives : Nat
  members : List LayoutNode
  xName : String
  yName : String
  xNode : LayoutNode
  yNode : LayoutNode
  tableNode : LayoutNode
  x : ArrayView
  y : ArrayView
  table : ArrayView
  threeMembers : members.Perm [xNode, yNode, tableNode]
  xFirst : Classifier.firstMember members c.config.xAxisMembers = some (xName, xNode)
  yFirst : Classifier.firstMember members c.config.yAxisMembers = some (yName, yNode)
  valueUnnamed : Classifier.firstMember members c.config.valueMembers = none
  xAxis : asAxis xNode = some x
  yAxis : asAxis yNode = some y
  tableValue : asValue 2 tableNode = some table
  tableDims : table.dims = [y.length, x.length]
  xOrdered : c.isMonotonic x.elements = .ok true
  yOrdered : c.isMonotonic y.elements = .ok true

namespace TableStruct

variable {c : Classifier}

/-- The layout of the struct. -/
def layout (s : TableStruct c) : LayoutNode := .composite s.header false s.alternatives s.members

/-- The table of the struct over its two axes. -/
def tableMap (s : TableStruct c) (name : String) : CalibrationObject :=
  .map name s.layout s.table ⟨s.x, .member s.xName⟩ ⟨s.y, .member s.yName⟩

/-- The y axis of the struct over its x axis. -/
def axisCurve (s : TableStruct c) (name : String) : CalibrationObject :=
  .curve name s.layout s.y ⟨s.x, .member s.xName⟩

end TableStruct

/-- An axis can serve as a value array of one dimension. -/
theorem asValue_of_asAxis {layout : LayoutNode} {axis : ArrayView} (h : asAxis layout = some axis) :
    asValue 1 layout = some axis := by
  have hdims := (dims_of_asAxis h).1
  simp only [asAxis, Option.filter_eq_some_iff, Bool.and_eq_true, decide_eq_true_eq] at h
  obtain ⟨hbare, ⟨hone, hlength⟩, hnumeric⟩ := h
  have hfilled : axis.shape.isEmpty = false := by
    unfold ArrayView.dims at hdims
    rw [ArrayShape.isEmpty, ArrayShape.count, hdims]
    simpa [ArrayShape.countOf] using hlength
  exact asValue_eq_some.2 ⟨hbare, hone, hfilled, hnumeric⟩

/-- A list is what was found in it and the rest. -/
theorem perm_cons_eraseP {α : Type} {p : α → Bool} {l : List α} {a : α} (h : l.find? p = some a) :
    l.Perm (a :: l.eraseP p) := by
  obtain ⟨ha, before, after, rfl, hbefore⟩ := List.find?_eq_some_iff_append.1 h
  have hrest : (before ++ a :: after).eraseP p = before ++ after := by
    rw [List.eraseP_append_right _ (by simpa using hbefore), List.eraseP_cons_of_pos ha]
  rw [hrest]
  exact List.perm_middle

namespace Classifier

variable {c : Classifier} {name : String} {layout : LayoutNode} {siblings : Siblings}

-- ---------------------------------------------------------------------------
-- Structs with axes
-- ---------------------------------------------------------------------------

/-- A member called like an x axis is an embedded axis. -/
theorem hasEmbeddedAxis_of_firstMember {header : NodeHeader} {isUnion : Bool} {alternatives : Nat}
    {members : List LayoutNode} {found : String × LayoutNode}
    (h : firstMember members c.config.xAxisMembers = some found) :
    c.hasEmbeddedAxis (.composite header isUnion alternatives members) = true := by
  by_contra hnone
  rw [Bool.not_eq_true] at hnone
  rw [firstMember_xAxis hnone] at h
  exact absurd h (by simp)

/-- Only the rules for axes in the same struct count for a struct with an axis, before it is taken
for a blob. -/
theorem classify_of_hasEmbeddedAxis (h : c.hasEmbeddedAxis layout = true) :
    c.classify name layout siblings = (do
      if let some object := ← c.internalCurveRule name layout then return some object
      if let some object := ← c.internalMapRule name layout then return some object
      return blobRule name layout) := by
  have hvalue : valueRule name layout = none := by
    cases layout with
    | scalar leaf => exact absurd h (by simp [hasEmbeddedAxis])
    | _ => rfl
  -- the rules of bare values give way to an embedded axis
  have hblock : c.valueBlockRule name layout siblings = .ok none := by
    rw [valueBlockRule, h]
    rfl
  have hcurve : c.externalCurveRule name layout siblings = .ok none := by
    rw [externalCurveRule, h]
    rfl
  have hmap : c.externalMapRule name layout siblings = .ok none := by
    rw [externalMapRule, h]
    rfl
  rw [classify, hvalue, hblock, hcurve, hmap]
  rfl

/-- A struct in which no member is called like a value has the value array that is the only one of
its dimensions among the members that are looked at. -/
theorem memberValue_of_perm {dimensions : Nat} {members others candidates : List LayoutNode}
    {value : ArrayView} (hunnamed : firstMember members c.config.valueMembers = none)
    (hothers : others.Perm candidates)
    (hvalue : candidates.filterMap (asValue dimensions) = [value]) :
    c.memberValue dimensions members others = some value := by
  have honly : others.filterMap (asValue dimensions) = [value] := by
    rw [← List.perm_singleton, ← hvalue]
    exact hothers.filterMap _
  rw [memberValue, hunnamed, honly]

-- ---------------------------------------------------------------------------
-- Structs with two axes and a table
-- ---------------------------------------------------------------------------

section Table

variable (s : TableStruct c)

/-- A table is not an array of one dimension. -/
theorem asValue_one_tableNode : asValue 1 s.tableNode = none := by
  rw [asValue_of_asValue s.tableValue, s.tableDims]
  rfl

/-- An axis is not a table. -/
theorem asValue_two_of_asAxis {axis : ArrayView} (h : asAxis layout = some axis) :
    asValue 2 layout = none := by
  rw [asValue_of_asValue (asValue_of_asAxis h), (dims_of_asAxis h).1]
  rfl

/-- The only array of one dimension beside the x axis is the y axis. -/
theorem memberValue_one_tableStruct :
    c.memberValue 1 s.members (s.members.eraseP (·.name = s.xName)) = some s.y := by
  have hfound := (firstMember_eq_some s.xFirst).2
  have hothers : (s.members.eraseP (·.name = s.xName)).Perm [s.yNode, s.tableNode] :=
    ((perm_cons_eraseP hfound).symm.trans s.threeMembers).cons_inv
  refine memberValue_of_perm s.valueUnnamed hothers ?_
  simp [asValue_of_asAxis s.yAxis, asValue_one_tableNode s]

/-- The only array of two dimensions is the table. -/
theorem memberValue_two_tableStruct : c.memberValue 2 s.members s.members = some s.table := by
  refine memberValue_of_perm s.valueUnnamed s.threeMembers ?_
  simp [asValue_two_of_asAxis s.xAxis, asValue_two_of_asAxis s.yAxis, s.tableValue]

/-- The rule for curves takes the y axis for the value array if it is as long as the x axis. -/
theorem internalCurveRule_tableStruct (name : String) :
    c.internalCurveRule name s.layout =
      .ok (if s.y.length = s.x.length then some (s.axisCurve name) else none) := by
  unfold internalCurveRule TableStruct.layout
  simp only [s.xFirst, s.xAxis, memberValue_one_tableStruct s, s.xOrdered]
  by_cases hlength : s.y.length = s.x.length
  · rw [if_neg (not_not.2 hlength), if_pos hlength]
    rfl
  · rw [if_pos hlength, if_neg hlength]
    rfl

/-- The rule for maps finds the table and its axes. -/
theorem internalMapRule_tableStruct (name : String) :
    c.internalMapRule name s.layout = .ok (some (s.tableMap name)) := by
  unfold internalMapRule TableStruct.layout
  simp only [s.xFirst, s.yFirst, s.xAxis, s.yAxis, memberValue_two_tableStruct s, s.tableDims,
    s.xOrdered, s.yOrdered]
  rw [if_neg (not_not.2 rfl)]
  rfl

end Table

/-- A struct of two axes and a table is a map, unless its axes have the same length: then it is
taken for the curve of its y axis over its x axis. -/
theorem classify_tableStruct (s : TableStruct c) (name : String) (siblings : Siblings) :
    c.classify name s.layout siblings =
      .ok (some (if s.y.length = s.x.length then s.axisCurve name else s.tableMap name)) := by
  have hembedded : c.hasEmbeddedAxis s.layout = true := hasEmbeddedAxis_of_firstMember s.xFirst
  rw [classify_of_hasEmbeddedAxis hembedded, internalCurveRule_tableStruct,
    internalMapRule_tableStruct]
  by_cases hlength : s.y.length = s.x.length
  · rw [if_pos hlength, if_pos hlength]
    rfl
  · rw [if_neg hlength, if_neg hlength]
    rfl

theorem asValue_shortArray (name : String) (address : Int) {shape : ArrayShape}
    (h : shape.isEmpty = false) :
    asValue shape.dims.length (shortArray name address shape).toNode =
      some (shortArray name address shape) := by
  refine asValue_eq_some.2 ⟨rfl, rfl, h, ?_⟩
  obtain ⟨last, hcount⟩ := Nat.exists_eq_succ_of_ne_zero (of_decide_eq_false h)
  simp [ArrayView.isNumeric, ArrayView.elementType?, ArrayView.toNode, shortArray, hcount,
    List.range_succ_eq_map, LayoutNode.elementType?, ScalarLeaf.isBitfield, DataType.isNumeric,
    DataType.isInteger]

theorem asAxis_shortArray (name : String) (address : Int) (last : Nat) :
    asAxis (shortArray name address ⟨[last + 1], 2, by simp⟩).toNode =
      some (shortArray name address ⟨[last + 1], 2, by simp⟩) := by
  have hvalue := @asValue_shortArray name address ⟨[last + 1], 2, by simp⟩
    (by simp [ArrayShape.isEmpty, ArrayShape.count, ArrayShape.countOf])
  obtain ⟨hbare, -, -, hnumeric⟩ := asValue_eq_some.1 hvalue
  rw [asAxis, hbare, Option.filter_some_pos]
  rw [hnumeric]
  rfl

/-- Numbers of two bytes in a struct: two axes, each longer by one than given, and a table over
them. -/
def shortsTable (columns rows : Nat) : TableStruct plainClassifier :=
  let x := shortArray "x" 0x1000 ⟨[columns + 1], 2, by simp⟩
  let y := shortArray "y" (0x1002 + 2 * columns) ⟨[rows + 1], 2, by simp⟩
  let table := shortArray "table" (0x1004 + 2 * columns + 2 * rows)
    ⟨[rows + 1, columns + 1], 2, by simp⟩
  { header := ⟨"Torque", "Torque", 0x1000, 2 * (columns + 2) * (rows + 2) - 2, some "torque_t"⟩
    alternatives := 0
    members := [x.toNode, y.toNode, table.toNode]
    xName := "x"
    yName := "y"
    xNode := x.toNode
    yNode := y.toNode
    tableNode := table.toNode
    x, y, table
    threeMembers := .refl _
    xFirst := rfl
    yFirst := rfl
    valueUnnamed := rfl
    xAxis := asAxis_shortArray ..
    yAxis := asAxis_shortArray ..
    tableValue := asValue_shortArray _ _ (by
      simp [ArrayShape.isEmpty, ArrayShape.count, ArrayShape.countOf])
    tableDims := rfl
    xOrdered := rfl
    yOrdered := rfl }

/-- A table of two rows and three columns is a map. -/
theorem classify_tableStruct_oblong :
    plainClassifier.classify "Torque" (shortsTable 2 1).layout (.ofList []) =
      .ok (some ((shortsTable 2 1).tableMap "Torque")) :=
  classify_tableStruct (shortsTable 2 1) "Torque" _

/-- A table of three rows and three columns is a curve of one axis over the other. -/
theorem square_table_taken_for_curve :
    plainClassifier.classify "Torque" (shortsTable 2 2).layout (.ofList []) =
      .ok (some ((shortsTable 2 2).axisCurve "Torque")) :=
  rfl

end Classifier

end DebugLayout
