import DebugLayout.Calibration.AxisSearch

/-!
# DebugLayout — calibration objects

A symbol that holds calibration data is one of five **calibration objects**:

* a *value*: a single number;
* a *curve*: an array of numbers over an axis of the same length;
* a *map*: a table of numbers over two axes;
* a *value block*: an array of numbers of one to three dimensions, without axes;
* a *blob*: raw bytes, or a composite that is none of the others.

Axes are *internal*, members of the same struct as the values, or *external*, symbols of their own.
Rules are tried in a fixed order and the first that applies decides.

* `CalibrationObject`, `Axis`: the objects;
* `Classifier.classify`: the object that a symbol is.
-/

namespace DebugLayout

/-- Where an axis comes from. -/
inductive AxisSource
  | member (name : String)
  | symbol (name : String)
  deriving DecidableEq, Repr

/-- An axis of a curve or a map. -/
structure Axis where
  array : ArrayView
  source : AxisSource

/-- What the calibration data of a symbol is. -/
inductive CalibrationObject
  | value (name : String) (leaf : ScalarLeaf)
  | curve (name : String) (layout : LayoutNode) (value : ArrayView) (axis : Axis)
  | map (name : String) (layout : LayoutNode) (value : ArrayView) (xAxis yAxis : Axis)
  | valueBlock (name : String) (layout : LayoutNode) (value : ArrayView)
  | blob (name : String) (layout : LayoutNode) (address byteSize : Int)

namespace Classifier

/-- What a rule says of a symbol: the object that it is, or nothing. -/
abbrev Verdict := Except ClassifyFault (Option CalibrationObject)

/-- The first member of a composite that has one of some names, with the name. -/
def firstMember (members : List LayoutNode) : List String → Option (String × LayoutNode)
  | [] => none
  | name :: names =>
    match members.find? (·.name = name) with
    | some m => some (name, m)
    | none => firstMember members names

/-- Whether a layout has a member called like an axis. -/
def hasEmbeddedAxis (c : Classifier) : LayoutNode → Bool
  | .composite _ _ _ members =>
    (firstMember members (c.config.xAxisMembers ++ c.config.yAxisMembers)).isSome
  | _ => false

/-- The value array of one to three dimensions that a layout can serve as. -/
def anyValue (layout : LayoutNode) : Option ArrayView :=
  (asValue 1 layout).or ((asValue 2 layout).or (asValue 3 layout))

/-- A number by itself is a value. -/
def valueRule (name : String) (layout : LayoutNode) : Option CalibrationObject :=
  match layout with
  | .scalar leaf => if !leaf.isBitfield && leaf.isNumeric then some (.value name leaf) else none
  | _ => none

/-- An array of numbers wider than a byte is a value block, unless it has axes. -/
def valueBlockRule (c : Classifier) (name : String) (layout : LayoutNode) (siblings : Siblings) :
    Verdict := do
  if c.hasEmbeddedAxis layout then return none
  match anyValue layout with
  | none => return none
  | some value =>
    if value.isBytes then return none
    if value.dims.length ≤ 2 then
      if (← c.externalAxes name siblings value.dims).isSome then return none
    return some (.valueBlock name layout value)

/-- The value array among some members of a struct: the one with a name for it, or else the only one
of so many dimensions among `others`. -/
def memberValue (c : Classifier) (dimensions : Nat) (members others : List LayoutNode) :
    Option ArrayView :=
  match firstMember members c.config.valueMembers with
  | some (_, m) => asValue dimensions m
  | none =>
    match others.filterMap (asValue dimensions) with
    | [value] => some value
    | _ => none

/-- A struct with an axis and a parallel value array is a curve. -/
def internalCurveRule (c : Classifier) (name : String) (layout : LayoutNode) : Verdict := do
  match layout with
  | .composite _ false _ members =>
    match firstMember members c.config.xAxisMembers with
    | none => return none
    | some (axisName, axisNode) =>
      match asAxis axisNode, c.memberValue 1 members (members.eraseP (·.name = axisName)) with
      | some axis, some value =>
        if value.length ≠ axis.length then return none
        if !(← (c.isMonotonic axis.elements).mapError .decode) then return none
        return some (.curve name layout value ⟨axis, .member axisName⟩)
      | _, _ => return none
  | _ => return none

/-- An array with an external axis is a curve. -/
def externalCurveRule (c : Classifier) (name : String) (layout : LayoutNode)
    (siblings : Siblings) : Verdict := do
  if c.hasEmbeddedAxis layout then return none
  match asValue 1 layout with
  | none => return none
  | some value =>
    match ← c.externalAxes name siblings value.dims with
    | some ((axisName, axis) :: _) =>
      return some (.curve name layout value ⟨axis, .symbol axisName⟩)
    | _ => return none

/-- A struct with two axes and a table of their lengths is a map. -/
def internalMapRule (c : Classifier) (name : String) (layout : LayoutNode) : Verdict := do
  match layout with
  | .composite _ false _ members =>
    match firstMember members c.config.xAxisMembers, firstMember members c.config.yAxisMembers with
    | some (xName, xNode), some (yName, yNode) =>
      match asAxis xNode, asAxis yNode, c.memberValue 2 members members with
      | some x, some y, some value =>
        if value.dims ≠ [y.length, x.length] then return none
        if !(← (c.isMonotonic x.elements).mapError .decode) then return none
        if !(← (c.isMonotonic y.elements).mapError .decode) then return none
        return some (.map name layout value ⟨x, .member xName⟩ ⟨y, .member yName⟩)
      | _, _, _ => return none
    | _, _ => return none
  | _ => return none

/-- A table with two external axes is a map. -/
def externalMapRule (c : Classifier) (name : String) (layout : LayoutNode)
    (siblings : Siblings) : Verdict := do
  if c.hasEmbeddedAxis layout then return none
  match asValue 2 layout with
  | none => return none
  | some value =>
    match ← c.externalAxes name siblings value.dims with
    | some [(xName, x), (yName, y)] =>
      return some (.map name layout value ⟨x, .symbol xName⟩ ⟨y, .symbol yName⟩)
    | _ => return none

/-- Bytes, arrays of aggregates and composites are blobs, provided that they have a size. -/
def blobRule (name : String) (layout : LayoutNode) : Option CalibrationObject :=
  let isBlob := match layout with
    | .array header shape elementTypeName (first :: rest) =>
      0 < header.byteSize && match first with
        | .scalar _ => (ArrayView.mk header shape elementTypeName (first :: rest)).isBytes
        | .pointer _ => false
        | .composite .. | .array .. => true
    | .composite header .. => 0 < header.byteSize
    | _ => false
  if isBlob then some (.blob name layout layout.address layout.byteSize) else none

/-- The object that a symbol is, if it holds calibration data. -/
def classify (c : Classifier) (name : String) (layout : LayoutNode) (siblings : Siblings) :
    Verdict := do
  if let some object := valueRule name layout then return some object
  if let some object := ← c.valueBlockRule name layout siblings then return some object
  if let some object := ← c.internalCurveRule name layout then return some object
  if let some object := ← c.externalCurveRule name layout siblings then return some object
  if let some object := ← c.internalMapRule name layout then return some object
  if let some object := ← c.externalMapRule name layout siblings then return some object
  return blobRule name layout

end Classifier

end DebugLayout
