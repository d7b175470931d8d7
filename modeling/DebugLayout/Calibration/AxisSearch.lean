import DebugLayout.Calibration.ArrayView
import DebugLayout.Calibration.Config
import DebugLayout.Calibration.NaturalOrder
import DebugLayout.Image.Memory
import DebugLayout.Scalar.Decode

/-!
# DebugLayout — the search for external axes

The axes of a curve or a map may be symbols of their own. They are sought among the **siblings** of
the symbol, by one policy after the other:

* the **explicit** policy takes the axes that the configuration names for the symbol;
* the **affix** policy takes the siblings called like the symbol, with a suffix or a prefix;
* the **positional** policy takes siblings whose name matches a pattern, by their length, for
  symbols whose name matches another pattern.

The first policy whose axes turn out to be valid decides. Axes are valid when they are arrays of
numbers of the right lengths whose initial content, as far as it can be read, does not decrease.

* `Siblings`: the other symbols;
* `Policy.axes`: the names that a policy proposes;
* `Classifier.isMonotonic`: whether the content of an axis does not decrease;
* `Classifier.externalAxes`: the axes that the search ends with.
-/

namespace DebugLayout

/-- The other symbols of the program: their names in order, whether there is one of a name, and the
layout of one, which may fail to be a layout at all. -/
structure Siblings where
  names : List String
  contains : String → Bool
  layout? : String → Except ShapeFault (Option LayoutNode)

namespace Siblings

/-- The layout of a name in a list. -/
def findLayout (name : String) : List (String × LayoutNode) → Option LayoutNode
  | [] => none
  | (other, layout) :: rest => if other = name then some layout else findLayout name rest

/-- The siblings of a list of layouts. -/
def ofList (layouts : List (String × LayoutNode)) : Siblings where
  names := layouts.map (·.1)
  contains name := (findLayout name layouts).isSome
  layout? name := .ok (findLayout name layouts)

/-- No siblings. -/
def none : Siblings := ofList []

end Siblings

/-- Why a symbol cannot be classified. -/
inductive ClassifyFault
  | numeral (fault : Text.NumeralFault)
  | decode (fault : DecodeFault)
  | sibling (fault : ShapeFault)
  deriving DecidableEq, Repr

/-- What the classification of symbols depends on besides their layouts: a configuration, a reader
of the initial content of the memory if there is one, and the order of bytes. -/
structure Classifier where
  config : Config
  memory : Option MemoryReader
  endianness : Endianness

-- ---------------------------------------------------------------------------
-- Policies
-- ---------------------------------------------------------------------------

namespace Policy

/-- The first sibling called like a symbol with one of some suffixes, or else with one of some
prefixes. An empty affix leads back to the symbol and does not count. -/
def affixed (name : String) (suffixes prefixes : List String) (siblings : Siblings) :
    Option String :=
  (suffixes.map (name ++ ·) ++ prefixes.map (· ++ name)).find? fun candidate =>
    candidate ≠ name && siblings.contains candidate

/-- The axes of the affix policy. -/
def affixAxes (c : Config) (name : String) (dims : List Nat) (siblings : Siblings) :
    Option (List String) :=
  match affixed name c.xSuffixes c.xPrefixes siblings, dims with
  | some x, [_] => some [x]
  | some x, [_, _] => (affixed name c.ySuffixes c.yPrefixes siblings).map fun y => [x, y]
  | _, _ => none

/-- The axes of the explicit policy, which apply when there are as many as dimensions. -/
def explicitAxes (c : Config) (name : String) (dims : List Nat) : Option (List String) :=
  ((c.explicitAxes.get? name).map AxisNames.names).filter fun axes => axes.length = dims.length

/-- The lengths of those of some siblings that can serve as axes. -/
def axisLengths (siblings : Siblings) : List String → Except ClassifyFault (List (String × Nat))
  | [] => .ok []
  | name :: names =>
    match siblings.layout? name with
    | .error fault => .error (.sibling fault)
    | .ok layout => do
      let rest ← axisLengths siblings names
      match layout.bind asAxis with
      | some axis => return (name, axis.length) :: rest
      | none => return rest

/-- The names of a length. -/
def ofLength (lengths : List (String × Nat)) (n : Nat) : List String :=
  (lengths.filter (·.2 = n)).map (·.1)

/-- The axes that fit some dimensions by their lengths: the first one for one dimension; for two the
only ones of both lengths, or the only two if the lengths are equal. -/
def fitting (lengths : List (String × Nat)) (dims : List Nat) : Option (List String) :=
  match dims with
  | [n] => (ofLength lengths n).head?.map fun x => [x]
  | [rows, columns] =>
    match ofLength lengths columns, ofLength lengths rows with
    | [x], [y] => if rows = columns then none else some [x, y]
    | [x, y], _ => if rows = columns then some [x, y] else none
    | _, _ => none
  | _ => none

/-- The axes of the positional policy. -/
def positionalAxes (c : Config) (name : String) (dims : List Nat) (siblings : Siblings) :
    Except ClassifyFault (Option (List String)) := do
  if !c.namesValue name then return none
  let candidates := siblings.names.filter fun n => c.namesAxis n && n ≠ name
  let sorted ← (naturalSort candidates).mapError .numeral
  let lengths ← axisLengths siblings sorted
  return fitting lengths dims

/-- The names of the axes that a policy proposes for a value array of some dimensions, the x axis
first. -/
def axes (p : Policy) (c : Config) (name : String) (dims : List Nat) (siblings : Siblings) :
    Except ClassifyFault (Option (List String)) :=
  match p with
  | explicit => .ok (explicitAxes c name dims)
  | affix => .ok (affixAxes c name dims siblings)
  | positional => positionalAxes c name dims siblings

end Policy

-- ---------------------------------------------------------------------------
-- Validation
-- ---------------------------------------------------------------------------

namespace Classifier

/-- The value of an element in the initial content of the memory, if it can be read. -/
def elementValue (memory : MemoryReader) (order : Endianness) :
    LayoutNode → Except DecodeFault (Option Decoded)
  | .scalar leaf =>
    if !leaf.dataType.canDecode then .ok none
    else match memory.read leaf.address leaf.byteSize with
      | none => .ok none
      | some data => (decodeScalar data leaf.dataType order none none).map some
  | _ => .ok none

/-- Whether the values of some elements do not decrease, starting from a previous one, up to the
first that cannot be read. -/
def ascends (memory : MemoryReader) (order : Endianness) :
    Option Decoded → List LayoutNode → Except DecodeFault Bool
  | _, [] => .ok true
  | previous, e :: es => do
    match ← elementValue memory order e with
    | none => return true
    | some value =>
      if previous.any fun p => !p.le value then return false
      else ascends memory order (some value) es

/-- Whether the initial content of an axis does not decrease. What cannot be read is believed to be
in order. -/
def isMonotonic (c : Classifier) (elements : List LayoutNode) : Except DecodeFault Bool :=
  match c.config.checkMonotonic, c.memory with
  | true, some memory => ascends memory c.endianness none elements
  | _, _ => .ok true

/-- The axes of some names, if each is an axis of the length that goes with it. -/
def axesOfLengths (c : Classifier) (name : String) (siblings : Siblings) :
    List (String × Nat) → Except ClassifyFault (Option (List (String × ArrayView)))
  | [] => .ok (some [])
  | (axisName, length) :: rest => do
    if axisName = name then return none
    let layout ← (siblings.layout? axisName).mapError .sibling
    match layout.bind asAxis with
    | none => return none
    | some axis =>
      if axis.length ≠ length then return none
      if !(← (c.isMonotonic axis.elements).mapError .decode) then return none
      let others ← axesOfLengths c name siblings rest
      return others.map ((axisName, axis) :: ·)

/-- The axes that were proposed for a value array, if they are valid: one for each dimension, all
different. The x axis goes with the last dimension. -/
def validAxes (c : Classifier) (name : String) (siblings : Siblings) (dims : List Nat)
    (axisNames : List String) : Except ClassifyFault (Option (List (String × ArrayView))) :=
  if axisNames.length ≠ dims.length ∨ ¬axisNames.Nodup then .ok none
  else axesOfLengths c name siblings (axisNames.zip dims.reverse)

/-- The valid axes of the first of some policies that proposes such. -/
def axesByPolicies (c : Classifier) (name : String) (siblings : Siblings) (dims : List Nat) :
    List Policy → Except ClassifyFault (Option (List (String × ArrayView)))
  | [] => .ok none
  | p :: ps => do
    match ← p.axes c.config name dims siblings with
    | none => axesByPolicies c name siblings dims ps
    | some axisNames =>
      match ← c.validAxes name siblings dims axisNames with
      | some axes => return some axes
      | none => axesByPolicies c name siblings dims ps

/-- The external axes of a value array. -/
def externalAxes (c : Classifier) (name : String) (siblings : Siblings) (dims : List Nat) :
    Except ClassifyFault (Option (List (String × ArrayView))) :=
  c.axesByPolicies name siblings dims c.config.policies

end Classifier

end DebugLayout
