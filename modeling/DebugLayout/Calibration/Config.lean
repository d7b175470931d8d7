import DebugLayout.OrderedMap
import DebugLayout.Regex.Library
import DebugLayout.Value.Check

/-!
# DebugLayout — classifier configuration

The **settings** of the calibration classifier say by which names the members of a struct are
recognised as axes and values, and where the axes of a curve or a map are sought among the other
symbols: which policies are asked, in which order, and with which affixes and patterns.

Settings are read from a dictionary. Missing fields have default values, unknown fields are refused,
and everything else is checked, so that settings can be used without further ado. Patterns are kept
as they are spelt; that a library of regular expressions accepts them is part of the check. The axes
that are given explicitly may come in lists or in tuples, and are kept as they come.

A **configuration** is what a search for axes works with: settings, and the two searches that a
library makes out of their patterns.

* `Policy`: the policies by which axes are sought;
* `AxisNames`, `Settings`, `Settings.default`: the settings;
* `Settings.ofValue`, `Settings.given`, `Settings.toValue`: reading and writing them;
* `Config`, `Settings.compiled`, `Config.default`: the configurations.
-/

namespace DebugLayout

/-- A rule by which external axes are sought. -/
inductive Policy
  | explicit | affix | positional
  deriving DecidableEq, Repr

namespace Policy

/-- The policies, in the order in which they are asked by default. -/
def all : List Policy := [explicit, affix, positional]

/-- The name of a policy. -/
def name : Policy → String
  | explicit => "explicit"
  | affix => "affix"
  | positional => "positional"

/-- The policy of a name. -/
def ofName? (text : String) : Option Policy := all.find? (·.name = text)

end Policy

/-- Why a dictionary holds no settings. -/
inductive ConfigFault
  | check (fault : CheckFault)
  | unsupported (key : String)
  | unknownPolicy (name : String)
  | repeatedPolicy
  | badPattern (label refusal : String)
  | axisCount (value : String)
  deriving DecidableEq, Repr

/-- The wording of a fault. -/
def ConfigFault.message : ConfigFault → String
  | check fault => fault.message
  | unsupported key => "Unsupported parameter " ++ key
  | unknownPolicy name =>
    s!"Unknown axis policy {name}. Possible values are " ++
      String.intercalate ", " (Policy.all.map Policy.name)
  | repeatedPolicy => "policy_order contains duplicates"
  | badPattern label refusal => s!"{label} is not a valid regular expression: " ++ refusal
  | axisCount value => s!"explicit_axes[{value}] must name 1 or 2 axes"

/-- A list of text as a value. -/
def stringsValue (items : List String) : Value := .list (items.map .text)

/-- The names of the axes of a value, in a list or in a tuple. -/
structure AxisNames where
  names : List String
  isTuple : Bool
  deriving DecidableEq, Repr

namespace AxisNames

/-- Names in a list. -/
def ofList (names : List String) : AxisNames := ⟨names, false⟩

/-- The names in a list, whatever they came in. -/
def listed (axes : AxisNames) : AxisNames := ofList axes.names

/-- The value that the names came in. -/
def value (axes : AxisNames) : Value :=
  if axes.isTuple then .tuple (axes.names.map .text) else stringsValue axes.names

/-- The names that a value lists. -/
def ofValue (label : String) (v : Value) : Except CheckFault AxisNames :=
  (v.checkStrings label).map fun names => ⟨names, v.kind = .tuple⟩

end AxisNames

/-- How calibration objects are recognised and their axes found. -/
structure Settings where
  xAxisMembers : List String
  yAxisMembers : List String
  valueMembers : List String
  policies : List Policy
  xSuffixes : List String
  ySuffixes : List String
  xPrefixes : List String
  yPrefixes : List String
  axisPattern : String
  valuePattern : String
  explicitAxes : OrderedMap String AxisNames
  checkMonotonic : Bool
  deriving DecidableEq, Repr

namespace Settings

/-- The settings that are used when none are given. -/
def default : Settings where
  xAxisMembers := ["x", "x_axis", "axis_x"]
  yAxisMembers := ["y", "y_axis", "axis_y"]
  valueMembers := ["value", "values", "z"]
  policies := Policy.all
  xSuffixes := ["_x"]
  ySuffixes := ["_y"]
  xPrefixes := ["x_"]
  yPrefixes := ["y_"]
  axisPattern := "^Axis_\\d+$"
  valuePattern := "(Curve|Map)"
  explicitAxes := .empty
  checkMonotonic := true

/-- The fields of the settings, with the kind of their values, in the order of the checks. -/
def fieldKinds : List (String × Kind) :=
  [("x_axis_member_names", .list), ("y_axis_member_names", .list), ("value_member_names", .list),
   ("policy_order", .list), ("x_suffixes", .list), ("y_suffixes", .list), ("x_prefixes", .list),
   ("y_prefixes", .list), ("positional_axis_pattern", .text), ("positional_value_pattern", .text),
   ("explicit_axes", .dict), ("check_monotonic", .bool)]

/-- The keys of the fields. -/
def keys : List String := fieldKinds.map (·.1)

/-- The first key of a dictionary by which no field of the settings goes. -/
def unsupported? (fields : List (Key × Value)) : Option Key :=
  (fields.map (·.1)).find? fun key => !(keys.map Key.text).contains key

/-- Checks the kinds of the fields that are given. -/
def checkKinds (fields : List (Key × Value)) : List (String × Kind) → Except ConfigFault Unit
  | [] => .ok ()
  | (key, kind) :: rest =>
    match Value.field? fields key with
    | none => checkKinds fields rest
    | some v =>
      match v.check key [kind] with
      | .error fault => .error (.check fault)
      | .ok () => checkKinds fields rest

/-- The texts in a field, or their default. -/
def stringsField (fields : List (Key × Value)) (key : String) (default : List String) :
    Except ConfigFault (List String) :=
  match Value.field? fields key with
  | none => .ok default
  | some v => (v.checkStrings key).mapError .check

/-- The policies of some names, in order. -/
def readPolicies : List String → Except ConfigFault (List Policy)
  | [] => .ok []
  | name :: names =>
    match Policy.ofName? name with
    | none => .error (.unknownPolicy name)
    | some p => (readPolicies names).map (p :: ·)

/-- The order of the policies, or its default. -/
def policiesField (fields : List (Key × Value)) (default : List Policy) :
    Except ConfigFault (List Policy) := do
  match Value.field? fields "policy_order" with
  | none => return default
  | some v =>
    let names ← (v.checkStrings "policy_order").mapError .check
    let policies ← readPolicies names
    if policies.Nodup then return policies else throw .repeatedPolicy

/-- A text, or its default. -/
def textField (fields : List (Key × Value)) (key default : String) : Except ConfigFault String :=
  match Value.field? fields key with
  | none => .ok default
  | some v => (v.checkText key).mapError .check

/-- A pattern, or its default. Either must be accepted by the library. -/
def patternField (library : RegexLibrary) (fields : List (Key × Value)) (key default : String) :
    Except ConfigFault String := do
  let source ← textField fields key default
  match library.compile source with
  | .ok _ => return source
  | .error refusal => throw (.badPattern key refusal)

/-- The axes that are given explicitly, for each value one or two. -/
def readAxes : List (Key × Value) → Except ConfigFault (List (String × AxisNames))
  | [] => .ok []
  | (.other kind _ _, _) :: _ => .error (.check (.wrongKind "explicit_axes key" [.text] kind))
  | (.text value, v) :: rest => do
    let axes ← (AxisNames.ofValue s!"explicit_axes[{value}]" v).mapError .check
    if axes.names.length = 1 ∨ axes.names.length = 2 then
      let others ← readAxes rest
      return (value, axes) :: others
    else throw (.axisCount value)

/-- The explicit axes, or their default. -/
def axesField (fields : List (Key × Value)) (default : OrderedMap String AxisNames) :
    Except ConfigFault (OrderedMap String AxisNames) :=
  match Value.field? fields "explicit_axes" with
  | none => .ok default
  | some (.dict axes) => (readAxes axes).map OrderedMap.ofList
  | some v => .error (.check (.wrongKind "explicit_axes" [.dict] v.kind))

/-- A truth value, or its default. -/
def boolField (fields : List (Key × Value)) (key : String) (default : Bool) :
    Except ConfigFault Bool :=
  match Value.field? fields key with
  | none => .ok default
  | some (.bool b) => .ok b
  | some v => .error (.check (.wrongKind key [.bool] v.kind))

/-- The settings with some fields. All names of members and affixes are checked before the policies,
these before the patterns, and the explicit axes come last. -/
def ofFields (library : RegexLibrary) (fields : List (Key × Value)) :
    Except ConfigFault Settings := do
  let xAxisMembers ← stringsField fields "x_axis_member_names" default.xAxisMembers
  let yAxisMembers ← stringsField fields "y_axis_member_names" default.yAxisMembers
  let valueMembers ← stringsField fields "value_member_names" default.valueMembers
  let xSuffixes ← stringsField fields "x_suffixes" default.xSuffixes
  let ySuffixes ← stringsField fields "y_suffixes" default.ySuffixes
  let xPrefixes ← stringsField fields "x_prefixes" default.xPrefixes
  let yPrefixes ← stringsField fields "y_prefixes" default.yPrefixes
  let policies ← policiesField fields default.policies
  let axisPattern ← patternField library fields "positional_axis_pattern" default.axisPattern
  let valuePattern ← patternField library fields "positional_value_pattern" default.valuePattern
  let explicitAxes ← axesField fields default.explicitAxes
  let checkMonotonic ← boolField fields "check_monotonic" default.checkMonotonic
  return { xAxisMembers, yAxisMembers, valueMembers, policies, xSuffixes, ySuffixes, xPrefixes,
           yPrefixes, axisPattern, valuePattern, explicitAxes, checkMonotonic }

/-- The settings in a dictionary: unknown fields are refused first, then kinds are checked field by
field, and then contents. -/
def ofValue (library : RegexLibrary) : Value → Except ConfigFault Settings
  | .dict fields =>
    match unsupported? fields with
    | some key => .error (.unsupported key.shown)
    | none => do
      checkKinds fields fieldKinds
      ofFields library fields
  | v => .error (.check (.wrongKind "config" [.dict] v.kind))

/-- The settings with all axes in lists, whatever they came in. -/
def listed (s : Settings) : Settings :=
  { s with explicitAxes := s.explicitAxes.mapValues AxisNames.listed }

/-- The fields of some settings, with the axes in what they came in. -/
def given (s : Settings) : List (Key × Value) :=
  [("x_axis_member_names", stringsValue s.xAxisMembers),
    ("y_axis_member_names", stringsValue s.yAxisMembers),
    ("value_member_names", stringsValue s.valueMembers),
    ("policy_order", stringsValue (s.policies.map Policy.name)),
    ("x_suffixes", stringsValue s.xSuffixes),
    ("y_suffixes", stringsValue s.ySuffixes),
    ("x_prefixes", stringsValue s.xPrefixes),
    ("y_prefixes", stringsValue s.yPrefixes),
    ("positional_axis_pattern", .text s.axisPattern),
    ("positional_value_pattern", .text s.valuePattern),
    ("explicit_axes", .dict (s.explicitAxes.entries.map fun e => (.text e.1, e.2.value))),
    ("check_monotonic", .bool s.checkMonotonic)]

/-- The fields of some settings as they are written: in lists. -/
def written (s : Settings) : List (Key × Value) := s.listed.given

/-- The dictionary of some settings, with all the fields. -/
def toValue (s : Settings) : Value := .dict s.written

/-- Whether settings are read back from their own dictionary. -/
def roundTrips (library : RegexLibrary) (s : Settings) : Bool :=
  match ofValue library s.toValue with
  | .ok t => t = s
  | .error _ => false

end Settings

/-- Settings with what finds their two patterns: which names are those of positional axes, and for
which values axes are sought by position. -/
structure Config extends Settings where
  namesAxis : String → Bool
  namesValue : String → Bool

/-- Settings with their patterns as a library understands them. -/
def Settings.compiled (library : RegexLibrary) (s : Settings) : Config where
  toSettings := s
  namesAxis := library.finds s.axisPattern
  namesValue := library.finds s.valuePattern

/-- The configuration that is used when none is given. -/
def Config.default : Config := Settings.default.compiled Regex.library

end DebugLayout
