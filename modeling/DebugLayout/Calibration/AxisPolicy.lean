import DebugLayout.Calibration.AxisSearch

/-!
# DebugLayout — policies made from settings

Settings name their policies. Before a search each of them is **made** with what it needs of the
settings: the axes that are given explicitly, the affixes, or the patterns, which the library
compiles once more.

* `AxisPolicy`, `AxisPolicy.findAxes`: a policy with what it needs, and the axes that it proposes;
* `Settings.axisPolicies`: the policies of some settings, in their order.
-/

namespace DebugLayout

/-- A policy with what it needs of some settings. -/
inductive AxisPolicy
  | explicit (axes : OrderedMap String (List String))
  | affix (xSuffixes ySuffixes xPrefixes yPrefixes : List String)
  | positional (namesAxis namesValue : String → Bool)

/-- Why a policy cannot be made. -/
inductive PolicyFault
  | unknown (name : String)
  | badPattern (refusal : String)
  deriving DecidableEq, Repr

/-- The wording of a fault. -/
def PolicyFault.message : PolicyFault → String
  | unknown name => s!"Unknown axis policy {name}"
  | badPattern refusal => refusal

namespace AxisPolicy

/-- Which policy it is. -/
def policy : AxisPolicy → Policy
  | explicit _ => .explicit
  | affix .. => .affix
  | positional .. => .positional

/-- The name of a policy. -/
def name (p : AxisPolicy) : String := p.policy.name

/-- The configuration that the policy knows of. -/
def config : AxisPolicy → Config
  | explicit axes => { Config.default with explicitAxes := axes.mapValues .ofList }
  | affix xSuffixes ySuffixes xPrefixes yPrefixes =>
    { Config.default with xSuffixes, ySuffixes, xPrefixes, yPrefixes }
  | positional namesAxis namesValue => { Config.default with namesAxis, namesValue }

/-- The names of the axes that the policy proposes for a value array of some dimensions. -/
def findAxes (p : AxisPolicy) (name : String) (dims : List Nat) (siblings : Siblings) :
    Except ClassifyFault (Option (List String)) :=
  p.policy.axes p.config name dims siblings

end AxisPolicy

namespace Settings

/-- What finds a pattern. -/
def compilePattern (library : RegexLibrary) (source : String) :
    Except PolicyFault (String → Bool) :=
  (library.compile source).mapError .badPattern

/-- The policy of a name, made for some settings. -/
def axisPolicy (library : RegexLibrary) (s : Settings) (name : String) :
    Except PolicyFault AxisPolicy :=
  match Policy.ofName? name with
  | none => .error (.unknown name)
  | some .explicit => .ok (.explicit (s.explicitAxes.mapValues AxisNames.names))
  | some .affix => .ok (.affix s.xSuffixes s.ySuffixes s.xPrefixes s.yPrefixes)
  | some .positional => do
    let namesAxis ← compilePattern library s.axisPattern
    let namesValue ← compilePattern library s.valuePattern
    return .positional namesAxis namesValue

/-- The policies of some settings, in their order. -/
def axisPolicies (library : RegexLibrary) (s : Settings) : Except PolicyFault (List AxisPolicy) :=
  (s.policies.map Policy.name).mapM (s.axisPolicy library)

end Settings

end DebugLayout
