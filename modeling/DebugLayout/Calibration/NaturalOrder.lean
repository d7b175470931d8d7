import DebugLayout.Text.Numeral

/-!
# DebugLayout — the natural order of names

Names that end in numbers are put in their **natural order**, in which `Axis_10` comes after
`Axis_2`. A name is cut into runs of decimal digits and the text between them, text coming first if
only an empty one; runs of digits are compared as numbers and text by code points.

A piece of text that consists of other digits, such as superscripts, would be taken for a number
and is none, which is a fault.

* `NaturalKey`, `naturalKey`: what a name is compared by;
* `naturalSort`: names in their natural order; names with equal keys stay in the order they had.
-/

namespace DebugLayout

/-- A piece of a name: text, or a number. -/
inductive NaturalPart
  | text (s : String)
  | number (n : Nat)
  deriving DecidableEq, Repr

/-- What a name is compared by. -/
abbrev NaturalKey := List NaturalPart

namespace NaturalPart

/-- Whether a piece comes before another. Names have text and numbers at the same places, so that
pieces of different kinds need no order among them. -/
def before : NaturalPart → NaturalPart → Bool
  | text s, text t => s < t
  | number m, number n => m < n
  | text _, number _ => true
  | number _, text _ => false

end NaturalPart

/-- The runs of a name, each with whether it holds decimal digits; `run` holds the characters of the
current one, the last first. -/
def naturalRuns (run : List Char) (isNumber : Bool) : List Char → List (Bool × List Char)
  | [] => if isNumber then [(true, run.reverse), (false, [])] else [(false, run.reverse)]
  | c :: cs =>
    if Text.isDecimalDigit c = isNumber then naturalRuns (c :: run) isNumber cs
    else (isNumber, run.reverse) :: naturalRuns [c] (!isNumber) cs

/-- The piece that a run is. -/
def naturalPart (run : Bool × List Char) : Except Text.NumeralFault NaturalPart :=
  let s := String.ofList run.2
  if run.1 then (Text.readNatural s run.2).map .number
  else if !run.2.isEmpty && run.2.all Text.isDigitLike then .error (.notANumeral s)
  else .ok (.text s)

/-- What a name is compared by. -/
def naturalKey (name : String) : Except Text.NumeralFault NaturalKey :=
  (naturalRuns [] false name.toList).mapM naturalPart

/-- Whether a key comes before another: at the first difference, or because it ends first. -/
def keyBefore : NaturalKey → NaturalKey → Bool
  | [], [] => false
  | [], _ :: _ => true
  | _ :: _, [] => false
  | p :: ps, q :: qs => p.before q || (!q.before p && keyBefore ps qs)

/-- A name with its key. -/
def withKey (name : String) : Except Text.NumeralFault (NaturalKey × String) :=
  (naturalKey name).map fun key => (key, name)

/-- Names in their natural order. -/
def naturalSort (names : List String) : Except Text.NumeralFault (List String) :=
  (names.mapM withKey).map fun keyed =>
    (keyed.mergeSort fun a b => !keyBefore b.1 a.1).map (·.2)

end DebugLayout
