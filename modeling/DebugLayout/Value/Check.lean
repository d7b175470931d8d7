import DebugLayout.Value

/-!
# DebugLayout — checks on values

Documents that come from outside are **checked** before they are believed: that a value is of a
kind asked for, that a number lies in a range, that a list or a tuple holds text only, that a
dictionary has a field. Each check hands back what it established, or the fault, which names the
value by a label.

* `CheckFault`: the faults;
* `Value.check`, `checkOrNull`, `checkRange`, `checkStrings`, `checkField`: the checks.
-/

namespace DebugLayout

/-- Why a value is refused. -/
inductive CheckFault
  | wrongKind (label : String) (expected : List Kind) (got : Kind)
  | notStrings (label : String) (got : Kind)
  | notADict (context : String) (got : Kind)
  | missingField (context key : String)
  | tooSmall (label : String) (least got : Int)
  | tooLarge (label : String) (greatest got : Int)
  deriving DecidableEq, Repr

/-- The wording of a fault. -/
def CheckFault.message : CheckFault → String
  | wrongKind label expected got =>
    s!"{label} must be " ++ String.intercalate " or " (expected.map Kind.name) ++
      ". Got " ++ got.name
  | notStrings label got => s!"{label} must be a list of strings. Got {got.name}"
  | notADict context got => s!"{context}Expected a dict. Got {got.name}"
  | missingField context key => s!"{context}Missing field \"" ++ key ++ "\""
  | tooSmall label least got => s!"{label} must be greater or equal to {least}. Got {got}"
  | tooLarge label greatest got => s!"{label} must be less or equal to {greatest}. Got {got}"

namespace Value

/-- The value of a field of a dictionary. -/
def field? (fields : List (Key × Value)) (key : String) : Option Value :=
  (fields.find? (·.1 = .text key)).map (·.2)

/-- Checks that a value is of one of some kinds. -/
def check (label : String) (expected : List Kind) (v : Value) : Except CheckFault Unit :=
  if expected.contains v.kind then .ok () else .error (.wrongKind label expected v.kind)

/-- Checks that a value is of one of some kinds, unless there is none. -/
def checkOrNull (label : String) (expected : List Kind) : Value → Except CheckFault Unit
  | null => .ok ()
  | v => v.check label expected

/-- Checks that a value is an integer, and hands it back. -/
def checkInt (label : String) : Value → Except CheckFault Int
  | int n => .ok n
  | v => .error (.wrongKind label [.int] v.kind)

/-- Checks that a value is a text, and hands it back. -/
def checkText (label : String) : Value → Except CheckFault String
  | text s => .ok s
  | v => .error (.wrongKind label [.text] v.kind)

/-- Checks that a number lies between bounds, either of which may be missing. -/
def checkBounds (label : String) (least greatest : Option Int) (n : Int) :
    Except CheckFault Unit :=
  match least, greatest with
  | some lo, some hi =>
    if n < lo then .error (.tooSmall label lo n)
    else if hi < n then .error (.tooLarge label hi n) else .ok ()
  | some lo, none => if n < lo then .error (.tooSmall label lo n) else .ok ()
  | none, some hi => if hi < n then .error (.tooLarge label hi n) else .ok ()
  | none, none => .ok ()

/-- Checks that a value is an integer between bounds. -/
def checkRange (label : String) (least greatest : Option Int) (v : Value) :
    Except CheckFault Unit := do
  let n ← v.checkInt label
  checkBounds label least greatest n

/-- Checks that some items, from a place on, are text, and hands them back. -/
def checkItems (label : String) (place : Nat) : List Value → Except CheckFault (List String)
  | [] => .ok []
  | item :: items => do
    let s ← item.checkText s!"{label}[{place}]"
    let rest ← checkItems label (place + 1) items
    return s :: rest

/-- Checks that a value is a list or a tuple of text, and hands the items back. -/
def checkStrings (label : String) : Value → Except CheckFault (List String)
  | list items | tuple items => checkItems label 0 items
  | v => .error (.notStrings label v.kind)

/-- Checks that a value is a dictionary with a field of one of some kinds, and hands the value of
the field back. -/
def checkField (context key : String) (expected : List Kind) (v : Value) :
    Except CheckFault Value :=
  match v with
  | dict fields =>
    match field? fields key with
    | none => .error (.missingField context key)
    | some value => (value.check (context ++ key) expected).map fun _ => value
  | v => .error (.notADict context v.kind)

end Value

end DebugLayout
