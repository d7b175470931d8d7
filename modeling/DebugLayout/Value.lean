import DebugLayout.Scalar.Binary64
import DebugLayout.Text.Numeral

/-!
# DebugLayout — values

Configurations and the attributes of debug entries hold **values** of several kinds: nothing,
booleans, integers, floating point numbers, text, lists, tuples and dictionaries. A boolean is never
taken for an integer where a kind is asked for, but where a number is needed it counts as 0 or 1.

Documents have lists only. A tuple comes from a caller that builds the value itself, and so does a
dictionary with keys other than texts. No field goes by such a **key**, and all that is ever asked
about it is its kind and how it is shown in a message.

* `Kind`, `Key`: the kinds of values, and the keys of dictionaries;
* `Value`, `Value.kind`: the values and their kinds;
* `Value.int?`: the integer that a value is;
* `Value.toInt`: the integer that a value can be read as;
* `Value.isTruthy`: whether a value counts as true.
-/

namespace DebugLayout

/-- The kinds of values. -/
inductive Kind
  | null | bool | int | float | text | list | tuple | dict
  deriving DecidableEq, Repr

namespace Kind

/-- The kinds. -/
def all : List Kind := [null, bool, int, float, text, list, tuple, dict]

/-- The name of a kind. -/
def name : Kind → String
  | null => "NoneType"
  | bool => "bool"
  | int => "int"
  | float => "float"
  | text => "str"
  | list => "list"
  | tuple => "tuple"
  | dict => "dict"

/-- The kind of a name. -/
def ofName? (text : String) : Option Kind := all.find? (·.name = text)

end Kind

/-- A key of a dictionary: a text, or a key of another kind with the way it is shown. -/
inductive Key
  | text (s : String)
  | other (kind : Kind) (shown : String) (notText : kind ≠ .text)
  deriving DecidableEq, Repr

instance : Coe String Key := ⟨.text⟩

namespace Key

/-- The kind of a key. -/
def kind : Key → Kind
  | text _ => .text
  | other kind _ _ => kind

/-- A key as it is shown in a message. -/
def shown : Key → String
  | text s => s
  | other _ shown _ => shown

end Key

/-- A value of a configuration or of an attribute. -/
inductive Value
  | null
  | bool (b : Bool)
  | int (n : Int)
  | float (x : Binary64)
  | text (s : String)
  | list (items : List Value)
  | tuple (items : List Value)
  | dict (fields : List (Key × Value))
  deriving Repr

/-- Why a value cannot be read as an integer. -/
inductive IntFault
  | numeral (fault : Text.NumeralFault)
  | notANumber (kind : Kind)
  | notFinite (isNaN : Bool)
  deriving DecidableEq, Repr

/-- The wording of a fault. -/
def IntFault.message : IntFault → String
  | numeral fault => fault.message
  | notANumber kind =>
    "int() argument must be a string, a bytes-like object or a real number, not '" ++ kind.name
      ++ "'"
  | notFinite true => "cannot convert float NaN to integer"
  | notFinite false => "cannot convert float infinity to integer"

namespace Value

/-- The kind of a value. -/
def kind : Value → Kind
  | null => .null
  | bool _ => .bool
  | int _ => .int
  | float _ => .float
  | text _ => .text
  | list _ => .list
  | tuple _ => .tuple
  | dict _ => .dict

/-- The integer that a value is; a boolean is 0 or 1. -/
def int? : Value → Option Int
  | int n => some n
  | bool b => some (if b then 1 else 0)
  | _ => none

/-- The integer that a value can be read as: numbers are cut toward zero, text is read as a
numeral. -/
def toInt : Value → Except IntFault Int
  | int n => .ok n
  | bool b => .ok (if b then 1 else 0)
  | float x =>
    if x.isNaN then .error (.notFinite true)
    else if x.isInfinite then .error (.notFinite false)
    else .ok x.truncated
  | text s =>
    match Text.readInteger s with
    | .ok n => .ok n
    | .error fault => .error (.numeral fault)
  | v => .error (.notANumber v.kind)

/-- The text that a value is. -/
def text? : Value → Option String
  | text s => some s
  | _ => none

/-- Whether a value counts as true: nothing, zeros and what is empty do not. -/
def isTruthy : Value → Bool
  | null => false
  | bool b => b
  | int n => n ≠ 0
  | float x => !x.isZero
  | text s => s ≠ ""
  | list items | tuple items => !items.isEmpty
  | dict fields => !fields.isEmpty

/-- Whether a value is a number equal to an integer. -/
def equalsInt (v : Value) (n : Int) : Bool :=
  match v with
  | float x => !x.isNaN && !x.isInfinite && x.isInteger && x.truncated = n
  | v => v.int? = some n

end Value

end DebugLayout
