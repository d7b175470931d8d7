import DebugLayout.Entry.Basic
import DebugLayout.ObjectFile.Basic
import DebugLayout.Scalar.Decode

/-!
# DebugLayout — decoding debug entries

The debug entries of an object file are **decoded**: references become absolute, the expressions of
locations and of member offsets become numbers where they are simple enough, and strings become
text. An entry that cannot be decoded is left out together with the entries inside it.

* `decodeReference`, `decodeLocation`, `decodeMemberLocation`: single attributes;
* `Die.decodeAttributes`: all attributes of an entry;
* `Die.toEntry`: an entry with the entries inside it.
-/

namespace DebugLayout

/-- Why an entry of a file cannot be decoded. -/
inductive DecodingFault
  | notAnInteger (fault : IntFault)
  | notABytesInteger (data : List UInt8)
  | notABytesByte
  | shortExpression (label : String)
  | unsupportedOperator (label : String)
  | unreadableLocation (label : String)
  deriving DecidableEq, Repr

/-- The wording of a fault. -/
def DecodingFault.message : DecodingFault → String
  | notAnInteger fault => fault.message
  | notABytesInteger data =>
    "invalid literal for int() with base 10: " ++
      String.ofList ((Text.quoteBytes data).toList.take 200)
  | notABytesByte => "bytes must be in range(0, 256)"
  | shortExpression label => "Invalid member offset data length for " ++ label
  | unsupportedOperator label =>
    "Does not know how to read member location for " ++ label ++ ". Operator is unsupported"
  | unreadableLocation label => "Does not know how to read member location for " ++ label

/-- The integer that a value can be read as. Bytes are read as an ASCII numeral. -/
def FormValue.toInt : FormValue → Except DecodingFault Int
  | number n => .ok n
  | flag b => .ok (if b then 1 else 0)
  | block _ => .error (.notAnInteger (.notANumber .list))
  | bytes data =>
    if data.all (· < 0x80) then
      match Text.readInteger (String.ofList (data.map fun b => Char.ofNat b.toNat)) with
      | .ok n => .ok n
      | .error (.notANumeral _) => .error (.notABytesInteger data)
      | .error fault => .error (.notAnInteger (.numeral fault))
    else .error (.notABytesInteger data)

/-- The forms of references that count from the start of their unit. -/
def unitReferenceForms : List String :=
  ["DW_FORM_ref1", "DW_FORM_ref2", "DW_FORM_ref4", "DW_FORM_ref8", "DW_FORM_ref_udata"]

/-- The absolute reference that an attribute gives, if its form is one that is understood. -/
def decodeReference (unitOffset : Int) (a : FormAttribute) : Except DecodingFault (Option Int) :=
  if unitReferenceForms.contains a.form then
    a.value.toInt.map fun n => some (n + unitOffset)
  else if a.form = "DW_FORM_ref_addr" then a.value.toInt.map some
  else .ok none

/-- The bytes that some numbers are, all of which must fit into a byte. -/
def toBytes? (items : List Int) : Option (List UInt8) :=
  if items.all fun n => 0 ≤ n && n < 256 then some (items.map fun n => UInt8.ofNat n.toNat)
  else none

/-- The operation of an expression that pushes an absolute address. -/
def opAddress : Int := 0x03

/-- The operation of an expression that adds an unsigned constant. -/
def opPlusConstant : Int := 0x23

/-- The absolute address of a variable, if its location starts with such an address. -/
def decodeLocation (order : Endianness) (addressSize : Nat) :
    FormValue → Except DecodingFault (Option Int)
  | .block (operation :: operands) =>
    if operands.length < addressSize ∨ operation ≠ opAddress then .ok none
    else match toBytes? (operands.take addressSize) with
      | some data => .ok (some (unsignedValue order data))
      | none => .error .notABytesByte
  | _ => .ok none

/-- The number that groups of seven bits denote, the lowest first. The high bit of a byte tells that
another group follows; `shift` is where the current group goes. -/
def uleb128 (result shift : Nat) : List Int → Nat
  | [] => result
  | byte :: rest =>
    let result := result ||| ((byte % 128).toNat <<< shift)
    if byte / 128 % 2 = 0 then result else uleb128 result (shift + 7) rest

/-- The offset of a member: a number, or an expression that adds a constant to the address of the
composite. -/
def decodeMemberLocation (label : String) : FormValue → Except DecodingFault Value
  | .number n => .ok (.int n)
  | .flag b => .ok (.bool b)
  | .block (operation :: first :: rest) =>
    if operation = opPlusConstant then .ok (.int (uleb128 0 0 (first :: rest)))
    else .error (.unsupportedOperator label)
  | .block _ => .error (.shortExpression label)
  | .bytes _ => .error (.unreadableLocation label)

/-- The value of an attribute that needs no decoding but of its text. -/
def FormValue.toValue : FormValue → Value
  | number n => .int n
  | flag b => .bool b
  | block items => .list (items.map .int)
  | bytes data => .text (Text.decodeLossy data)

/-- The value of a bound of an array, unless it refers to a variable or is an expression. -/
def decodeBound (a : FormAttribute) : Option Value :=
  match a.value with
  | .number n => if "DW_FORM_ref".isPrefixOf a.form then none else some (.int n)
  | .flag b => if "DW_FORM_ref".isPrefixOf a.form then none else some (.bool b)
  | _ => none

/-- What the decoding of a file depends on besides the entry: the order of bytes, the size of
addresses, and the offset of the unit. -/
structure DecodingContext where
  order : Endianness
  addressSize : Nat
  unitOffset : Int

/-- The decoded value of an attribute, if it is kept. -/
def decodeAttribute (ctx : DecodingContext) (label name : String) (a : FormAttribute) :
    Except DecodingFault (Option Value) :=
  if [Attr.type, Attr.specification, Attr.abstractOrigin].contains name then
    (decodeReference ctx.unitOffset a).map (Option.map .int)
  else if name = Attr.location then
    (decodeLocation ctx.order ctx.addressSize a.value).map (Option.map .int)
  else if name = Attr.memberLocation then (decodeMemberLocation label a.value).map some
  else if [Attr.upperBound, Attr.lowerBound, Attr.count].contains name then .ok (decodeBound a)
  else if name = Attr.declaration then .ok (some (.bool a.value.isTruthy))
  else .ok (some a.value.toValue)

/-- The decoded attributes among some attributes, in order. -/
def decodeEach (ctx : DecodingContext) (label : String) :
    List (String × FormAttribute) → Except DecodingFault (List (String × Value))
  | [] => .ok []
  | (name, a) :: rest => do
    let value ← decodeAttribute ctx label name a
    let others ← decodeEach ctx label rest
    return (value.map fun v => (name, v)).toList ++ others

namespace Die

/-- The attributes with a known name; of several with one name the last counts. -/
def namedAttributes (attributes : List FormAttribute) : OrderedMap String FormAttribute :=
  .ofList (attributes.filterMap fun a => a.name.map fun name => (name, a))

/-- The decoded attributes of an entry. -/
def decodeAttributes (ctx : DecodingContext) (d : Die) : Except DecodingFault Attributes :=
  match d with
  | node _ _ attributes _ =>
    (decodeEach ctx d.label (namedAttributes attributes).entries).map fun es => ⟨es⟩

mutual

/-- The decoded entry with the entries inside it, unless it only ends a list. -/
def toEntry (ctx : DecodingContext) : Die → Except DecodingFault (Option Entry)
  | node _ none _ _ => .ok none
  | node offset (some tag) attributes children =>
    match decodeAttributes ctx (node offset (some tag) attributes children) with
    | .error fault => .error fault
    | .ok decoded => .ok (some (.node offset ⟨tag⟩ decoded (toEntries ctx children)))

/-- The decoded entries among some entries. Those that cannot be decoded are left out. -/
def toEntries (ctx : DecodingContext) : List Die → List Entry
  | [] => []
  | d :: ds =>
    match toEntry ctx d with
    | .ok (some e) => e :: toEntries ctx ds
    | _ => toEntries ctx ds

end

end Die

end DebugLayout
