import DebugLayout.Text.Blank
import DebugLayout.Text.Digit
import DebugLayout.Text.Quoted

/-!
# DebugLayout — numerals

Integers are read from text in one notation: spaces around, an optional sign, then decimal digits
of any script, with single underscores allowed between two of them. The four information
separators are blanks elsewhere but no spaces here. A numeral of more than `maxDigits` digits is
refused, whatever follows it.

* `readInteger`: the integer that a text denotes, or why it denotes none;
* `NumeralFault`: the reasons.
-/

namespace DebugLayout.Text

/-- Why a text is not read as an integer. -/
inductive NumeralFault
  | notANumeral (text : String)
  | tooManyDigits (count : Nat)
  deriving DecidableEq, Repr

/-- The greatest number of digits that a numeral may have. -/
def maxDigits : Nat := 4300

namespace NumeralFault

/-- The wording of a fault; a long text is cut after 200 characters of its quoted form. -/
def message : NumeralFault → String
  | notANumeral text =>
    "invalid literal for int() with base 10: " ++ String.ofList ((quote text).toList.take 200)
  | tooManyDigits count =>
    s!"Exceeds the limit ({maxDigits} digits) for integer string conversion: value has {count} " ++
      "digits; use sys.set_int_max_str_digits() to increase the limit"

end NumeralFault

/-- Whether a character is a space around a numeral: a blank that is no information separator. -/
def isSpace (c : Char) : Bool := isBlank c && !(0x1C ≤ c.toNat && c.toNat ≤ 0x1F)

/-- Whether every underscore stands between two digits; `afterDigit` tells whether a digit was
just read, as it must be at an underscore and at the end. -/
def wellGrouped (afterDigit : Bool) : List Char → Bool
  | [] => afterDigit
  | c :: cs =>
    if c = '_' then afterDigit && wellGrouped false cs
    else isDecimalDigit c && wellGrouped true cs

/-- Whether a character may stand in the digits of a numeral. -/
def isNumeralChar (c : Char) : Bool := isDecimalDigit c || c = '_'

/-- The natural number that a numeral without sign denotes; `text` is what a fault repeats. -/
def readNatural (text : String) (cs : List Char) : Except NumeralFault Nat :=
  let digits := (cs.takeWhile isNumeralChar).filterMap digitValue?
  if !wellGrouped false (cs.takeWhile isNumeralChar) then .error (.notANumeral text)
  else if maxDigits < digits.length then .error (.tooManyDigits digits.length)
  else if cs.dropWhile isNumeralChar ≠ [] then .error (.notANumeral text)
  else .ok (digitsValue digits)

/-- The integer that a text denotes. -/
def readInteger (text : String) : Except NumeralFault Int :=
  match ((text.toList.dropWhile isSpace).reverse.dropWhile isSpace).reverse with
  | '-' :: cs => (readNatural text cs).map fun n => -(n : Int)
  | '+' :: cs => (readNatural text cs).map fun n => (n : Int)
  | cs => (readNatural text cs).map fun n => (n : Int)

end DebugLayout.Text
