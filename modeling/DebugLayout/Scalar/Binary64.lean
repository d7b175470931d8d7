import DebugLayout.Scalar.DataType

/-!
# DebugLayout — binary64 numbers

Floating point values read from memory are kept as the **64 bits** of an IEEE 754 binary64 number.
Narrower formats are widened exactly: every number of a format with fewer exponent and fraction
bits is a binary64 number, its subnormal numbers being normal ones there.

* `Binary64`: a number by its bits;
* `FloatFormat.widen`: the binary64 number of a word in a narrower format;
* `Binary64.le`: the order of numbers, in which a NaN takes no part;
* `Binary64.truncated`: the integer part of a finite number.
-/

namespace DebugLayout

/-- A binary64 number, by its bits. -/
structure Binary64 where
  bits : Nat
  deriving DecidableEq, Repr

/-- A binary interchange format, by the widths of its exponent and its fraction. -/
structure FloatFormat where
  exponentBits : Nat
  fractionBits : Nat

namespace FloatFormat

/-- The half precision format. -/
def binary16 : FloatFormat := ⟨5, 10⟩

/-- The single precision format. -/
def binary32 : FloatFormat := ⟨8, 23⟩

/-- The exponent that stands for infinities and NaNs. -/
def maxExponent (f : FloatFormat) : Nat := valueCount f.exponentBits - 1

/-- What is added to the exponent of a number to give its exponent field. -/
def bias (f : FloatFormat) : Nat := valueCount (f.exponentBits - 1) - 1

/-- The binary64 number from its sign, exponent field and fraction field. -/
def assemble (sign exponent fraction : Nat) : Binary64 :=
  ⟨sign <<< 63 + exponent <<< 52 + fraction⟩

/-- The binary64 number of a word in a format that is narrower in both fields. -/
def widen (f : FloatFormat) (word : Nat) : Binary64 :=
  let fraction := word % valueCount f.fractionBits
  let exponent := word >>> f.fractionBits % valueCount f.exponentBits
  let sign := word >>> (f.fractionBits + f.exponentBits) % 2
  if exponent = f.maxExponent then
    assemble sign 2047 (fraction <<< (52 - f.fractionBits))
  else if exponent = 0 then
    if fraction = 0 then assemble sign 0 0
    else
      let top := Nat.log2 fraction
      let exponent := top + 1024 - f.bias - f.fractionBits
      assemble sign exponent ((fraction - valueCount top) <<< (52 - top))
  else
    assemble sign (exponent + 1023 - f.bias) (fraction <<< (52 - f.fractionBits))

end FloatFormat

namespace Binary64

/-- Whether the number is below zero, or is the negative zero. -/
def isNegative (x : Binary64) : Bool := valueCount 63 ≤ x.bits

/-- The bits without the sign, which order the magnitudes. -/
def magnitude (x : Binary64) : Nat := x.bits % valueCount 63

/-- Whether the bits stand for no number. -/
def isNaN (x : Binary64) : Bool := 2047 <<< 52 < x.magnitude

/-- Whether the number is one of the infinities. -/
def isInfinite (x : Binary64) : Bool := x.magnitude = 2047 <<< 52

/-- An integer that orders numbers: both zeros have the same one. -/
def orderKey (x : Binary64) : Int :=
  if x.isNegative then -(x.magnitude : Int) else x.magnitude

/-- Whether a number is at most another; a NaN is not comparable with anything. -/
def le (x y : Binary64) : Bool := !x.isNaN && !y.isNaN && x.orderKey ≤ y.orderKey

/-- Whether a number is a zero. -/
def isZero (x : Binary64) : Bool := x.magnitude = 0

/-- The significand and the exponent of two of the magnitude of a finite number. -/
def parts (x : Binary64) : Nat × Int :=
  let fraction : Nat := x.magnitude % valueCount 52
  let exponent : Nat := x.magnitude >>> 52
  if exponent = 0 then (fraction, -1074) else (valueCount 52 + fraction, (exponent : Int) - 1075)

/-- The integer part of a finite number, toward zero. -/
def truncated (x : Binary64) : Int :=
  let (significand, exponent) := x.parts
  let whole : Nat :=
    if 0 ≤ exponent then significand <<< exponent.toNat
    else significand >>> (-exponent).toNat
  if x.isNegative then -(whole : Int) else whole

/-- Whether a finite number is an integer. -/
def isInteger (x : Binary64) : Bool :=
  let (significand, exponent) := x.parts
  0 ≤ exponent || significand % valueCount (-exponent).toNat = 0

end Binary64

end DebugLayout
