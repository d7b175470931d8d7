/-!
# DebugLayout — hexadecimal spellings

Two spellings of integers appear in messages. A **reference** is written in lower case without
padding (`1f0`, and `-ff` below zero). An **address** is written in upper case after `0x`, padded
with zeros to eight characters, of which the minus sign of a negative address is one.

* `hexLower`: the spelling of references;
* `hexAddress`: the spelling of addresses.
-/

namespace DebugLayout.Text

/-- The sign of a number in front of the digits of its magnitude. -/
def signText (n : Int) : String := if n < 0 then "-" else ""

/-- A number in base sixteen, in lower case, with a minus sign below zero. -/
def hexLower (n : Int) : String :=
  signText n ++ String.ofList (Nat.toDigits 16 n.natAbs)

/-- An address: `0x`, then sign and upper case digits, eight characters at least. -/
def hexAddress (n : Int) : String :=
  let sign := signText n
  let digits := (Nat.toDigits 16 n.natAbs).map Char.toUpper
  let zeros := List.replicate (8 - sign.length - digits.length) '0'
  "0x" ++ sign ++ String.ofList (zeros ++ digits)

example : hexLower (-255) = "-ff" := by decide
example : hexAddress 0x1f0 = "0x000001F0" := by decide
example : hexAddress (-0x1000) = "0x-0001000" := by decide

end DebugLayout.Text
