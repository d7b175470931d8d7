import DebugLayout.Text.Printable

/-!
# DebugLayout — quoted text

Some messages repeat a text between **quotes**, so that blanks at its ends and characters that do
not print can be told apart. The quotes are single ones, unless the text has a single quote and
no double one. The quote in use and the backslash are escaped, and so is every character that is
not printable: by a letter where there is a usual one, else by its code point.

* `quote`: the quoted form of a text;
* `quoteBytes`: the quoted form of bytes, in which only ASCII characters stand for themselves.
-/

namespace DebugLayout.Text

/-- The digits of a code point, in lower case, padded to a width. -/
def codeDigits (width : Nat) (c : Char) : List Char :=
  let digits := Nat.toDigits 16 c.toNat
  List.replicate (width - digits.length) '0' ++ digits

/-- A character inside a quotation that is delimited by `delimiter`. -/
def quoteChar (delimiter c : Char) : List Char :=
  if c = delimiter ∨ c = '\\' then ['\\', c]
  else if c = '\n' then ['\\', 'n']
  else if c = '\r' then ['\\', 'r']
  else if c = '\t' then ['\\', 't']
  else if isPrintable c then [c]
  else if c.toNat < 0x100 then '\\' :: 'x' :: codeDigits 2 c
  else if c.toNat < 0x10000 then '\\' :: 'u' :: codeDigits 4 c
  else '\\' :: 'U' :: codeDigits 8 c

/-- The quote that delimits a text: single unless only single ones occur in it. -/
def delimiterOf (cs : List Char) : Char :=
  if cs.contains '\x27' && !cs.contains '"' then '"' else '\x27'

/-- A text between quotes, with what does not print escaped. -/
def quote (s : String) : String :=
  let delimiter := delimiterOf s.toList
  String.ofList (delimiter :: (s.toList.flatMap (quoteChar delimiter) ++ [delimiter]))

/-- Bytes between quotes, after a `b`, with what is no printable ASCII character escaped. -/
def quoteBytes (bytes : List UInt8) : String :=
  let cs := bytes.map fun b => Char.ofNat b.toNat
  let delimiter := delimiterOf cs
  let escape (c : Char) : List Char :=
    if c.toNat < 0x80 then quoteChar delimiter c else '\\' :: 'x' :: codeDigits 2 c
  String.ofList ('b' :: delimiter :: (cs.flatMap escape ++ [delimiter]))

end DebugLayout.Text
