/-!
# DebugLayout — blanks

The **blank** characters are those with the Unicode property White_Space together with the
four information separators U+001C to U+001F. They separate nothing inside a text here: they
are only taken off its two ends, before an endianness, a path or a number is read.

* `isBlank`: the class;
* `stripped`: a text without the blanks at its ends.
-/

namespace DebugLayout.Text

/-- The code points of the blanks, in increasing order. -/
def blankCodes : List Nat :=
  [0x09, 0x0A, 0x0B, 0x0C, 0x0D, 0x1C, 0x1D, 0x1E, 0x1F, 0x20, 0x85, 0xA0, 0x1680,
   0x2000, 0x2001, 0x2002, 0x2003, 0x2004, 0x2005, 0x2006, 0x2007, 0x2008, 0x2009, 0x200A,
   0x2028, 0x2029, 0x202F, 0x205F, 0x3000]

/-- Whether a character is a blank. -/
def isBlank (c : Char) : Bool := blankCodes.contains c.toNat

/-- The characters left once the blanks at both ends are gone. -/
def stripBlanks (cs : List Char) : List Char :=
  ((cs.dropWhile isBlank).reverse.dropWhile isBlank).reverse

/-- A text without the blanks at its two ends; the blanks inside it stay. -/
def stripped (s : String) : String := String.ofList (stripBlanks s.toList)

end DebugLayout.Text
