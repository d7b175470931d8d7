import DebugLayout.Text.Blank
import DebugLayout.Text.Lowercase

/-!
# DebugLayout — endianness

The order of the bytes of a number in the target memory. Its name is read without regard to case
and to the blanks around it.

* `Endianness`, `Endianness.ofText`: the two orders and their names.
-/

namespace DebugLayout

/-- The order of the bytes of a number, from the lowest address on. -/
inductive Endianness
  | little
  | big
  deriving DecidableEq, Repr

/-- A name that is no endianness, as it was compared. -/
structure UnknownEndianness where
  name : String
  deriving DecidableEq, Repr

/-- The wording of an unknown endianness. -/
def UnknownEndianness.message (fault : UnknownEndianness) : String :=
  "Unknown endianness \"" ++ fault.name ++ "\""

namespace Endianness

/-- The name of an endianness. -/
def toText : Endianness → String
  | little => "little"
  | big => "big"

/-- The endianness of a name. -/
def ofText (text : String) : Except UnknownEndianness Endianness :=
  let name := Text.lowered (Text.stripped text)
  if name = "little" then .ok little
  else if name = "big" then .ok big
  else .error ⟨name⟩

end Endianness

end DebugLayout
