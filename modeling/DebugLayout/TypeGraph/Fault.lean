import DebugLayout.Text.Hex
import DebugLayout.Text.Quoted
import DebugLayout.Value

/-!
# DebugLayout — faults of types

What can be wrong with a type is told by **cause**. An operation on the arena of nodes may be out
of order; a reference may lead nowhere; an entry may be there and yet describe no type.

* `ArenaFault`: an operation that the arena refuses;
* `Dangling`: a reference that leads nowhere;
* `Malformation`: why an entry describes no type;
* `TypeFault`: what is recorded about a type that was left out.
-/

namespace DebugLayout

/-- Why the arena of type nodes refuses an operation. -/
inductive ArenaFault
  | defined (ref : Int)
  | aliased (ref : Int)
  | noPlaceholder (ref : Int)
  deriving DecidableEq, Repr

/-- A reference to a type that does not exist, with the entry that refers to it if it is known. -/
structure Dangling where
  ref : Int
  usedBy : Option Int
  deriving DecidableEq, Repr

/-- Why an entry describes no type. Entries are named by their labels. -/
inductive Malformation
  | noByteSize (label : String)
  | noEnumSize (label : String)
  | noElementType (label : String)
  | unreadableLocation (label : String)
  | noStorageUnit (label : String)
  | fieldOutsideUnit (label : String) (unitSize offset size : Int)
  | notAnInteger (fault : IntFault)
  | arena (fault : ArenaFault)
  /-- The type contains itself, without a composite in between. -/
  | endless
  deriving DecidableEq, Repr

/-- What is wrong with a type that was left out of the graph. -/
inductive TypeFault
  | dangling (fault : Dangling)
  | malformed (ref : Int) (cause : Malformation)
  deriving DecidableEq, Repr

/-- The wording of a refusal. -/
def ArenaFault.message : ArenaFault → String
  | defined ref => "Type <" ++ Text.hexLower ref ++ "> is already defined"
  | aliased ref => "Type <" ++ Text.hexLower ref ++ "> is already an alias"
  | noPlaceholder ref => "No placeholder to fill for type <" ++ Text.hexLower ref ++ ">"

/-- The wording of a reference that leads nowhere. -/
def Dangling.message (fault : Dangling) : String :=
  "Unresolved type reference <" ++ Text.hexLower fault.ref ++ ">" ++
    match fault.usedBy with
    | none => ""
    | some entry => " used by entry <" ++ Text.hexLower entry ++ ">"

/-- The wording of a malformation. A refusal of the arena is quoted. -/
def Malformation.message : Malformation → String
  | noByteSize label => "Missing DW_AT_byte_size on base type " ++ label
  | noEnumSize label => "Cannot determine enum size of " ++ label
  | noElementType label => "Array " ++ label ++ " has no element type"
  | unreadableLocation label => "Does not know how to read member location of " ++ label
  | noStorageUnit label => "Cannot get the storage unit size of bitfield " ++ label
  | fieldOutsideUnit label unitSize offset size =>
    s!"Bitfield {label} does not fit in its {unitSize} bytes storage unit. " ++
      s!"Offset={offset}, size={size}"
  | notAnInteger fault => fault.message
  | arena fault => Text.quote fault.message
  | endless => "maximum recursion depth exceeded in comparison"

/-- The wording of what is wrong with a type. -/
def TypeFault.message : TypeFault → String
  | dangling fault => fault.message
  | malformed ref cause => "Malformed type <" ++ Text.hexLower ref ++ ">. " ++ cause.message

end DebugLayout
