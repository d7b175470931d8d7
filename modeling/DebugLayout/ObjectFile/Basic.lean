import DebugLayout.Text.Hex
import DebugLayout.Text.Utf8
import DebugLayout.Value

/-!
# DebugLayout — object files

An **object file** is taken as its sections, symbols and units of debug information, already parsed.
The attributes of its debug entries are still in the form in which the file has them: numbers,
flags, blocks of bytes that may hold an expression, and strings of bytes.

* `ObjectFile`, `Section`, `FileSymbol`, `CompileUnit`: the parts of a file;
* `Die`: a debug entry of a file;
* `FormValue`: the value of an attribute of such an entry.
-/

namespace DebugLayout

/-- The value of an attribute, in the form that the file has. -/
inductive FormValue
  | number (n : Int)
  | flag (b : Bool)
  | block (items : List Int)
  | bytes (data : List UInt8)
  deriving DecidableEq, Repr

/-- An attribute of a debug entry of a file. Attributes of vendors have no known name. -/
structure FormAttribute where
  name : Option String
  form : String
  value : FormValue
  deriving DecidableEq, Repr

/-- A debug entry of a file, by its offset. One without tag only ends a list of entries. -/
inductive Die
  | node (offset : Int) (tag : Option String) (attributes : List FormAttribute)
      (children : List Die)

/-- A unit of the debug information. References inside it count from its offset. -/
structure CompileUnit where
  version : Int
  offset : Int
  die : Die

/-- Where a symbol is defined: in a section by number, or in a place of its own. -/
inductive SymbolPlace
  | inSection (index : Int)
  | special (name : String)
  deriving DecidableEq, Repr

/-- A symbol of a file. -/
structure FileSymbol where
  name : String
  type : String
  binding : String
  place : SymbolPlace
  value : Int
  size : Int
  deriving DecidableEq, Repr

/-- A section of a file. A symbol table has symbols. -/
structure Section where
  name : String
  flags : Int
  size : Int
  address : Int
  type : String
  data : List UInt8
  symbols : Option (List FileSymbol)
  deriving DecidableEq, Repr

/-- A parsed object file. The class is the width of its addresses in bits. -/
structure ObjectFile where
  hasDebugInfo : Bool
  isLittleEndian : Bool
  elfClass : Int
  sections : List Section
  units : List CompileUnit

namespace FormValue

/-- The spelling of a value. -/
def toText : FormValue → String
  | number n => toString n
  | flag b => if b then "True" else "False"
  | block items => "[" ++ String.intercalate ", " (items.map toString) ++ "]"
  | bytes data => Text.decodeLossy data

/-- Whether a value counts as true. -/
def isTruthy : FormValue → Bool
  | number n => n ≠ 0
  | flag b => b
  | block items => !items.isEmpty
  | bytes data => !data.isEmpty

end FormValue

namespace Die

/-- The attribute of a name: the last one, if there are several. -/
def attribute? (d : Die) (name : String) : Option FormAttribute :=
  match d with
  | node _ _ attributes _ => attributes.reverse.find? (·.name = some name)

/-- The name of the entry, however it is given. -/
def name? (d : Die) : Option String := (d.attribute? "DW_AT_name").map (·.value.toText)

/-- How a message names the entry. -/
def label (d : Die) : String :=
  match d with
  | node offset tag _ _ =>
    tag.getD "None" ++ " <" ++ Text.hexLower offset ++ "> \"" ++ d.name?.getD "" ++ "\""

end Die

namespace Section

/-- Whether one of the flags of a section is set, given its value as a power of two. -/
def hasFlag (s : Section) (flag : Int) : Bool := s.flags / flag % 2 = 1

/-- Whether the section takes memory of the target at its address: it is allocated, not empty, and
not a template for the storage of threads. -/
def isLoaded (s : Section) : Bool := s.hasFlag 0x2 && s.size ≠ 0 && !s.hasFlag 0x400

/-- The initial content of the section, zeros if the file holds none. -/
def content (s : Section) : List UInt8 :=
  if s.type = "SHT_NOBITS" then List.replicate s.size.toNat 0 else s.data

end Section

end DebugLayout
