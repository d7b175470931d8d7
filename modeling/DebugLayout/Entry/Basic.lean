import DebugLayout.Entry.Tag
import DebugLayout.OrderedMap
import DebugLayout.Text.Hex
import DebugLayout.Value

/-!
# DebugLayout — debug entries

A **debug entry** is one item of the debug information of a program: a tag, a reference by which
other entries name it, attributes, and the entries inside it. Attributes are decoded already:
names are text, references are the reference of the entry they name, and locations are absolute
addresses.

* `Entry`: the tree of an entry;
* `Entry.attr?`, `name?`, `typeRef?`, `byteSize?`, `isDeclaration`: what is read off it;
* `Entry.label`: how a message names it.
-/

namespace DebugLayout

/-- The attributes of an entry, by name. -/
abbrev Attributes := OrderedMap String Value

/-- A debug entry with the entries inside it. -/
inductive Entry
  | node (ref : Int) (tag : Tag) (attributes : Attributes) (children : List Entry)

namespace Entry

/-- The reference by which other entries name this one. -/
def ref : Entry → Int
  | node ref _ _ _ => ref

/-- What the entry describes. -/
def tag : Entry → Tag
  | node _ tag _ _ => tag

/-- The attributes of the entry. -/
def attributes : Entry → Attributes
  | node _ _ attributes _ => attributes

/-- The entries inside the entry, in document order. -/
def children : Entry → List Entry
  | node _ _ _ children => children

/-- The value of an attribute, if it has one other than nothing. -/
def attr? (e : Entry) (name : String) : Option Value :=
  match e.attributes.get? name with
  | some .null => none
  | v => v

/-- Whether an attribute is given, if only as nothing. -/
def hasAttr (e : Entry) (name : String) : Bool := e.attributes.contains name

/-- The name of the entry; an empty one is none. -/
def name? (e : Entry) : Option String :=
  match (e.attr? Attr.name).bind Value.text? with
  | some "" => none
  | name => name

/-- The reference of the type of the entry. -/
def typeRef? (e : Entry) : Option Int := (e.attr? Attr.type).bind Value.int?

/-- The size that the entry gives. -/
def byteSize? (e : Entry) : Option Int := (e.attr? Attr.byteSize).bind Value.int?

/-- The absolute address that the entry gives. -/
def location? (e : Entry) : Option Int := (e.attr? Attr.location).bind Value.int?

/-- Whether the entry only declares what another one defines. -/
def isDeclaration (e : Entry) : Bool :=
  match e.attr? Attr.declaration with
  | some v => v.isTruthy
  | none => false

/-- How a message names the entry: its tag, its reference and its name. -/
def label (e : Entry) : String :=
  e.tag.name ++ " <" ++ Text.hexLower e.ref ++ "> \"" ++ e.name?.getD "" ++ "\""

/-- A description of the entry. -/
def describe (e : Entry) : String := "<DebugEntry " ++ e.label ++ ">"

end Entry

end DebugLayout
