import DebugLayout.AddressMap
import DebugLayout.OrderedMap

/-!
# DebugLayout — the symbol table

The **symbol table** of a binary gives names to stretches of memory. A name may belong to several
local symbols, and to at most one global one; it then means the global one, or nothing when only
local ones share it. A symbol covers the addresses from its own up to its size, and at least its
own address.

* `SymbolTable.add`: a table with one more symbol, or why it is refused;
* `SymbolTable.lookup`, `lookupAll`: the symbols of a name;
* `SymbolTable.at?`: the name of a symbol that covers an address.
-/

namespace DebugLayout

/-- A stretch of memory that a name stands for. -/
structure Symbol where
  address : Int
  size : Int
  isLocal : Bool
  deriving DecidableEq, Repr

/-- The symbols of a binary, by name and by address. -/
structure SymbolTable where
  byName : OrderedMap String (List Symbol)
  byAddress : AddressMap (List (String × Int))
  deriving DecidableEq, Repr

/-- Why a symbol is refused. -/
inductive SymbolFault
  | invalid (name : String) (address size : Int)
  | duplicate (name : String)
  deriving DecidableEq, Repr

/-- The wording of a fault. -/
def SymbolFault.message : SymbolFault → String
  | invalid name address size => s!"Invalid symbol {name} at {address} with size {size}"
  | duplicate name => "Duplicate symbol " ++ name

/-- Whether some stretch of memory covers an address. -/
def covers (start size address : Int) : Bool :=
  start ≤ address && address < start + max size 1

namespace SymbolTable

/-- The table without symbols. -/
def empty : SymbolTable := ⟨.empty, .empty⟩

/-- What a name's symbols have to say about another one: it is one of them, it is a second global
one, or it is welcome. The first of them that has something to say decides. -/
inductive Admission
  | known
  | duplicate
  | welcome
  deriving DecidableEq, Repr

/-- The verdict of a name's symbols on another one. -/
def admission (new : Symbol) : List Symbol → Admission
  | [] => .welcome
  | old :: rest =>
    if old.address = new.address ∧ old.size = new.size then .known
    else if !old.isLocal && !new.isLocal then .duplicate
    else admission new rest

/-- The symbols of a name, in the order in which they came. -/
def symbolsOf (t : SymbolTable) (name : String) : List Symbol := (t.byName.get? name).getD []

/-- A table with one more symbol. A symbol that is already there changes nothing. -/
def add (t : SymbolTable) (name : String) (new : Symbol) : Except SymbolFault SymbolTable :=
  if new.address < 0 ∨ new.size < 0 then .error (.invalid name new.address new.size)
  else match admission new (t.symbolsOf name) with
    | .known => .ok t
    | .duplicate => .error (.duplicate name)
    | .welcome =>
      let here := (t.byAddress.get? new.address).getD []
      .ok ⟨t.byName.insert name (t.symbolsOf name ++ [new]),
        t.byAddress.insert new.address (here ++ [(name, new.size)])⟩

/-- The symbol that a name means: its global one, or the only one it has. -/
def lookup (t : SymbolTable) (name : String) : Option (Int × Int) :=
  let symbols := t.symbolsOf name
  match symbols.filter fun s => !s.isLocal, symbols with
  | [s], _ => some (s.address, s.size)
  | _, [s] => some (s.address, s.size)
  | _, _ => none

/-- The addresses and sizes of all symbols of a name. -/
def lookupAll (t : SymbolTable) (name : String) : List (Int × Int) :=
  (t.symbolsOf name).map fun s => (s.address, s.size)

/-- The first name that covers an address in a walk back over the addresses of symbols. The walk
ends at the nearest address below. -/
def findCovering (address : Int) : List (Int × List (String × Int)) → Option String
  | [] => none
  | (start, here) :: lower =>
    match here.find? fun symbol => covers start symbol.2 address with
    | some symbol => some symbol.1
    | none => if start < address then none else findCovering address lower

/-- The name of a symbol that covers an address. -/
def at? (t : SymbolTable) (address : Int) : Option String :=
  findCovering address (t.byAddress.upTo address)

/-- The names, in the order in which they came. -/
def names (t : SymbolTable) : List String := t.byName.keys

/-- Whether a name has a symbol. -/
def contains (t : SymbolTable) (name : String) : Bool := t.byName.contains name

/-- The number of symbols. -/
def size (t : SymbolTable) : Nat := t.byName.values.flatten.length

end SymbolTable

end DebugLayout
