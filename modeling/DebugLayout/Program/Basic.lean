import DebugLayout.Calibration.Classify
import DebugLayout.Image.Regions
import DebugLayout.Image.SymbolTable
import DebugLayout.Layout.Resolve
import DebugLayout.Program.Variable
import DebugLayout.TypeGraph.Build

/-!
# DebugLayout — programs

A **program** brings everything together: the debug entries, the type graph built from them, the
symbol table, the regions that symbols may live in, and how symbols are classified. Its symbols are
the variables of the debug information; each can be located, laid out and classified by name, or
found by an address that it covers.

The symbol table has the last word on where a variable is, except for variables that share a name,
which it cannot tell apart.

* `Program.load`: the program with some inputs;
* `Program.addressOf`, `layoutOf`, `resolve`: a symbol by name;
* `Program.nameAt`, `resolveAt`: a symbol by address;
* `Program.resolveAll`: all symbols, those with faults included.
-/

namespace DebugLayout

/-- A program whose symbols can be resolved. The last two fields are indexes of the variables: by
link name, and by the location that the debug information gives. -/
structure Program where
  store : Store
  graph : TypeGraph
  symbols : SymbolTable
  regions : Option Regions
  classifier : Classifier
  depth : Nat
  variableIndex : Variables
  byLinkName : OrderedMap String String
  byLocation : AddressMap String

/-- What a symbol is asked for by. -/
inductive SymbolKey
  | name (name : String)
  | address (address : Int)
  deriving DecidableEq, Repr

/-- Why a symbol cannot be resolved. -/
inductive ResolveFault
  /-- A symbol without storage, or an address without symbol. -/
  | unmapped (key : SymbolKey)
  /-- A symbol outside of the regions. -/
  | outside (name : String) (address : Int)
  /-- A symbol without debug information. -/
  | unknown (name : String)
  | layout (fault : LayoutFault)
  | classify (fault : ClassifyFault)
  deriving DecidableEq

/-- The wording of a fault of classification. -/
def ClassifyFault.message : ClassifyFault → String
  | numeral fault => fault.message
  | decode fault => fault.message
  | sibling fault => fault.message

/-- The wording of a fault. -/
def ResolveFault.message : ResolveFault → String
  | unmapped (.address address) => "No symbol backs address " ++ Text.hexAddress address
  | unmapped (.name name) => "Symbol \"" ++ name ++ "\" has no backing storage"
  | outside name address =>
    "Symbol \"" ++ name ++ "\" at " ++ Text.hexAddress address ++
      " is outside the addressable memory"
  | unknown name => "No debug information for symbol \"" ++ name ++ "\""
  | layout fault => fault.message
  | classify fault => fault.message

namespace ResolveFault

/-- Whether the fault is one of the symbol alone, which leaves the others unaffected. A shape that
cannot be and a failed classification are none of these. -/
def isOfSymbol : ResolveFault → Bool
  | unmapped _ | outside .. | unknown _ => true
  | layout (.tooDeep ..) | layout (.unresolved ..) => true
  | layout (.shape _) | classify _ => false

/-- Whether the fault says that the symbol has no storage in the program. -/
def isUnmapped : ResolveFault → Bool
  | unmapped _ | outside .. | unknown _ => true
  | layout _ | classify _ => false

end ResolveFault

namespace Program

/-- Indexes a variable by its link name, if that tells it apart. The first variable wins. -/
def indexLinkName (index : OrderedMap String String) (e : String × Variable) :
    OrderedMap String String :=
  match e.2.linkName, e.2.isQualified with
  | some linkName, false => index.insertNew linkName e.1
  | _, _ => index

/-- Indexes a variable by its location. The first variable wins. -/
def indexLocation (index : AddressMap String) (e : String × Variable) : AddressMap String :=
  match e.2.location? with
  | some location => if index.contains location then index else index.insert location e.1
  | none => index

/-- The program with some inputs. -/
def load (store : Store) (symbols : SymbolTable) (target : Target) (regions : Option Regions)
    (memory : Option MemoryReader) (config : Config) (depth : Nat) : Program :=
  let variableIndex := indexVariables store
  { store, symbols, regions, depth, variableIndex
    graph := TypeGraph.build target store
    classifier := ⟨config, memory, target.endianness⟩
    byLinkName := variableIndex.entries.foldl indexLinkName .empty
    byLocation := variableIndex.entries.foldl indexLocation .empty }

/-- The names of the symbols, in order. -/
def names (p : Program) : List String := p.variableIndex.keys

/-- Whether there is a symbol of a name. -/
def hasSymbol (p : Program) (name : String) : Bool := p.variableIndex.contains name

/-- The address and the size of a variable, as far as they are known. -/
def locate (p : Program) (v : Variable) : Option Int × Int :=
  match (if v.isQualified then none else v.linkName).bind p.symbols.lookup with
  | some (address, size) => (some address, size)
  | none => (v.location?, 0)

/-- The address of a symbol, which must lie in the regions. Nothing lives at address zero. -/
def addressOf (p : Program) (name : String) : Except ResolveFault Int :=
  match p.variableIndex.get? name with
  | none => .error (.unknown name)
  | some v =>
    match p.locate v with
    | (none, _) | (some 0, _) => .error (.unmapped (.name name))
    | (some address, size) =>
      if p.regions.all (·.contain address size) then .ok address
      else .error (.outside name address)

/-- The layout of a symbol. -/
def layoutOf (p : Program) (name : String) : Except ResolveFault LayoutNode :=
  match (p.variableIndex.get? name).bind fun v => p.store.variableType? v.entry with
  | none => .error (.unknown name)
  | some type => do
    let address ← p.addressOf name
    (p.graph.layout p.depth type address name).mapError .layout

/-- The layout of a symbol as a sibling of another one: symbols that cannot be resolved are not
there. -/
def siblingLayout (p : Program) (excluded name : String) : Except ShapeFault (Option LayoutNode) :=
  if name = excluded then .ok none
  else match p.layoutOf name with
    | .ok layout => .ok (some layout)
    | .error (.layout (.shape fault)) => .error fault
    | .error _ => .ok none

/-- The other symbols, each laid out when it is looked at. Whether there is a sibling of a name does
not depend on whether it can be laid out. -/
def siblings (p : Program) (excluded : String) : Siblings where
  names := p.names.filter (· ≠ excluded)
  contains name := name ≠ excluded && p.hasSymbol name
  layout? := p.siblingLayout excluded

/-- The number of other symbols. -/
def siblingCount (p : Program) (excluded : String) : Int :=
  (p.names.length : Int) - if p.hasSymbol excluded then 1 else 0

/-- A symbol with its layout and the calibration object that it is. -/
structure Resolved where
  name : String
  layout : LayoutNode
  calibration : Option CalibrationObject

/-- A symbol by its name. -/
def resolve (p : Program) (name : String) : Except ResolveFault Resolved := do
  let layout ← p.layoutOf name
  let calibration ←
    (p.classifier.classify name layout (p.siblings name)).mapError .classify
  return ⟨name, layout, calibration⟩

/-- A symbol by its name, or nothing if it has no storage in the program. -/
def resolve? (p : Program) (name : String) : Except ResolveFault (Option Resolved) :=
  match p.resolve name with
  | .ok r => .ok (some r)
  | .error fault => if fault.isUnmapped then .ok none else .error fault

/-- The symbol whose location in the debug information covers an address. Only the nearest location
at or below the address counts. -/
def nameByLocation? (p : Program) (address : Int) : Option String :=
  match p.byLocation.floor? address with
  | none => none
  | some (location, name) =>
    if address = location then some name
    else
      let size := do
        let v ← p.variableIndex.get? name
        let type ← p.store.variableType? v.entry
        (p.graph.byteSize type).toOption.bind id
      match size with
      | some size => if address < location + size then some name else none
      | none => none

/-- The symbol that covers an address. The symbol table is asked first, and the locations of the
debug information when it names no variable. -/
def nameAt? (p : Program) (address : Int) : Option String :=
  ((p.symbols.at? address).bind p.byLinkName.get?).or (p.nameByLocation? address)

/-- A symbol by an address that it covers. -/
def resolveAt (p : Program) (address : Int) : Except ResolveFault Resolved :=
  match p.nameAt? address with
  | none => .error (.unmapped (.address address))
  | some name => p.resolve name

/-- The outcome for one symbol when all are resolved. -/
structure Result where
  name : String
  outcome : Except ResolveFault Resolved

/-- The outcomes for some symbols. A fault of a symbol is part of its outcome; any other ends it
all. -/
def resolveEach (p : Program) : List String → Except ResolveFault (List Result)
  | [] => .ok []
  | name :: names =>
    match p.resolve name with
    | .ok r => (resolveEach p names).map (⟨name, .ok r⟩ :: ·)
    | .error fault =>
      if fault.isOfSymbol then (resolveEach p names).map (⟨name, .error fault⟩ :: ·)
      else .error fault

/-- The outcomes for all symbols, in order. -/
def resolveAll (p : Program) : Except ResolveFault (List Result) := p.resolveEach p.names

end Program

end DebugLayout
