import DebugLayout.ObjectFile.Convert
import DebugLayout.Program.Basic
import DebugLayout.Text.Wildcard

/-!
# DebugLayout — loading object files

**Loading** an object file produces all that a program is made of: the target, the symbol table, the
regions and the content of the memory, and the decoded debug entries. Compile units can be ignored
by their name, either its last part literally or the whole of it by a wildcard pattern.

Symbols and segments that contradict earlier ones are passed over; what else is wrong with the file
is a fault.

* `ObjectFile.load`: what a file holds;
* `LoadedFile.program`: the program of it.
-/

namespace DebugLayout

/-- What an object file holds. -/
structure LoadedFile where
  target : Target
  symbols : SymbolTable
  regions : Regions
  memory : Memory
  store : Store

/-- Why a file cannot be loaded. -/
inductive LoadFault
  | noDebugInfo
  | target (fault : CheckFault)
  | symbol (fault : SymbolFault)
  | region (fault : EmptyRegionFault)
  | entry (fault : DecodingFault)
  | store (fault : StoreFault)
  deriving DecidableEq, Repr

/-- The wording of a fault. -/
def LoadFault.message : LoadFault → String
  | noDebugInfo => "File has no DWARF info"
  | target fault => fault.message
  | symbol fault => fault.message
  | region fault => fault.message
  | entry fault => fault.message
  | store fault => fault.message

namespace ObjectFile

/-- Whether the file has debug information on types and variables, and not only on stack frames. -/
def hasDebugSection (f : ObjectFile) : Bool :=
  f.hasDebugInfo && f.sections.any fun s => s.name = ".debug_info" || s.name = ".zdebug_info"

/-- The bytes of an address. -/
def addressSize (f : ObjectFile) : Int := f.elfClass / 8

/-- The order of bytes. -/
def endianness (f : ObjectFile) : Endianness := if f.isLittleEndian then .little else .big

/-- Whether a symbol of a file names a variable that the file defines. -/
def namesVariable (s : FileSymbol) : Bool :=
  s.type = "STT_OBJECT" && s.name ≠ "" && s.place ≠ .special "SHN_UNDEF"

/-- Adds the symbols of a file that name variables. A second global symbol of a name is passed
over. -/
def addSymbols (t : SymbolTable) : List FileSymbol → Except SymbolFault SymbolTable
  | [] => .ok t
  | s :: rest =>
    if namesVariable s then
      match t.add s.name ⟨s.value, s.size, s.binding = "STB_LOCAL"⟩ with
      | .ok t => addSymbols t rest
      | .error (.duplicate _) => addSymbols t rest
      | .error fault => .error fault
    else addSymbols t rest

/-- The symbol table of a file. -/
def symbolTable (f : ObjectFile) : Except SymbolFault SymbolTable :=
  addSymbols .empty (f.sections.flatMap fun s => s.symbols.getD [])

/-- The sections that take memory of the target. -/
def loadedSections (f : ObjectFile) : List Section := f.sections.filter (·.isLoaded)

/-- The regions of a file: its loaded sections. -/
def regions (f : ObjectFile) : Except EmptyRegionFault Regions :=
  f.loadedSections.foldlM (fun r s => r.add s.address (s.address + s.size)) .empty

/-- Adds the content of a section, unless it overlaps what is there. -/
def addContent (m : Memory) (s : Section) : Memory :=
  match m.add s.address s.content with
  | .ok m => m
  | .error _ => m

/-- The initial content of the memory. -/
def memory (f : ObjectFile) : Memory := f.loadedSections.foldl addContent .empty

/-- The last part of a path. -/
def baseName (path : String) : String :=
  String.ofList ((path.toList.reverse.takeWhile (· ≠ '/')).reverse)

/-- Whether a compile unit is ignored by some patterns. One without name never is. -/
def isIgnored (patterns : List String) (u : CompileUnit) : Bool :=
  match u.die.name? with
  | none => false
  | some name => patterns.any fun p => baseName name = p || Text.matchesWildcard p name

/-- Adds the decoded entries of some compile units. -/
def addUnits (f : ObjectFile) (store : Store) : List CompileUnit → Except LoadFault Store
  | [] => .ok store
  | u :: us =>
    match u.die.toEntry ⟨f.endianness, f.addressSize.toNat, u.offset⟩ with
    | .error fault => .error (.entry fault)
    | .ok none => addUnits f store us
    | .ok (some root) =>
      match store.addRoot root with
      | (store, none) => addUnits f store us
      | (_, some fault) => .error (.store fault)

/-- What a file holds, but for the compile units that some patterns ignore. -/
def load (f : ObjectFile) (ignored : List String) : Except LoadFault LoadedFile := do
  if !f.hasDebugSection then throw .noDebugInfo
  let target ← (Target.make f.addressSize f.endianness f.addressSize).mapError .target
  let symbols ← f.symbolTable.mapError .symbol
  let regions ← f.regions.mapError .region
  let store ← f.addUnits .empty (f.units.filter fun u => !isIgnored ignored u)
  return ⟨target, symbols, regions, f.memory, store⟩

end ObjectFile

/-- The program of a loaded file, with its regions or without any. -/
def LoadedFile.program (f : LoadedFile) (withRegions : Bool) : Program :=
  Program.load f.store f.symbols f.target (if withRegions then some f.regions else none)
    (some f.memory.reader) Config.default defaultDepth

end DebugLayout
