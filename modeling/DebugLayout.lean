import DebugLayout.AddressMap
import DebugLayout.ArrayShape
import DebugLayout.Calibration.ArrayView
import DebugLayout.Calibration.AxisPolicy
import DebugLayout.Calibration.AxisSearch
import DebugLayout.Calibration.Classify
import DebugLayout.Calibration.Config
import DebugLayout.Calibration.NaturalOrder
import DebugLayout.Endianness
import DebugLayout.Entry.Basic
import DebugLayout.Entry.Store
import DebugLayout.Entry.Tag
import DebugLayout.Image.Memory
import DebugLayout.Image.Regions
import DebugLayout.Image.SymbolTable
import DebugLayout.Layout.Node
import DebugLayout.Layout.Path
import DebugLayout.Layout.Resolve
import DebugLayout.ObjectFile.Basic
import DebugLayout.ObjectFile.Convert
import DebugLayout.ObjectFile.Load
import DebugLayout.OrderedMap
import DebugLayout.Program.Basic
import DebugLayout.Program.Variable
import DebugLayout.Regex.Basic
import DebugLayout.Regex.Library
import DebugLayout.Regex.Parser
import DebugLayout.Scalar.Binary64
import DebugLayout.Scalar.DataType
import DebugLayout.Scalar.Decode
import DebugLayout.Scalar.Encoding
import DebugLayout.Target
import DebugLayout.Text.Blank
import DebugLayout.Text.Digit
import DebugLayout.Text.Hex
import DebugLayout.Text.Lowercase
import DebugLayout.Text.Numeral
import DebugLayout.Text.Printable
import DebugLayout.Text.Quoted
import DebugLayout.Text.Utf8
import DebugLayout.Text.Wildcard
import DebugLayout.TypeGraph.Basic
import DebugLayout.TypeGraph.Bitfield
import DebugLayout.TypeGraph.Build
import DebugLayout.TypeGraph.Fault
import DebugLayout.TypeGraph.Node
import DebugLayout.Value
import DebugLayout.Value.Check
import DebugLayout.Proofs.Image.SymbolTable
import DebugLayout.Proofs.Layout.Expansion
import DebugLayout.Proofs.Program.Index
import DebugLayout.Proofs.Program.Placement
import DebugLayout.Proofs.Calibration.NaturalOrder
import DebugLayout.Proofs.Calibration.AxisSearch
import DebugLayout.Proofs.Calibration.Classify
import DebugLayout.Proofs.Program.Siblings
import DebugLayout.Proofs.ArrayShape
import DebugLayout.Proofs.Layout.Unfolded
import DebugLayout.Proofs.Layout.Folding
import DebugLayout.Proofs.Layout.Tree
import DebugLayout.Proofs.Layout.Parts
import DebugLayout.Proofs.Layout.Bounds
import DebugLayout.Proofs.Layout.Order
import DebugLayout.Proofs.Layout.Path
import DebugLayout.Proofs.Text.Numeral
import DebugLayout.Proofs.Layout.Find
import DebugLayout.Proofs.TypeGraph.Needs
import DebugLayout.Proofs.TypeGraph.Exec
import DebugLayout.Proofs.TypeGraph.Run
import DebugLayout.Proofs.TypeGraph.Coherent
import DebugLayout.Proofs.TypeGraph.Descent
import DebugLayout.Proofs.TypeGraph.Missing
import DebugLayout.Proofs.TypeGraph.Build
import DebugLayout.Proofs.TypeGraph.Finished
import DebugLayout.Proofs.TypeGraph.Facts
import DebugLayout.Proofs.TypeGraph.Fresh
import DebugLayout.Proofs.TypeGraph.Agreement
import DebugLayout.Proofs.TypeGraph.SameEntries
import DebugLayout.Proofs.TypeGraph.Order
import DebugLayout.Proofs.Layout.Faults
import DebugLayout.Proofs.Calibration.Faults
import DebugLayout.Proofs.Program.Completion
import DebugLayout.Proofs.Program.Representation
import DebugLayout.Proofs.Scalar.Bits
import DebugLayout.Proofs.TypeGraph.Bitfield
import DebugLayout.Proofs.Calibration.Soundness
import DebugLayout.Proofs.TypeGraph.Course
import DebugLayout.Proofs.TypeGraph.Frame
import DebugLayout.Proofs.TypeGraph.Trail
import DebugLayout.Proofs.TypeGraph.Nesting
import DebugLayout.Proofs.TypeGraph.Reentry
import DebugLayout.Proofs.Layout.Relocation
import DebugLayout.Proofs.Calibration.Safety
import DebugLayout.Proofs.ObjectFile.Entries
import DebugLayout.Proofs.TypeGraph.Chain
import DebugLayout.Proofs.TypeGraph.Transcript
import DebugLayout.Proofs.TypeGraph.Preserves
import DebugLayout.Proofs.TypeGraph.Contents
import DebugLayout.Proofs.TypeGraph.Callable
import DebugLayout.Proofs.Image.Covering
import DebugLayout.Proofs.Calibration.TableStruct
import DebugLayout.Proofs.Layout.BitfieldUnits
import DebugLayout.Proofs.Layout.Pointers
import DebugLayout.Proofs.Image.Additions
import DebugLayout.Proofs.Image.Memory
import DebugLayout.Proofs.Image.Indexes
import DebugLayout.Proofs.Image.Regions
import DebugLayout.Proofs.ObjectFile.Image
import DebugLayout.Proofs.RowMajor
import DebugLayout.Proofs.Layout.Depth
import DebugLayout.Proofs.Program.Addressable
import DebugLayout.Proofs.Scalar.Decode
import DebugLayout.Proofs.TypeGraph.Arena
import DebugLayout.Proofs.TypeGraph.Definitions
import DebugLayout.Proofs.Calibration.Numbers
import DebugLayout.Proofs.Calibration.Positional
import DebugLayout.Proofs.Calibration.Relevance
import DebugLayout.Proofs.Calibration.Reordering
import DebugLayout.Proofs.Program.Naming
import DebugLayout.Proofs.TypeGraph.StorageUnits
import DebugLayout.Proofs.Layout.FieldStorage
import DebugLayout.Proofs.ObjectFile.Location
import DebugLayout.Proofs.ObjectFile.MemberLocation
import DebugLayout.Proofs.Entry.Store
import DebugLayout.Proofs.Layout.PathGrammar
import DebugLayout.Proofs.Layout.Shape
import DebugLayout.Proofs.Value.Check
import DebugLayout.Proofs.Calibration.Config
import DebugLayout.Proofs.Settings
