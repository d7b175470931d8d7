import DebugLayout.AddressMap
import DebugLayout.Text.Hex

/-!
# DebugLayout — addressable regions

The **regions** are the ranges of memory in which a symbol may legitimately live. They may overlap.
Of two regions with the same start the longer one is kept. What lies in a region must lie in one of
them as a whole.

* `Regions.add`: the regions with one more, or why it is refused;
* `Regions.contain`: whether a stretch of memory lies in a region.
-/

namespace DebugLayout

/-- Ranges of memory, each by its start with its end, which is not part of it. -/
structure Regions where
  ends : AddressMap Int
  deriving DecidableEq, Repr

/-- A region that holds no address. -/
structure EmptyRegionFault where
  first : Int
  stop : Int
  deriving DecidableEq, Repr

/-- The wording of an empty region. -/
def EmptyRegionFault.message (fault : EmptyRegionFault) : String :=
  "Empty region " ++ Text.hexAddress fault.first ++ "-" ++ Text.hexAddress fault.stop

namespace Regions

/-- No regions. -/
def empty : Regions := ⟨.empty⟩

/-- The regions with one more. -/
def add (r : Regions) (first stop : Int) : Except EmptyRegionFault Regions :=
  if stop ≤ first then .error ⟨first, stop⟩
  else match r.ends.get? first with
    | some old => .ok ⟨r.ends.insert first (max stop old)⟩
    | none => .ok ⟨r.ends.insert first stop⟩

/-- Whether one region holds a stretch of memory, of one byte at least. -/
def contain (r : Regions) (address size : Int) : Bool :=
  (r.ends.upTo address).any fun region =>
    region.1 ≤ address && address + max size 1 ≤ region.2

/-- The regions, by increasing start. -/
def toList (r : Regions) : List (Int × Int) := r.ends.entries

/-- The number of regions. -/
def size (r : Regions) : Nat := r.ends.size

end Regions

end DebugLayout
