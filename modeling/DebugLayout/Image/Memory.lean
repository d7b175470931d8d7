import DebugLayout.AddressMap
import DebugLayout.Text.Hex

/-!
# DebugLayout — memory content

The initial **content** of the target memory is a set of segments that do not overlap. A read
succeeds when it stays within one segment.

Where the content is only read, it may come from anywhere: all that is asked of a **reader** is that
it gives as many bytes as it was asked for, if it gives any at all. A set of segments is one.

* `Memory.add`: the content with one more segment, or why it is refused;
* `Memory.read`: the bytes at an address;
* `MemoryReader`, `Memory.reader`: the readers.
-/

namespace DebugLayout

/-- The content of the target memory, by the start of its segments. -/
structure Memory where
  segments : AddressMap (List UInt8)
  deriving DecidableEq, Repr

/-- A segment that overlaps one that is there already. -/
structure OverlapFault where
  address : Int
  occupied : Int
  deriving DecidableEq, Repr

/-- The wording of an overlap. -/
def OverlapFault.message (fault : OverlapFault) : String :=
  "Segment at " ++ Text.hexAddress fault.address ++ " overlaps segment at " ++
    Text.hexAddress fault.occupied

namespace Memory

/-- The memory without content. -/
def empty : Memory := ⟨.empty⟩

/-- The content with one more segment. Only the nearest segment that starts before the end of the
new one can overlap it. A segment without bytes changes nothing. -/
def add (m : Memory) (address : Int) (data : List UInt8) : Except OverlapFault Memory :=
  if data.isEmpty then .ok m
  else match (m.segments.below (address + data.length)).head? with
    | some (start, bytes) =>
      if address < start + bytes.length then .error ⟨address, start⟩
      else .ok ⟨m.segments.insert address data⟩
    | none => .ok ⟨m.segments.insert address data⟩

/-- The bytes from a place on up to an end, which counts from the end of the bytes when it is
negative. -/
def slice (data : List UInt8) (first stop : Int) : List UInt8 :=
  let stop := if stop < 0 then stop + data.length else stop
  (data.drop first.toNat).take (stop - first).toNat

/-- The bytes at an address, if one segment holds them all. -/
def read (m : Memory) (address size : Int) : Option (List UInt8) :=
  match m.segments.floor? address with
  | none => none
  | some (start, data) =>
    let offset := address - start
    if data.length < offset + size then none else some (slice data offset (offset + size))

/-- A read comes back with as many bytes as it was asked for. -/
theorem length_of_read {m : Memory} {address size : Int} {data : List UInt8} (hsize : 0 < size)
    (h : m.read address size = some data) : (data.length : Int) = size := by
  unfold read at h
  split at h
  · exact absurd h (by simp)
  · rename_i start bytes hfloor
    have hle : start ≤ address := (AddressMap.floor?_eq_some hfloor).2
    simp only at h
    split at h
    · exact absurd h (by simp)
    · -- the read ends within the segment, so that neither end of the slice is cut off
      obtain rfl := Option.some.inj h
      have hstop : ¬address - start + size < 0 := by omega
      rw [slice, if_neg hstop, List.length_take, List.length_drop]
      omega

end Memory

/-- What reads the initial content of the target memory: the bytes at an address, as many as are
asked for, where they are known. -/
structure MemoryReader where
  read : Int → Int → Option (List UInt8)
  length_of_read : ∀ {address size : Int} {data : List UInt8}, 0 < size →
    read address size = some data → (data.length : Int) = size

/-- Reading from segments. -/
def Memory.reader (m : Memory) : MemoryReader := ⟨m.read, Memory.length_of_read⟩

end DebugLayout
