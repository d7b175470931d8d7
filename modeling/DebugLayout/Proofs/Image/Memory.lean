import DebugLayout.Image.Memory
import DebugLayout.Proofs.Image.Additions

/-!
# DebugLayout — what the memory holds

The segments of a memory never have an address in common, although an addition looks at one segment
only, the **nearest** that starts before its end: the segments before that one end before it starts.
A stretch of memory can therefore be read exactly if a segment that was accepted encloses it, and
nothing that is added later changes what is read.

An addition that meets a segment is refused as a whole, and the memory stays as it was. That looking
at the nearest segment is enough is the content of `Sound.add_cases`; everything else follows from
it by the induction over additions, without another look at the map.

* `Memory.Holds`, `Meet`, `Encloses`, `bytesAt`: segments and stretches of memory;
* `Memory.Sound`: segments with bytes that do not meet;
* `Memory.Sound.add_cases`: everything that an addition can do;
* `Memory.Sound.read_eq_some_iff`: what can be read;
* `Memory.mem_segments_addEach`, `read_addEach_eq_some_iff`: the segments after a run of additions,
  and what can be read then;
* `Memory.Sound.accepted_eq`: additions that are all accepted;
* `Memory.read_addEach`: what a run of additions lets one read.
-/

namespace DebugLayout

namespace Memory

-- ---------------------------------------------------------------------------
-- Segments
-- ---------------------------------------------------------------------------

/-- The address behind the last byte of a segment. -/
def stopOf (segment : Int × List UInt8) : Int := segment.1 + segment.2.length

/-- A segment holds the byte at an address. -/
def Holds (segment : Int × List UInt8) (a : Int) : Prop := segment.1 ≤ a ∧ a < stopOf segment

/-- Two segments hold a byte at the same address. -/
def Meet (s s' : Int × List UInt8) : Prop := ∃ a, Holds s a ∧ Holds s' a

/-- A stretch of memory lies inside a segment. -/
def Encloses (segment : Int × List UInt8) (address size : Int) : Prop :=
  segment.1 ≤ address ∧ address + size ≤ stopOf segment

/-- The bytes of a segment from an address on. -/
def bytesAt (segment : Int × List UInt8) (address size : Int) : List UInt8 :=
  (segment.2.drop (address - segment.1).toNat).take size.toNat

instance decidableEncloses (segment : Int × List UInt8) (address size : Int) :
    Decidable (Encloses segment address size) := by
  unfold Encloses
  infer_instance

theorem le_stopOf (segment : Int × List UInt8) : segment.1 ≤ stopOf segment := by
  unfold stopOf
  omega

theorem lt_stopOf_iff {segment : Int × List UInt8} :
    segment.1 < stopOf segment ↔ segment.2 ≠ [] := by
  unfold stopOf
  rw [← List.length_pos_iff]
  omega

/-- Two segments meet when each of them starts before the other one ends. -/
theorem meet_iff {s s' : Int × List UInt8} (hs : s.2 ≠ []) (hs' : s'.2 ≠ []) :
    Meet s s' ↔ s.1 < stopOf s' ∧ s'.1 < stopOf s := by
  rw [← lt_stopOf_iff] at hs hs'
  constructor
  · rintro ⟨a, ⟨hlo, hhi⟩, hlo', hhi'⟩
    omega
  · rintro ⟨hlt, hlt'⟩
    refine ⟨max s.1 s'.1, ⟨?_, ?_⟩, ?_, ?_⟩ <;> omega

theorem Meet.symm {s s' : Int × List UInt8} (h : Meet s s') : Meet s' s := by
  obtain ⟨a, ha, ha'⟩ := h
  exact ⟨a, ha', ha⟩

/-- A segment without bytes meets none. -/
theorem Meet.ne_nil {s s' : Int × List UInt8} (h : Meet s s') : s.2 ≠ [] := by
  obtain ⟨a, ⟨hlo, hhi⟩, -⟩ := h
  rw [← lt_stopOf_iff]
  omega

/-- A stretch of one byte at least lies inside a segment with bytes. -/
theorem Encloses.ne_nil {s : Int × List UInt8} {address size : Int} (h : Encloses s address size)
    (hsize : 1 ≤ size) : s.2 ≠ [] := by
  obtain ⟨hlo, hhi⟩ := h
  rw [← lt_stopOf_iff]
  omega

-- ---------------------------------------------------------------------------
-- Segments that do not meet
-- ---------------------------------------------------------------------------

/-- The segments of a memory have bytes, and no two of them meet. -/
structure Sound (m : Memory) : Prop where
  /-- The segments are in order. -/
  sorted : m.segments.Sorted
  /-- No segment is empty. -/
  filled : ∀ s ∈ m.segments.entries, s.2 ≠ []
  /-- Segments that meet are the same. -/
  apart : ∀ s ∈ m.segments.entries, ∀ s' ∈ m.segments.entries, Meet s s' → s = s'

theorem sound_empty : Sound .empty where
  sorted := AddressMap.sorted_empty
  filled _ hs := absurd hs List.not_mem_nil
  apart _ hs := absurd hs List.not_mem_nil

section

variable {m : Memory} {s s' : Int × List UInt8}

/-- No two of the listed segments meet. -/
theorem Sound.pairwise (h : m.Sound) :
    m.segments.entries.Pairwise fun s s' => ¬Meet s s' := by
  refine List.Pairwise.imp_of_mem ?_ h.sorted
  intro s s' hs hs' hlt hmeet
  rw [h.apart s hs s' hs' hmeet] at hlt
  exact Int.lt_irrefl _ hlt

/-- Segments with the same start are the same. -/
theorem Sound.eq_of_start (h : m.Sound) (hs : s ∈ m.segments.entries)
    (hs' : s' ∈ m.segments.entries) (hstart : s.1 = s'.1) : s = s' := by
  refine h.apart s hs s' hs' ((meet_iff (h.filled s hs) (h.filled s' hs')).2 ?_)
  have hlt := lt_stopOf_iff.2 (h.filled s hs)
  have hlt' := lt_stopOf_iff.2 (h.filled s' hs')
  omega

/-- A segment ends before the next one starts. -/
theorem Sound.stopOf_le (h : m.Sound) (hs : s ∈ m.segments.entries)
    (hs' : s' ∈ m.segments.entries) (hlt : s.1 < s'.1) : stopOf s ≤ s'.1 := by
  by_cases hmeet : Meet s s'
  · rw [h.apart s hs s' hs' hmeet] at hlt
    exact absurd hlt (Int.lt_irrefl _)
  · rw [meet_iff (h.filled s hs) (h.filled s' hs')] at hmeet
    have hlt' := lt_stopOf_iff.2 (h.filled s' hs')
    omega

/-- The nearest segment is the one asked for, or starts behind its end. -/
theorem Sound.floor?_cases (h : m.Sound) {a : Int} (hs : s ∈ m.segments.entries) (hle : s.1 ≤ a) :
    ∃ n, m.segments.floor? a = some n ∧ (n = s ∨ stopOf s ≤ n.1) := by
  obtain ⟨n, hn, hle'⟩ := h.sorted.le_floor? hs hle
  obtain ⟨hmem, -⟩ := AddressMap.floor?_eq_some hn
  refine ⟨n, hn, ?_⟩
  rcases Int.lt_or_eq_of_le hle' with hlt | heq
  · exact .inr (h.stopOf_le hs hmem hlt)
  · exact .inl (h.eq_of_start hmem hs heq.symm)

-- ---------------------------------------------------------------------------
-- One addition
-- ---------------------------------------------------------------------------

/-- An addition of bytes looks at the nearest segment that starts before their end. -/
theorem add_eq_of_ne_nil (m : Memory) (address : Int) {data : List UInt8} (hdata : data ≠ []) :
    m.add address data =
      match m.segments.floor? (address + data.length - 1) with
      | some (start, bytes) =>
        if address < start + bytes.length then .error ⟨address, start⟩
        else .ok ⟨m.segments.insert address data⟩
      | none => .ok ⟨m.segments.insert address data⟩ := by
  rw [add, if_neg (by simpa using hdata), AddressMap.below_eq_upTo]
  rfl

/-- Everything that an addition can do: without bytes it changes nothing, bytes that meet a segment
are refused, and other ones become a segment. -/
theorem Sound.add_cases (h : m.Sound) (address : Int) (data : List UInt8) :
    (data = [] ∧ m.add address data = .ok m) ∨
      (∃ s ∈ m.segments.entries, Meet s (address, data) ∧
        m.add address data = .error ⟨address, s.1⟩) ∨
      (data ≠ [] ∧ (∀ s ∈ m.segments.entries, ¬Meet s (address, data)) ∧
        m.add address data = .ok ⟨m.segments.insert address data⟩) := by
  by_cases hdata : data = []
  · subst hdata
    exact .inl ⟨rfl, rfl⟩
  refine .inr ?_
  have hstop : stopOf (address, data) = address + data.length := rfl
  have hfilled : address < stopOf (address, data) := lt_stopOf_iff.2 hdata
  -- a segment that meets the bytes starts before their end, hence at or below the nearest such one
  have hbelow : ∀ s ∈ m.segments.entries, Meet s (address, data) →
      s.1 ≤ address + data.length - 1 ∧ address < stopOf s := by
    intro s hs hmeet
    have := (meet_iff (h.filled s hs) hdata).1 hmeet
    exact ⟨by omega, this.2⟩
  rw [add_eq_of_ne_nil m address hdata]
  cases hn : m.segments.floor? (address + data.length - 1) with
  | none =>
    refine .inr ⟨hdata, fun s hs hmeet => ?_, rfl⟩
    obtain ⟨n, hn', -⟩ := h.sorted.le_floor? hs (hbelow s hs hmeet).1
    rw [hn] at hn'
    exact absurd hn' (by simp)
  | some n =>
    obtain ⟨hmem, hle⟩ := AddressMap.floor?_eq_some hn
    by_cases hreach : address < stopOf n
    · refine .inl ⟨n, hmem, (meet_iff (h.filled n hmem) hdata).2 ⟨by omega, hreach⟩, if_pos hreach⟩
    · -- whatever met the bytes would reach beyond the nearest segment, or be it
      refine .inr ⟨hdata, fun s hs hmeet => ?_, if_neg hreach⟩
      obtain ⟨hlo, hhi⟩ := hbelow s hs hmeet
      obtain ⟨n', hn', hcase⟩ := h.floor?_cases hs hlo
      obtain rfl : n' = n := by
        rw [hn, Option.some.injEq] at hn'
        exact hn'.symm
      have hlt := le_stopOf n'
      rcases hcase with rfl | hbefore
      · exact hreach hhi
      · omega

/-- An addition is refused exactly if the bytes meet a segment. -/
theorem Sound.add_eq_error_iff (h : m.Sound) {address : Int} {data : List UInt8} :
    (∃ fault, m.add address data = .error fault) ↔
      ∃ s ∈ m.segments.entries, Meet s (address, data) := by
  rcases h.add_cases address data with ⟨rfl, hadd⟩ | ⟨s, hs, hmeet, hadd⟩ | ⟨hdata, hapart, hadd⟩
  · rw [hadd]
    refine iff_of_false (by simp) ?_
    rintro ⟨s, -, hmeet⟩
    exact hmeet.symm.ne_nil rfl
  · rw [hadd]
    exact iff_of_true ⟨_, rfl⟩ ⟨s, hs, hmeet⟩
  · rw [hadd]
    refine iff_of_false (by simp) ?_
    rintro ⟨s, hs, hmeet⟩
    exact hapart s hs hmeet

/-- The segments after bytes that meet none of those before them. -/
theorem Sound.mem_insert_iff (h : m.Sound) {address : Int} {data : List UInt8} (hdata : data ≠ [])
    (hapart : ∀ s ∈ m.segments.entries, ¬Meet s (address, data)) :
    s ∈ (m.segments.insert address data).entries ↔
      s ∈ m.segments.entries ∨ s = (address, data) := by
  rw [h.sorted.mem_insert_iff, or_comm]
  constructor
  · exact Or.imp_left And.left
  · refine Or.imp_left fun hs => ⟨hs, fun hstart => hapart s hs ?_⟩
    refine (meet_iff (h.filled s hs) hdata).2 ⟨?_, ?_⟩
    · exact hstart ▸ lt_stopOf_iff.2 hdata
    · exact hstart ▸ lt_stopOf_iff.2 (h.filled s hs)

/-- An accepted addition adds its bytes as a segment, and keeps the segments from meeting. -/
theorem Sound.add (h : m.Sound) {m' : Memory} {address : Int} {data : List UInt8}
    (hadd : m.add address data = .ok m') :
    m'.Sound ∧ ∀ s, s ∈ m'.segments.entries ↔
      s ∈ m.segments.entries ∨ s = (address, data) ∧ data ≠ [] := by
  rcases h.add_cases address data with ⟨rfl, hok⟩ | ⟨s, -, -, herror⟩ | ⟨hdata, hapart, hok⟩
  · rw [hok, Except.ok.injEq] at hadd
    subst hadd
    exact ⟨h, fun s => by simp⟩
  · rw [herror] at hadd
    exact absurd hadd (by simp)
  · rw [hok, Except.ok.injEq] at hadd
    subst hadd
    have hmem : ∀ s, s ∈ (m.segments.insert address data).entries ↔
        s ∈ m.segments.entries ∨ s = (address, data) := fun s => h.mem_insert_iff hdata hapart
    refine ⟨⟨AddressMap.sorted_insert h.sorted _ _, ?_, ?_⟩, fun s => by simp [hmem, hdata]⟩
    · intro s hs
      rcases (hmem s).1 hs with hs | rfl
      · exact h.filled s hs
      · exact hdata
    · intro s hs s' hs' hmeet
      -- no old segment meets the new one, and the old ones meet as before
      rcases (hmem s).1 hs with hs | rfl <;> rcases (hmem s').1 hs' with hs' | rfl
      · exact h.apart s hs s' hs' hmeet
      · exact absurd hmeet (hapart s hs)
      · exact absurd hmeet.symm (hapart s' hs')
      · rfl

-- ---------------------------------------------------------------------------
-- What can be read
-- ---------------------------------------------------------------------------

/-- Bytes from a place on are cut at the other end only. -/
theorem slice_eq (data : List UInt8) {first size : Int} (hfirst : 0 ≤ first) (hsize : 0 ≤ size) :
    slice data first (first + size) = (data.drop first.toNat).take size.toNat := by
  have hstop : ¬first + size < 0 := by omega
  have hlength : first + size - first = size := by omega
  simp only [slice, if_neg hstop, hlength]

/-- What is read is what the nearest segment has there, if it encloses all of it. -/
theorem read_eq {address size : Int} (hsize : 0 ≤ size) :
    m.read address size = match m.segments.floor? address with
      | none => none
      | some n => if Encloses n address size then some (bytesAt n address size) else none := by
  unfold read
  cases hn : m.segments.floor? address with
  | none => rfl
  | some n =>
    obtain ⟨-, hle⟩ := AddressMap.floor?_eq_some hn
    have hiff : ¬(n.2.length : Int) < address - n.1 + size ↔ Encloses n address size := by
      unfold Encloses stopOf
      omega
    simp only
    rw [slice_eq n.2 (by omega) hsize, ← ite_not]
    simp only [hiff]
    rfl

/-- A stretch of memory can be read exactly if a segment encloses it, and gives its bytes. -/
theorem Sound.read_eq_some_iff (h : m.Sound) {address size : Int} (hsize : 0 ≤ size)
    {bytes : List UInt8} :
    m.read address size = some bytes ↔
      ∃ s ∈ m.segments.entries, Encloses s address size ∧ bytesAt s address size = bytes := by
  rw [read_eq hsize]
  constructor
  · intro hread
    split at hread
    · exact absurd hread (by simp)
    · rename_i n hn
      split at hread
      · rename_i hencloses
        exact ⟨n, (AddressMap.floor?_eq_some hn).1, hencloses, Option.some.inj hread⟩
      · exact absurd hread (by simp)
  · rintro ⟨s, hs, hencloses, rfl⟩
    obtain ⟨n, hn, hcase⟩ := h.floor?_cases hs hencloses.1
    obtain ⟨hmem, hle⟩ := AddressMap.floor?_eq_some hn
    rw [hn]
    rcases hcase with rfl | hbehind
    · exact if_pos hencloses
    · -- nothing is left to read where a segment ends and the next one starts
      obtain ⟨hlo, hhi⟩ := hencloses
      have hstop := le_stopOf n
      obtain rfl : size = 0 := by omega
      have hzero : Encloses n address 0 := ⟨hle, by omega⟩
      simp only [if_pos hzero]
      simp [bytesAt]

end

-- ---------------------------------------------------------------------------
-- Runs of additions
-- ---------------------------------------------------------------------------

/-- A memory with one more segment. -/
def addSegment (m : Memory) (segment : Int × List UInt8) : Except OverlapFault Memory :=
  m.add segment.1 segment.2

/-- Segments that do not meet stay so, whatever is added. -/
theorem Sound.segments_addEach {m : Memory} (h : m.Sound) (additions : List (Int × List UInt8)) :
    (addEach addSegment m additions).Sound ∧
      ∀ s, s ∈ (addEach addSegment m additions).segments.entries ↔
        s ∈ m.segments.entries ∨ s ∈ accepted addSegment m additions ∧ s.2 ≠ [] := by
  refine addEach_induction addSegment
    (fun m' done => m'.Sound ∧ ∀ s, s ∈ m'.segments.entries ↔
      s ∈ m.segments.entries ∨ s ∈ done ∧ s.2 ≠ []) ⟨h, by simp⟩ ?_ additions
  rintro m' done segment m'' ⟨hsound, hmem⟩ hadd
  obtain ⟨hsound', hmem'⟩ := hsound.add hadd
  refine ⟨hsound', fun s => ?_⟩
  rw [hmem', hmem, List.mem_append, List.mem_singleton, or_and_right, or_assoc]
  refine or_congr_right (or_congr_right ⟨?_, ?_⟩)
  · rintro ⟨rfl, hdata⟩
    exact ⟨rfl, hdata⟩
  · rintro ⟨rfl, hdata⟩
    exact ⟨rfl, hdata⟩

/-- Whatever the additions, the segments that are kept do not meet. -/
theorem sound_addEach (additions : List (Int × List UInt8)) :
    (addEach addSegment empty additions).Sound :=
  (sound_empty.segments_addEach additions).1

/-- The segments after a run of additions are those that were accepted with bytes. -/
theorem mem_segments_addEach {additions : List (Int × List UInt8)} {s : Int × List UInt8} :
    s ∈ (addEach addSegment empty additions).segments.entries ↔
      s ∈ accepted addSegment empty additions ∧ s.2 ≠ [] := by
  rw [(sound_empty.segments_addEach additions).2]
  exact or_iff_right List.not_mem_nil

/-- What can be read after a run of additions is what a segment has there that was accepted. -/
theorem read_addEach_eq_some_iff {additions : List (Int × List UInt8)} {address size : Int}
    (hsize : 1 ≤ size) {bytes : List UInt8} :
    (addEach addSegment empty additions).read address size = some bytes ↔
      ∃ s ∈ accepted addSegment empty additions,
        Encloses s address size ∧ bytesAt s address size = bytes := by
  rw [(sound_addEach additions).read_eq_some_iff (by omega)]
  constructor
  · rintro ⟨s, hs, hread⟩
    exact ⟨s, (mem_segments_addEach.1 hs).1, hread⟩
  · rintro ⟨s, hs, hencloses, hread⟩
    exact ⟨s, mem_segments_addEach.2 ⟨hs, hencloses.ne_nil hsize⟩, hencloses, hread⟩

/-- What is read stays the same, whatever is added. -/
theorem Sound.read_addEach_of_read {m : Memory} (h : m.Sound) {address size : Int}
    (hsize : 0 ≤ size) {bytes : List UInt8} (hread : m.read address size = some bytes)
    (later : List (Int × List UInt8)) :
    (addEach addSegment m later).read address size = some bytes := by
  obtain ⟨hsound, hmem⟩ := h.segments_addEach later
  obtain ⟨s, hs, hencloses⟩ := (h.read_eq_some_iff hsize).1 hread
  exact (hsound.read_eq_some_iff hsize).2 ⟨s, (hmem s).2 (.inl hs), hencloses⟩

/-- Segments that meet neither each other nor what is there are all accepted. -/
theorem Sound.accepted_eq {m : Memory} (h : m.Sound) {additions : List (Int × List UInt8)}
    (hadditions : additions.Pairwise fun s s' => ¬Meet s s')
    (hthere : ∀ s ∈ m.segments.entries, ∀ s' ∈ additions, ¬Meet s s') :
    accepted addSegment m additions = additions := by
  induction additions generalizing m with
  | nil => rfl
  | cons segment rest ih =>
    obtain ⟨hfirst, hrest⟩ := List.pairwise_cons.1 hadditions
    cases hadd : addSegment m segment with
    | error fault =>
      obtain ⟨s, hs, hmeet⟩ := h.add_eq_error_iff.1 ⟨fault, hadd⟩
      exact absurd hmeet (hthere s hs segment List.mem_cons_self)
    | ok m' =>
      obtain ⟨hsound, hmem⟩ := h.add hadd
      rw [(addEach_cons_of_ok hadd rest).2, ih hsound hrest]
      intro s hs s' hs'
      -- the first segment is there now, and does not meet those to come
      rcases (hmem s).1 hs with hold | ⟨rfl, -⟩
      · exact hthere s hold s' (List.mem_cons_of_mem _ hs')
      · exact hfirst s' hs'

/-- After any additions, refused ones aside, no segment is empty and no two meet, the next addition
is refused exactly if it meets a segment, and a stretch of one byte at least can be read exactly if
it lies inside a segment that was accepted. It then gives the bytes of that segment, and still does
so after any further additions. -/
theorem read_addEach (additions : List (Int × List UInt8)) :
    (∀ s ∈ (addEach addSegment empty additions).segments.entries, s.2 ≠ []) ∧
    ((addEach addSegment empty additions).segments.entries.Pairwise fun s s' => ¬Meet s s') ∧
    (∀ address data,
      (∃ fault, (addEach addSegment empty additions).add address data = .error fault) ↔
        ∃ s ∈ (addEach addSegment empty additions).segments.entries, Meet s (address, data)) ∧
    (∀ address size bytes, 1 ≤ size →
      ((addEach addSegment empty additions).read address size = some bytes ↔
        ∃ s ∈ accepted addSegment empty additions,
          Encloses s address size ∧ bytesAt s address size = bytes)) ∧
    (∀ later address size bytes, 0 ≤ size →
      (addEach addSegment empty additions).read address size = some bytes →
        (addEach addSegment (addEach addSegment empty additions) later).read address size =
          some bytes) := by
  have h := sound_addEach additions
  refine ⟨h.filled, h.pairwise, fun _ _ => h.add_eq_error_iff, ?_, ?_⟩
  · intro address size bytes hsize
    exact read_addEach_eq_some_iff hsize
  · intro later address size bytes hsize hread
    exact h.read_addEach_of_read hsize hread later

/-- Four bytes, two that reach into them, no byte inside them, and two bytes right behind them. -/
def adjacent : List (Int × List UInt8) :=
  [(0x1000, [1, 2, 3, 4]), (0x0FFF, [9, 9]), (0x1002, []), (0x1004, [5, 6])]

/-- Two bytes inside the first segment are read, now and after an attempt to put something else
there, and none across the border of two segments. -/
theorem read_addEach_adjacent :
    (1 : Int) ≤ 2 ∧ (addEach addSegment empty adjacent).read 0x1001 2 = some [2, 3] ∧
      (addEach addSegment (addEach addSegment empty adjacent) [(0x1001, [7])]).read 0x1001 2 =
        some [2, 3] ∧
      ∀ bytes, (addEach addSegment empty adjacent).read 0x1003 2 ≠ some bytes := by
  obtain ⟨-, -, -, hread, hlater⟩ := read_addEach adjacent
  have haccepted : accepted addSegment empty adjacent =
      [(0x1000, [1, 2, 3, 4]), (0x1002, []), (0x1004, [5, 6])] := by decide
  have hinside : (addEach addSegment empty adjacent).read 0x1001 2 = some [2, 3] :=
    (hread 0x1001 2 [2, 3] (by decide)).2
      ⟨(0x1000, [1, 2, 3, 4]), by rw [haccepted]; decide, by decide, by decide⟩
  refine ⟨by decide, hinside, hlater _ 0x1001 2 [2, 3] (by decide) hinside, fun bytes hacross => ?_⟩
  obtain ⟨s, hs, hencloses, -⟩ := (hread 0x1003 2 bytes (by decide)).1 hacross
  rw [haccepted] at hs
  have hnone : ∀ s ∈ [((0x1000 : Int), [(1 : UInt8), 2, 3, 4]), (0x1002, []), (0x1004, [5, 6])],
      ¬Encloses s 0x1003 2 := by decide
  exact hnone s hs hencloses

end Memory

end DebugLayout
