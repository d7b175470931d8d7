import DebugLayout.Proofs.Image.Memory
import DebugLayout.Proofs.Image.Regions
import DebugLayout.Proofs.ObjectFile.Entries

/-!
# DebugLayout — the image of a file in memory

The sections that a file loads fill two things: the content of the memory, which keeps the first of
two sections that meet, and the regions, which keep them all. What can be read therefore always lies
in the regions. If no two of the sections meet, the converse holds as well, and what is read is what
the section has there.

Both the memory and the regions are runs of additions of the same sections, so that what is known of
such runs applies to each. They differ in what is refused: the memory turns down a section that
meets an earlier one, whereas regions may overlap.

* `Section.Sized`: sections whose content is as long as their header says;
* `Section.Encloses`, `Meet`, `bytesAt`: sections and stretches of memory;
* `ObjectFile.memory_eq_addEach`: the content of the memory as a run of additions;
* `ObjectFile.contain_iff_encloses`: what lies in the regions;
* `ObjectFile.read_eq_some_iff_bytesAt`: what can be read of sections that do not meet;
* `ObjectFile.readable_iff_addressable`: how the two agree.
-/

namespace DebugLayout

namespace Section

/-- The section has as many bytes as its header says, or none in the file. -/
def Sized (s : Section) : Prop :=
  if s.type = "SHT_NOBITS" then 0 ≤ s.size else (s.data.length : Int) = s.size

/-- The section takes the byte at an address. -/
def Holds (s : Section) (a : Int) : Prop := s.address ≤ a ∧ a < s.address + s.size

/-- Two sections take the byte at the same address. -/
def Meet (s s' : Section) : Prop := ∃ a, s.Holds a ∧ s'.Holds a

/-- A stretch of memory lies inside the section. -/
def Encloses (s : Section) (address size : Int) : Prop :=
  s.address ≤ address ∧ address + size ≤ s.address + s.size

/-- The bytes of the section from an address on, zeros if the file holds none. -/
def bytesAt (s : Section) (address size : Int) : List UInt8 :=
  if s.type = "SHT_NOBITS" then List.replicate size.toNat 0
  else (s.data.drop (address - s.address).toNat).take size.toNat

instance decidableSized (s : Section) : Decidable s.Sized := by
  unfold Sized
  infer_instance

instance decidableEncloses (s : Section) (address size : Int) :
    Decidable (s.Encloses address size) := by
  unfold Encloses
  infer_instance

/-- The section as a segment of memory. -/
def segment (s : Section) : Int × List UInt8 := (s.address, s.content)

/-- The section as a region. -/
def region (s : Section) : Int × Int := (s.address, s.address + s.size)

variable {s s' : Section}

/-- A sized section has as many bytes as it says. -/
theorem Sized.length_content (h : s.Sized) : (s.content.length : Int) = s.size := by
  unfold Sized at h
  unfold content
  split at h <;> rename_i htype
  · rw [if_pos htype, List.length_replicate, Int.toNat_of_nonneg h]
  · rw [if_neg htype]
    exact h

/-- A segment ends where its section does. -/
theorem Sized.stopOf_segment (h : s.Sized) : Memory.stopOf s.segment = s.address + s.size := by
  rw [Memory.stopOf, segment, h.length_content]

/-- An address range lies in the segment of a sized section if it does in the section. -/
theorem Sized.encloses_iff (h : s.Sized) {address size : Int} :
    Memory.Encloses s.segment address size ↔ s.Encloses address size := by
  rw [Memory.Encloses, h.stopOf_segment]
  rfl

theorem Sized.meet_iff (h : s.Sized) (h' : s'.Sized) :
    Memory.Meet s.segment s'.segment ↔ s.Meet s' := by
  simp only [Memory.Meet, Memory.Holds, h.stopOf_segment, h'.stopOf_segment]
  rfl

/-- The bytes of a stretch inside the section are those of its segment. -/
theorem bytesAt_segment {address size : Int} (hinside : s.Encloses address size) :
    Memory.bytesAt s.segment address size = s.bytesAt address size := by
  unfold Memory.bytesAt segment bytesAt content
  split
  · obtain ⟨hlo, hhi⟩ := hinside
    have hlength : size.toNat ≤ s.size.toNat - (address - s.address).toNat := by omega
    rw [List.drop_replicate, List.take_replicate, Nat.min_eq_left hlength]
  · rfl

/-- A loaded section takes some memory. -/
theorem Sized.size_pos (h : s.Sized) (hloaded : s.isLoaded = true) : 0 < s.size := by
  have hne : s.size ≠ 0 := by
    simp only [isLoaded, Bool.and_eq_true, decide_eq_true_eq] at hloaded
    exact hloaded.1.2
  have hlength := h.length_content
  omega

end Section

namespace ObjectFile

variable {f : ObjectFile}

/-- The memory of a file is made of its loaded sections, one after the other. -/
theorem memory_eq_addEach (f : ObjectFile) :
    f.memory = addEach Memory.addSegment .empty (f.loadedSections.map Section.segment) := by
  have hstep : addContent = fun m s => addOne Memory.addSegment m (Section.segment s) := by
    funext m s
    unfold addContent addOne Memory.addSegment Section.segment
    cases m.add s.address s.content <;> rfl
  rw [memory, addEach, List.foldl_map, hstep]

/-- The regions of a file hold exactly what lies inside one of its loaded sections. -/
theorem contain_iff_encloses (hsized : ∀ s ∈ f.loadedSections, s.Sized) :
    ∃ regions, f.regions = .ok regions ∧ ∀ address size, 1 ≤ size →
      (regions.contain address size = true ↔
        ∃ s ∈ f.loadedSections, s.Encloses address size) := by
  have hok : ∀ r : Regions, ∀ region ∈ f.loadedSections.map Section.region,
      ∃ r', Regions.addRegion r region = .ok r' := by
    intro r region hregion
    obtain ⟨s, hs, rfl⟩ := List.mem_map.1 hregion
    have hpos := (hsized s hs).size_pos (List.mem_filter.1 hs).2
    exact r.exists_add_eq_ok (Int.lt_add_of_pos_right s.address hpos)
  obtain ⟨hfold, haccepted⟩ := foldlM_eq_addEach hok .empty
  rw [List.foldlM_map] at hfold
  refine ⟨_, hfold, fun address size hsize => ?_⟩
  rw [(Regions.sumUp_addEach _).contain_iff, haccepted]
  simp only [List.mem_map, exists_exists_and_eq_and, Regions.HeldBy, Section.region,
    Section.Encloses, Int.max_eq_left hsize]

/-- Sections that do not meet are all accepted. -/
theorem accepted_segments (hsized : ∀ s ∈ f.loadedSections, s.Sized)
    (hapart : f.loadedSections.Pairwise fun s s' => ¬s.Meet s') :
    accepted Memory.addSegment .empty (f.loadedSections.map Section.segment) =
      f.loadedSections.map Section.segment := by
  refine Memory.sound_empty.accepted_eq (List.pairwise_map.2 ?_)
    (fun _ hs => absurd hs List.not_mem_nil)
  refine hapart.imp_of_mem ?_
  intro s s' hs hs' hnot
  exact mt ((hsized s hs).meet_iff (hsized s' hs')).1 hnot

/-- What can be read of sections that do not meet is what the section around it has there. -/
theorem read_eq_some_iff_bytesAt (hsized : ∀ s ∈ f.loadedSections, s.Sized)
    (hapart : f.loadedSections.Pairwise fun s s' => ¬s.Meet s') {address size : Int}
    (hsize : 1 ≤ size) {bytes : List UInt8} :
    f.memory.read address size = some bytes ↔
      ∃ s ∈ f.loadedSections, s.Encloses address size ∧ s.bytesAt address size = bytes := by
  rw [memory_eq_addEach, Memory.read_addEach_eq_some_iff hsize, accepted_segments hsized hapart]
  simp only [List.mem_map, exists_exists_and_eq_and]
  refine exists_congr fun s => and_congr_right fun hs => ?_
  rw [(hsized s hs).encloses_iff]
  refine and_congr_right fun hinside => ?_
  rw [Section.bytesAt_segment hinside]

/-- What can be read of a file lies in its regions. If no two loaded sections meet, what lies in the
regions can be read as well, and is what the section around it has there. This holds of the file
however it is loaded. -/
theorem readable_iff_addressable (f : ObjectFile) (hsized : ∀ s ∈ f.loadedSections, s.Sized) :
    ∃ regions, f.regions = .ok regions ∧
      (∀ ignored loaded, f.load ignored = .ok loaded →
        loaded.regions = regions ∧ loaded.memory = f.memory) ∧
      (∀ address size bytes, 1 ≤ size →
        f.memory.read address size = some bytes → regions.contain address size = true) ∧
      ((f.loadedSections.Pairwise fun s s' => ¬s.Meet s') → ∀ address size, 1 ≤ size →
        ((∃ bytes, f.memory.read address size = some bytes) ↔
          regions.contain address size = true) ∧
        ∀ bytes, f.memory.read address size = some bytes ↔
          ∃ s ∈ f.loadedSections, s.Encloses address size ∧ s.bytesAt address size = bytes) := by
  obtain ⟨regions, hregions, hcontain⟩ := contain_iff_encloses hsized
  refine ⟨regions, hregions, ?_, ?_, ?_⟩
  · intro ignored loaded hload
    obtain ⟨-, target, symbols, regions', store, -, -, hregions', -, rfl⟩ := load_eq_ok.1 hload
    exact ⟨eq_of_ok hregions' hregions, rfl⟩
  · intro address size bytes hsize hread
    rw [memory_eq_addEach, Memory.read_addEach_eq_some_iff hsize] at hread
    obtain ⟨segment, hmem, hencloses, -⟩ := hread
    -- what was accepted into the memory is a loaded section
    obtain ⟨s, hs, rfl⟩ := List.mem_map.1 ((accepted_sublist _ _).subset hmem)
    exact (hcontain address size hsize).2 ⟨s, hs, (hsized s hs).encloses_iff.1 hencloses⟩
  · intro hapart address size hsize
    have hread : ∀ bytes, f.memory.read address size = some bytes ↔
        ∃ s ∈ f.loadedSections, s.Encloses address size ∧ s.bytesAt address size = bytes :=
      fun _ => read_eq_some_iff_bytesAt hsized hapart hsize
    refine ⟨?_, hread⟩
    rw [hcontain address size hsize]
    constructor
    · rintro ⟨bytes, hbytes⟩
      obtain ⟨s, hs, hinside, -⟩ := (hread bytes).1 hbytes
      exact ⟨s, hs, hinside⟩
    · rintro ⟨s, hs, hinside⟩
      exact ⟨_, (hread _).2 ⟨s, hs, hinside, rfl⟩⟩

/-- A file with code, storage of threads, variables right behind the code that start as zeros, and
debug information, which is not loaded. -/
def startup : ObjectFile where
  hasDebugInfo := true
  isLittleEndian := true
  elfClass := 32
  sections :=
    [⟨".text", 0x6, 4, 0x1000, "SHT_PROGBITS", [1, 2, 3, 4], none⟩,
      ⟨".tbss", 0x403, 8, 0x1000, "SHT_NOBITS", [], none⟩,
      ⟨".bss", 0x3, 4, 0x1004, "SHT_NOBITS", [], none⟩,
      ⟨".debug_info", 0, 2, 0, "SHT_PROGBITS", [0, 0], none⟩]
  units := []

/-- The code and the zeros behind it can be read and lie in the regions, each by itself, but not
across the border between them. -/
theorem readable_iff_addressable_startup :
    (∀ s ∈ startup.loadedSections, s.Sized) ∧
    (startup.loadedSections.Pairwise fun s s' => ¬s.Meet s') ∧
    ∃ regions, startup.regions = .ok regions ∧
      startup.memory.read 0x1002 2 = some [3, 4] ∧ regions.contain 0x1002 2 = true ∧
      startup.memory.read 0x1004 3 = some [0, 0, 0] ∧ regions.contain 0x1004 3 = true ∧
      ¬regions.contain 0x1002 4 = true := by
  have hloaded : startup.loadedSections =
      [⟨".text", 0x6, 4, 0x1000, "SHT_PROGBITS", [1, 2, 3, 4], none⟩,
        ⟨".bss", 0x3, 4, 0x1004, "SHT_NOBITS", [], none⟩] := by decide
  have hsized : ∀ s ∈ startup.loadedSections, s.Sized := by decide
  have hapart : startup.loadedSections.Pairwise fun s s' => ¬s.Meet s' := by
    rw [hloaded, List.pairwise_pair]
    rintro ⟨a, ⟨-, hcode⟩, hzeros, -⟩
    have hcode : a < 0x1000 + 4 := hcode
    have hzeros : 0x1004 ≤ a := hzeros
    omega
  obtain ⟨regions, hregions, -, haddressable, hboth⟩ := readable_iff_addressable startup hsized
  have hread := hboth hapart
  have hcode : startup.memory.read 0x1002 2 = some [3, 4] :=
    ((hread 0x1002 2 (by decide)).2 [3, 4]).2 ⟨_, by rw [hloaded]; exact List.mem_cons_self,
      by decide, by decide⟩
  have hzeros : startup.memory.read 0x1004 3 = some [0, 0, 0] :=
    ((hread 0x1004 3 (by decide)).2 [0, 0, 0]).2
      ⟨_, by rw [hloaded]; exact List.mem_cons_of_mem _ List.mem_cons_self, by decide, by decide⟩
  refine ⟨hsized, hapart, regions, hregions, hcode,
    haddressable 0x1002 2 _ (by decide) hcode, hzeros, haddressable 0x1004 3 _ (by decide) hzeros,
    fun hacross => ?_⟩
  obtain ⟨bytes, hbytes⟩ := (hread 0x1002 4 (by decide)).1.2 hacross
  obtain ⟨s, hs, hencloses, -⟩ := ((hread 0x1002 4 (by decide)).2 bytes).1 hbytes
  -- no section holds the last bytes of the code and the first zeros at once
  have hnone : ∀ s ∈ startup.loadedSections, ¬s.Encloses 0x1002 4 := by decide
  exact hnone s hs hencloses

end ObjectFile

end DebugLayout
