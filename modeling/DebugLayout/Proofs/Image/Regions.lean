import DebugLayout.Image.Regions
import DebugLayout.Proofs.Image.Additions

/-!
# DebugLayout — which memory is addressable

Regions may overlap in every way, and of two with the same start only the longer one is kept.
Nothing is lost by that: a stretch of memory lies in the regions exactly if it lies in one of those
that were added, as the search goes back over **all** regions that start at or below the stretch.

A stretch has to lie in a single region. Two regions that touch each other do not make a longer one,
and no attempt is made to join them, neither here nor in the library.

* `Regions.HeldBy`: a stretch of memory inside a region;
* `Regions.contain_iff`: what lies in the regions of a sorted map;
* `Regions.SumUp`: regions that stand for those that were added, `SumUp.add` and `sumUp_addEach`;
* `Regions.contain_iff_added`: the regions after a run of additions.
-/

namespace DebugLayout

namespace Regions

/-- A stretch of memory, of one byte at least, lies inside a region. -/
def HeldBy (region : Int × Int) (address size : Int) : Prop :=
  region.1 ≤ address ∧ address + max size 1 ≤ region.2

/-- A stretch of memory lies in the regions if it lies inside one of them. -/
theorem contain_iff {r : Regions} (h : r.ends.Sorted) {address size : Int} :
    r.contain address size = true ↔ ∃ region ∈ r.toList, HeldBy region address size := by
  simp only [contain, List.any_eq_true, Bool.and_eq_true, decide_eq_true_eq, h.mem_upTo_iff]
  constructor
  · rintro ⟨region, ⟨hmem, -⟩, hheld⟩
    exact ⟨region, hmem, hheld⟩
  · rintro ⟨region, hmem, hheld⟩
    exact ⟨region, ⟨hmem, hheld.1⟩, hheld⟩

/-- A region that holds an address is accepted. -/
theorem exists_add_eq_ok (r : Regions) {first stop : Int} (h : first < stop) :
    ∃ r', r.add first stop = .ok r' := by
  rw [add, if_neg (by omega)]
  split
  · exact ⟨_, rfl⟩
  · exact ⟨_, rfl⟩

/-- An accepted region is kept with the longer one of two ends: its own, and that of the region that
had its start, if there was one. -/
theorem ends_of_add {r r' : Regions} (h : r.ends.Sorted) {first stop : Int}
    (hadd : r.add first stop = .ok r') :
    ∃ last, r'.ends = r.ends.insert first last ∧ stop ≤ last ∧
      (last = stop ∨ (first, last) ∈ r.toList) ∧ ∀ old, (first, old) ∈ r.toList → old ≤ last := by
  unfold add at hadd
  split at hadd
  · exact absurd hadd (by simp)
  split at hadd
  · rename_i old hget
    obtain rfl := Except.ok.inj hadd
    -- of two regions with one start the longer one stays
    refine ⟨max stop old, rfl, Int.le_max_left .., ?_, fun other hother => ?_⟩
    · rcases Int.le_total old stop with hle | hle
      · exact .inl (Int.max_eq_left hle)
      · rw [Int.max_eq_right hle]
        exact .inr (AddressMap.mem_of_get? hget)
    · rw [toList, h.mem_entries_iff, hget, Option.some.injEq] at hother
      exact hother ▸ Int.le_max_right ..
  · rename_i hget
    obtain rfl := Except.ok.inj hadd
    refine ⟨stop, rfl, Int.le_refl stop, .inl rfl, fun old hold => ?_⟩
    rw [toList, h.mem_entries_iff, hget] at hold
    exact absurd hold (by simp)

-- ---------------------------------------------------------------------------
-- Runs of additions
-- ---------------------------------------------------------------------------

/-- Whether the regions sum up some that were added: they are some of these, one for each start, and
each of these has one with its start that is no shorter. -/
structure SumUp (r : Regions) (added : List (Int × Int)) : Prop where
  sorted : r.ends.Sorted
  subset : ∀ region ∈ r.toList, region ∈ added
  longest : ∀ region ∈ added, ∃ stop, (region.1, stop) ∈ r.toList ∧ region.2 ≤ stop

theorem sumUp_empty : empty.SumUp [] where
  sorted := AddressMap.sorted_empty
  subset := fun _ h => h
  longest := fun _ h => absurd h List.not_mem_nil

theorem SumUp.add {r r' : Regions} {added : List (Int × Int)} (h : r.SumUp added)
    {first stop : Int} (hadd : r.add first stop = .ok r') :
    r'.SumUp (added ++ [(first, stop)]) := by
  obtain ⟨last, hends, hlast, hfrom, hold⟩ := ends_of_add h.sorted hadd
  have hmem : ∀ region, region ∈ r'.toList ↔
      region = (first, last) ∨ region ∈ r.toList ∧ region.1 ≠ first := by
    intro region
    rw [toList, hends]
    exact h.sorted.mem_insert_iff
  refine ⟨hends ▸ AddressMap.sorted_insert h.sorted first last, ?_, ?_⟩
  · intro region hregion
    rw [List.mem_append, List.mem_singleton]
    rcases (hmem region).1 hregion with rfl | ⟨hregion, -⟩
    · exact hfrom.symm.imp (h.subset _) fun hown => by rw [hown]
    · exact .inl (h.subset region hregion)
  · intro region hregion
    rcases List.mem_append.1 hregion with hregion | hregion
    · -- a region that was replaced has given way to one as long
      obtain ⟨stop', hstop', hle⟩ := h.longest region hregion
      by_cases hstart : region.1 = first
      · rw [hstart] at hstop' ⊢
        exact ⟨last, (hmem _).2 (.inl rfl), Int.le_trans hle (hold stop' hstop')⟩
      · exact ⟨stop', (hmem _).2 (.inr ⟨hstop', hstart⟩), hle⟩
    · obtain rfl := List.mem_singleton.1 hregion
      exact ⟨last, (hmem _).2 (.inl rfl), hlast⟩

/-- A start has one region, the longest one that was added with it. -/
theorem SumUp.mem_toList_iff {r : Regions} {added : List (Int × Int)} (h : r.SumUp added)
    {region : Int × Int} :
    region ∈ r.toList ↔
      region ∈ added ∧ ∀ other ∈ added, other.1 = region.1 → other.2 ≤ region.2 := by
  constructor
  · intro hregion
    refine ⟨h.subset region hregion, fun other hother hstart => ?_⟩
    obtain ⟨stop, hstop, hle⟩ := h.longest other hother
    rw [hstart, toList, h.sorted.mem_entries_iff, h.sorted.mem_entries_iff.1 hregion,
      Option.some.injEq] at hstop
    exact hstop ▸ hle
  · rintro ⟨hregion, hall⟩
    obtain ⟨stop, hstop, hle⟩ := h.longest region hregion
    have hsame : stop = region.2 := Int.le_antisymm (hall _ (h.subset _ hstop) rfl) hle
    rw [hsame] at hstop
    exact hstop

/-- What lies inside a region that was added lies in the regions, and nothing else does. -/
theorem SumUp.contain_iff {r : Regions} {added : List (Int × Int)} (h : r.SumUp added)
    {address size : Int} :
    r.contain address size = true ↔ ∃ region ∈ added, HeldBy region address size := by
  rw [Regions.contain_iff h.sorted]
  constructor
  · rintro ⟨region, hregion, hheld⟩
    exact ⟨region, h.subset region hregion, hheld⟩
  · rintro ⟨region, hregion, hstart, hend⟩
    obtain ⟨stop, hstop, hle⟩ := h.longest region hregion
    exact ⟨_, hstop, hstart, Int.le_trans hend hle⟩

/-- The regions with one more, given as a pair. -/
def addRegion (r : Regions) (region : Int × Int) : Except EmptyRegionFault Regions :=
  r.add region.1 region.2

/-- Whatever the additions, the regions sum up those that were accepted. -/
theorem sumUp_addEach (regions : List (Int × Int)) :
    (addEach addRegion empty regions).SumUp (accepted addRegion empty regions) :=
  addEach_induction addRegion SumUp sumUp_empty (fun _ _ _ _ h hadd => h.add hadd) regions

/-- The accepted regions are those that hold an address, whatever was added before them. -/
theorem accepted_addRegion (r : Regions) (regions : List (Int × Int)) :
    accepted addRegion r regions = regions.filter fun region => region.1 < region.2 := by
  induction regions generalizing r with
  | nil => rfl
  | cons region rest ih =>
    by_cases hsome : region.1 < region.2
    · obtain ⟨r', hadd⟩ := r.exists_add_eq_ok hsome
      have hadd : addRegion r region = .ok r' := hadd
      rw [(addEach_cons_of_ok hadd rest).2, ih, List.filter_cons_of_pos (by simpa using hsome)]
    · have hadd : addRegion r region = .error ⟨region.1, region.2⟩ := if_pos (by omega)
      rw [(addEach_cons_of_error hadd rest).2, ih, List.filter_cons_of_neg (by simpa using hsome)]

/-- After any additions, of which those of regions that hold no address are refused, a stretch of
memory lies in the regions exactly if it lies inside one that was accepted. The regions are listed
by increasing start, and each start has the longest region that was accepted with it. -/
theorem contain_iff_added (additions : List (Int × Int)) :
    (accepted addRegion empty additions =
        additions.filter fun region => region.1 < region.2) ∧
      (∀ address size, (addEach addRegion empty additions).contain address size = true ↔
        ∃ region ∈ accepted addRegion empty additions,
          region.1 ≤ address ∧ address + max size 1 ≤ region.2) ∧
      (addEach addRegion empty additions).toList.Pairwise (fun region next => region.1 < next.1) ∧
      ∀ region, region ∈ (addEach addRegion empty additions).toList ↔
        region ∈ accepted addRegion empty additions ∧
          ∀ other ∈ accepted addRegion empty additions,
            other.1 = region.1 → other.2 ≤ region.2 := by
  have h := sumUp_addEach additions
  exact ⟨accepted_addRegion empty additions, fun _ _ => h.contain_iff, h.sorted,
    fun _ => h.mem_toList_iff⟩

/-- A region inside another one, two with one start, one of a single address, and one of none. -/
example :
    (addEach addRegion empty
      [(0x1000, 0x2000), (0x1100, 0x1200), (0x1100, 0x1180), (5, 6), (9, 9)]).toList =
      [(5, 6), (0x1000, 0x2000), (0x1100, 0x1200)] := by
  decide

end Regions

end DebugLayout
