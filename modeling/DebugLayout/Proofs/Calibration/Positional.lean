import DebugLayout.Calibration.AxisSearch
import DebugLayout.Proofs.Calibration.NaturalOrder

/-!
# DebugLayout — the answer of the positional policy

The positional policy puts its candidates in their natural order, asks for their layouts one after
the other, and picks those whose length fits. When nothing goes wrong the answer is read off the
**candidates of a length**, which are a sorted list; otherwise it is the fault of the first name
without key, or else of the first candidate in order that has no layout.

The policy of the library walks through the sorted names and stops at the first fault. To reason
about other orders of the same names it has to be written without the walk, as a sort that cannot
fail, a filter, and a choice among the names that are left.

* `sortKey`, `naturalSort_eq_ok`: sorting as a function;
* `Policy.axisLength?`, `Policy.axisLengths_of_layouts`: the lengths of candidates as a function;
* `Policy.axisLengths_append`: the candidate that the search for lengths stops at;
* `Policy.candidates`, `Policy.positionalAxes_of_match`: the steps of the policy.
-/

namespace DebugLayout

-- ---------------------------------------------------------------------------
-- Sorting
-- ---------------------------------------------------------------------------

/-- The key that a name is sorted by. The value for a name without key does not matter. -/
def sortKey (name : String) : NaturalKey :=
  match naturalKey name with
  | .ok key => key
  | .error _ => []

theorem sortKey_of_naturalKey {name : String} {key : NaturalKey} (h : naturalKey name = .ok key) :
    sortKey name = key := by
  rw [sortKey, h]

/-- Whether two names may stand in this order. -/
def inNaturalOrder (m n : String) : Bool := !keyBefore (sortKey n) (sortKey m)

/-- The natural order is transitive. -/
theorem inNaturalOrder_trans (a b c : String) (hab : inNaturalOrder a b = true)
    (hbc : inNaturalOrder b c = true) : inNaturalOrder a c = true := by
  simp only [inNaturalOrder, Bool.not_eq_true'] at *
  by_contra hca
  rw [Bool.not_eq_false] at hca
  rcases keyBefore_cotrans hca (sortKey b) with hcb | hba
  · rw [hbc] at hcb
    exact absurd hcb (by simp)
  · rw [hab] at hba
    exact absurd hba (by simp)

theorem inNaturalOrder_total (a b : String) :
    (inNaturalOrder a b || inNaturalOrder b a) = true := by
  simp only [inNaturalOrder, Bool.or_eq_true, Bool.not_eq_true']
  cases hba : keyBefore (sortKey b) (sortKey a) with
  | false => exact .inl rfl
  | true => exact .inr (keyBefore_asymm hba)

/-- Names with keys are sorted by them. -/
theorem naturalSort_eq {names : List String} (h : ∀ n ∈ names, ∃ key, naturalKey n = .ok key) :
    naturalSort names = .ok (names.mergeSort inNaturalOrder) := by
  have hkeyed : names.mapM withKey = .ok (names.map fun n => (sortKey n, n)) := by
    refine mapM_eq_ok fun n hn => ?_
    obtain ⟨key, hkey⟩ := h n hn
    rw [withKey, hkey, sortKey_of_naturalKey hkey]
    rfl
  -- the keys are carried along, and taken off after the sort
  have hsort : ∀ a ∈ names.map fun n => (sortKey n, n), ∀ b ∈ names.map fun n => (sortKey n, n),
      (!keyBefore b.1 a.1) = inNaturalOrder a.2 b.2 := by
    intro a ha b hb
    obtain ⟨m, -, rfl⟩ := List.mem_map.1 ha
    obtain ⟨n, -, rfl⟩ := List.mem_map.1 hb
    rfl
  rw [naturalSort, hkeyed]
  show Except.ok (List.map Prod.snd (List.mergeSort _ fun a b => !keyBefore b.1 a.1)) = _
  rw [List.map_mergeSort hsort, List.map_map]
  exact congrArg (fun l => Except.ok (List.mergeSort l inNaturalOrder)) (List.map_id' names)

/-- Names can be sorted exactly if each has a key. -/
theorem naturalSort_eq_ok {names sorted : List String} :
    naturalSort names = .ok sorted ↔
      (∀ n ∈ names, ∃ key, naturalKey n = .ok key) ∧
        names.mergeSort inNaturalOrder = sorted := by
  constructor
  · intro h
    have hkeys : ∀ n ∈ names, ∃ key, naturalKey n = .ok key := by
      intro n hn
      cases hkey : naturalKey n with
      | ok key => exact ⟨key, rfl⟩
      | error fault =>
        obtain ⟨fault', herror⟩ := naturalSort_eq_error hn hkey
        rw [herror] at h
        exact absurd h (by simp)
    rw [naturalSort_eq hkeys] at h
    exact ⟨hkeys, Except.ok.inj h⟩
  · rintro ⟨hkeys, rfl⟩
    exact naturalSort_eq hkeys

/-- Names that are in order, or have equal keys, stay as they are. -/
theorem naturalSort_of_pairwise {names : List String}
    (hkeys : ∀ n ∈ names, ∃ key, naturalKey n = .ok key)
    (h : names.Pairwise fun m n => inNaturalOrder m n = true) : naturalSort names = .ok names :=
  naturalSort_eq_ok.2 ⟨hkeys, List.mergeSort_of_pairwise h⟩

/-- A sorted list has the names that were there before. -/
theorem perm_of_naturalSort {names sorted : List String} (h : naturalSort names = .ok sorted) :
    sorted.Perm names := by
  rw [← (naturalSort_eq_ok.1 h).2]
  exact List.mergeSort_perm names inNaturalOrder

/-- The first name has the say if it has no key. -/
theorem naturalSort_cons_eq_error {n : String} {names : List String} {fault : Text.NumeralFault}
    (h : naturalKey n = .error fault) : naturalSort (n :: names) = .error fault := by
  rw [naturalSort, List.mapM_cons, withKey, h]
  rfl

namespace Policy

variable {c : Config} {name : String} {dims : List Nat} {siblings siblings' : Siblings}

-- ---------------------------------------------------------------------------
-- Lengths
-- ---------------------------------------------------------------------------

/-- The length of a sibling that can serve as an axis. -/
def axisLength? (siblings : Siblings) (n : String) : Option Nat :=
  match siblings.layout? n with
  | .ok layout => (layout.bind asAxis).map (·.length)
  | .error _ => none

/-- The length of a sibling as an axis is read off its layout. -/
theorem axisLength?_of_layout {n : String} {layout : Option LayoutNode}
    (h : siblings.layout? n = .ok layout) :
    axisLength? siblings n = (layout.bind asAxis).map (·.length) := by
  rw [axisLength?, h]

/-- The lengths of candidates that all have a layout. -/
theorem axisLengths_of_layouts {names : List String}
    (h : ∀ n ∈ names, ∃ layout, siblings.layout? n = .ok layout) :
    axisLengths siblings names =
      .ok (names.filterMap fun n => (axisLength? siblings n).map (n, ·)) := by
  induction names with
  | nil => rfl
  | cons n names ih =>
    obtain ⟨layout, hlayout⟩ := h n List.mem_cons_self
    rw [axisLengths, hlayout, ih fun m hm => h m (List.mem_cons_of_mem n hm), List.filterMap_cons,
      axisLength?_of_layout hlayout]
    simp only
    cases layout.bind asAxis <;> rfl

/-- The search for lengths ends with the first candidate without layout. -/
theorem axisLengths_append {before after : List String} {n : String} {fault : ShapeFault}
    (hbefore : ∀ m ∈ before, ∃ layout, siblings.layout? m = .ok layout)
    (hn : siblings.layout? n = .error fault) :
    axisLengths siblings (before ++ n :: after) = .error (.sibling fault) := by
  induction before with
  | nil =>
    show axisLengths siblings (n :: after) = _
    rw [axisLengths, hn]
  | cons m before ih =>
    obtain ⟨layout, hlayout⟩ := hbefore m List.mem_cons_self
    rw [List.cons_append, axisLengths, hlayout,
      ih fun m' hm' => hbefore m' (List.mem_cons_of_mem m hm')]
    rfl

/-- Either every candidate has a layout, or there is a first one without. -/
theorem forall_layout_or (siblings : Siblings) (names : List String) :
    (∀ n ∈ names, ∃ layout, siblings.layout? n = .ok layout) ∨
      ∃ before n after fault, names = before ++ n :: after ∧
        (∀ m ∈ before, ∃ layout, siblings.layout? m = .ok layout) ∧
        siblings.layout? n = .error fault := by
  induction names with
  | nil => exact .inl (by simp)
  | cons n names ih =>
    cases hn : siblings.layout? n with
    | error fault => exact .inr ⟨[], n, names, fault, rfl, by simp, hn⟩
    | ok layout =>
      rcases ih with hall | ⟨before, m, after, fault, rfl, hbefore, hm⟩
      · exact .inl (List.forall_mem_cons.2 ⟨⟨layout, hn⟩, hall⟩)
      · exact .inr ⟨n :: before, m, after, fault, rfl,
          List.forall_mem_cons.2 ⟨⟨layout, hn⟩, hbefore⟩, hm⟩

/-- The search for lengths reads the layouts of its candidates only. -/
theorem axisLengths_congr {names : List String}
    (h : ∀ n ∈ names, siblings.layout? n = siblings'.layout? n) :
    axisLengths siblings names = axisLengths siblings' names := by
  induction names with
  | nil => rfl
  | cons n names ih =>
    rw [axisLengths, axisLengths, h n List.mem_cons_self,
      ih fun m hm => h m (List.mem_cons_of_mem n hm)]

/-- The candidates of a length. -/
theorem ofLength_filterMap (siblings : Siblings) (names : List String) (n : Nat) :
    ofLength (names.filterMap fun m => (axisLength? siblings m).map (m, ·)) n =
      names.filter fun m => axisLength? siblings m = some n := by
  unfold ofLength
  induction names with
  | nil => rfl
  | cons m names ih =>
    rw [List.filterMap_cons]
    cases hm : axisLength? siblings m with
    | none =>
      rw [List.filter_cons_of_neg (by simp [hm])]
      exact ih
    | some k =>
      simp only [Option.map_some]
      -- a name stays if it is an axis, and of this length
      by_cases hk : k = n
      · rw [List.filter_cons_of_pos (by simp [hk]), List.filter_cons_of_pos (by simp [hm, hk]),
          List.map_cons, ih]
      · rw [List.filter_cons_of_neg (by simp [hk]), List.filter_cons_of_neg (by simp [hm, hk]), ih]

-- ---------------------------------------------------------------------------
-- The policy
-- ---------------------------------------------------------------------------

/-- The siblings that the positional policy considers. -/
def candidates (c : Config) (name : String) (siblings : Siblings) : List String :=
  siblings.names.filter fun n => c.namesAxis n && n ≠ name

/-- The candidates are the siblings called like an axis, the symbol itself left aside. -/
theorem mem_candidates {n : String} :
    n ∈ candidates c name siblings ↔
      n ∈ siblings.names ∧ c.namesAxis n = true ∧ n ≠ name := by
  simp [candidates]

/-- Other symbols than curves and maps have no axes by position. -/
theorem positionalAxes_of_not_match (h : c.namesValue name = false) :
    positionalAxes c name dims siblings = .ok none := by
  rw [positionalAxes, h]
  rfl

/-- The steps of the positional policy. -/
theorem positionalAxes_of_match (h : c.namesValue name = true) :
    positionalAxes c name dims siblings = (do
      let sorted ← (naturalSort (candidates c name siblings)).mapError .numeral
      let lengths ← axisLengths siblings sorted
      return fitting lengths dims) := by
  rw [positionalAxes, h]
  rfl

end Policy

end DebugLayout
