import DebugLayout.Calibration.Classify
import DebugLayout.Proofs.Calibration.AxisSearch

/-!
# DebugLayout — what a classification looks at

The rules of the classification try a symbol one after the other, but they look at its siblings for
one thing only: the external axes of its value array, and of these at most once with any effect.
The result tells which axes were found, so that two views of the siblings lead to the same object
exactly if the search for axes ends alike in both.

The rules are tried in a fixed order, and whether a rule applies depends on the symbol and its
layout, up to the search. So the classification is written here as a function of what the search
comes to, and different outcomes make different objects: the axes can be read off the object.

* `Classifier.sought`: the value array whose axes are sought;
* `Classifier.classify_of_sought`, `classify_of_not_sought`: the object in terms of the search;
* `Classifier.classify_eq_iff`: when two views of the siblings lead to the same object.
-/

namespace DebugLayout

/-- The value arrays of a layout are its bare array under conditions on it. -/
theorem asValue_eq_some {dimensions : Nat} {layout : LayoutNode} {value : ArrayView} :
    asValue dimensions layout = some value ↔
      layout.bareArray? = some value ∧ value.dims.length = dimensions ∧
        value.shape.isEmpty = false ∧ value.isNumeric = true := by
  simp [asValue, Option.filter_eq_some_iff, and_assoc]

namespace Classifier

variable {c : Classifier} {name : String} {layout : LayoutNode} {value : ArrayView}

/-- The value array whose external axes are sought. There is none in a struct with an axis of its
own, and arrays of three dimensions have no axes. -/
def sought (c : Classifier) (layout : LayoutNode) : Option ArrayView :=
  if c.hasEmbeddedAxis layout then none
  else (anyValue layout).filter fun value => value.dims.length ≤ 2

/-- Axes are sought for values of at most two dimensions in a layout without axes of its own. -/
theorem sought_eq_some (h : c.sought layout = some value) :
    c.hasEmbeddedAxis layout = false ∧ anyValue layout = some value ∧ value.dims.length ≤ 2 := by
  unfold sought at h
  split at h
  · exact absurd h (by simp)
  · rename_i hembedded
    rw [Option.filter_eq_some_iff, decide_eq_true_eq] at h
    exact ⟨by simpa using hembedded, h.1, h.2⟩

/-- A value array is one of its own dimension, and of no other. -/
theorem asValue_of_asValue {dimensions : Nat} (h : asValue dimensions layout = some value)
    (other : Nat) :
    asValue other layout = if other = value.dims.length then some value else none := by
  obtain ⟨hbare, -, hrest⟩ := asValue_eq_some.1 h
  split
  · rename_i hdims
    exact asValue_eq_some.2 ⟨hbare, hdims.symm, hrest⟩
  · rename_i hdims
    rw [Option.eq_none_iff_forall_ne_some]
    intro value' hvalue'
    obtain ⟨hbare', hlength, -⟩ := asValue_eq_some.1 hvalue'
    rw [hbare, Option.some.injEq] at hbare'
    exact hdims (hbare' ▸ hlength.symm)

/-- A layout has values if it has values of one, two or three dimensions. -/
theorem anyValue_eq_some :
    anyValue layout = some value ↔
      ∃ dimensions, 1 ≤ dimensions ∧ dimensions ≤ 3 ∧ asValue dimensions layout = some value := by
  unfold anyValue
  constructor
  · intro h
    rcases Option.or_eq_some_iff.1 h with h | ⟨-, h⟩
    · exact ⟨1, by omega, by omega, h⟩
    · rcases Option.or_eq_some_iff.1 h with h | ⟨-, h⟩
      · exact ⟨2, by omega, by omega, h⟩
      · exact ⟨3, by omega, by omega, h⟩
  · rintro ⟨dimensions, hpos, hle, h⟩
    -- the number of dimensions is that of the value, so that one attempt succeeds
    have hdims := (asValue_eq_some.1 h).2.1
    rw [asValue_of_asValue h, asValue_of_asValue h, asValue_of_asValue h]
    have : dimensions = 1 ∨ dimensions = 2 ∨ dimensions = 3 := by omega
    rcases this with rfl | rfl | rfl <;> simp [hdims]

/-- Values have as many dimensions as they have, and can be taken with no other number. -/
theorem asValue_of_anyValue (h : anyValue layout = some value) (dimensions : Nat) :
    asValue dimensions layout = if dimensions = value.dims.length then some value else none := by
  obtain ⟨_, -, -, h⟩ := anyValue_eq_some.1 h
  exact asValue_of_asValue h dimensions

theorem dims_pos_of_anyValue (h : anyValue layout = some value) : 1 ≤ value.dims.length := by
  obtain ⟨_, hpos, -, h⟩ := anyValue_eq_some.1 h
  rw [(asValue_eq_some.1 h).2.1]
  exact hpos

-- ---------------------------------------------------------------------------
-- Rules that look at no siblings
-- ---------------------------------------------------------------------------

/-- Values in an array are no single value. -/
theorem valueRule_eq_none (h : anyValue layout = some value) : valueRule name layout = none := by
  have hbare := (asValue_eq_some.1 ((asValue_of_anyValue h _).trans (if_pos rfl))).1
  cases layout with
  | scalar leaf => exact absurd hbare (by simp [LayoutNode.bareArray?, LayoutNode.array?])
  | _ => rfl

theorem firstMember_eq_none {members : List LayoutNode} {names : List String} :
    firstMember members names = none ↔ ∀ n ∈ names, members.find? (·.name = n) = none := by
  induction names with
  | nil => simp [firstMember]
  | cons n names ih =>
    rw [firstMember, List.forall_mem_cons, ← ih]
    cases members.find? (·.name = n) with
    | none => simp
    | some m => simp

/-- A layout without axis of its own has no member called like an x axis. -/
theorem firstMember_xAxis {header : NodeHeader} {isUnion : Bool} {alternatives : Nat}
    {members : List LayoutNode}
    (h : c.hasEmbeddedAxis (.composite header isUnion alternatives members) = false) :
    firstMember members c.config.xAxisMembers = none := by
  rw [hasEmbeddedAxis, Option.isSome_eq_false_iff, Option.isNone_iff_eq_none,
    firstMember_eq_none] at h
  exact firstMember_eq_none.2 fun n hn => h n (List.mem_append_left _ hn)

theorem internalCurveRule_eq_none (h : c.hasEmbeddedAxis layout = false) :
    c.internalCurveRule name layout = .ok none := by
  unfold internalCurveRule
  split
  · rw [firstMember_xAxis h]
    rfl
  · rfl

theorem internalMapRule_eq_none (h : c.hasEmbeddedAxis layout = false) :
    c.internalMapRule name layout = .ok none := by
  unfold internalMapRule
  split
  · rw [firstMember_xAxis h]
    rfl
  · rfl

-- ---------------------------------------------------------------------------
-- The outcome of the search
-- ---------------------------------------------------------------------------

/-- The object that a symbol with a value array is, by the axes that were found for it. -/
def objectOf (name : String) (layout : LayoutNode) (value : ArrayView) :
    Option (List (String × ArrayView)) → Option CalibrationObject
  | none => if value.isBytes then blobRule name layout else some (.valueBlock name layout value)
  | some [(axisName, axis)] => some (.curve name layout value ⟨axis, .symbol axisName⟩)
  | some [(xName, x), (yName, y)] =>
    some (.map name layout value ⟨x, .symbol xName⟩ ⟨y, .symbol yName⟩)
  | some _ => none

/-- The search finds an axis for each dimension. -/
theorem externalAxes_length {siblings : Siblings} {dims : List Nat}
    {axes : List (String × ArrayView)}
    (h : c.externalAxes name siblings dims = .ok (some axes)) : axes.length = dims.length := by
  unfold externalAxes at h
  -- by induction over the policies, whichever finds the axes
  generalize c.config.policies = policies at h
  induction policies with
  | nil => exact absurd h (by simp [axesByPolicies])
  | cons q qs ih =>
    rw [axesByPolicies_cons] at h
    split at h
    · exact ih h
    · unfold ask at h
      obtain ⟨proposed, -, h⟩ := bind_eq_ok.1 h
      cases proposed with
      | none => exact absurd h (by simp [pure, Except.pure])
      | some axisNames =>
        simp only [validAxes] at h
        split at h
        · exact absurd h (by simp)
        · rename_i hnames
          have hlength := axesOfLengths_length h
          rw [List.length_zip, List.length_reverse] at hlength
          -- too few or too many names would have been turned down
          have : axisNames.length = dims.length := by
            by_contra hne
            exact hnames (.inl hne)
          omega

-- ---------------------------------------------------------------------------
-- The rules that look at siblings
-- ---------------------------------------------------------------------------

section Sought

variable (hembedded : c.hasEmbeddedAxis layout = false) (hany : anyValue layout = some value)
  (siblings : Siblings)
include hembedded hany

/-- Numbers wider than a byte are a value block if no axes are found for them. -/
theorem valueBlockRule_eq (hdims : value.dims.length ≤ 2) :
    c.valueBlockRule name layout siblings =
      if value.isBytes then .ok none
      else (c.externalAxes name siblings value.dims).map fun found =>
        if found.isSome then none else some (.valueBlock name layout value) := by
  rw [valueBlockRule, hembedded, hany]
  simp only [Bool.false_eq_true, if_false, if_pos hdims]
  cases value.isBytes with
  | true => rfl
  | false =>
    cases c.externalAxes name siblings value.dims with
    | error fault => rfl
    | ok found => cases found <;> rfl

/-- A list of numbers is a curve if an axis is found for it. -/
theorem externalCurveRule_eq :
    c.externalCurveRule name layout siblings =
      if value.dims.length = 1 then
        (c.externalAxes name siblings value.dims).map fun found =>
          match found with
          | some ((axisName, axis) :: _) =>
            some (.curve name layout value ⟨axis, .symbol axisName⟩)
          | _ => none
      else .ok none := by
  rw [externalCurveRule, hembedded, asValue_of_anyValue hany]
  by_cases hone : value.dims.length = 1
  · rw [if_pos hone.symm, if_pos hone]
    simp only [Bool.false_eq_true, if_false]
    cases c.externalAxes name siblings value.dims with
    | error fault => rfl
    | ok found =>
      rcases found with _ | _ | ⟨axis, rest⟩
      all_goals rfl
  · rw [if_neg (Ne.symm hone), if_neg hone]
    rfl

/-- A table of numbers is a map if two axes are found for it. -/
theorem externalMapRule_eq :
    c.externalMapRule name layout siblings =
      if value.dims.length = 2 then
        (c.externalAxes name siblings value.dims).map fun found =>
          match found with
          | some [(xName, x), (yName, y)] =>
            some (.map name layout value ⟨x, .symbol xName⟩ ⟨y, .symbol yName⟩)
          | _ => none
      else .ok none := by
  rw [externalMapRule, hembedded, asValue_of_anyValue hany]
  by_cases htwo : value.dims.length = 2
  · rw [if_pos htwo.symm, if_pos htwo]
    simp only [Bool.false_eq_true, if_false]
    cases c.externalAxes name siblings value.dims with
    | error fault => rfl
    | ok found =>
      rcases found with _ | _ | ⟨x, _ | ⟨y, _ | ⟨z, rest⟩⟩⟩
      all_goals rfl
  · rw [if_neg (Ne.symm htwo), if_neg htwo]
    rfl

end Sought

/-- A symbol with a value array is the object that the search for its axes makes of it. -/
theorem classify_of_sought (h : c.sought layout = some value) (name : String)
    (siblings : Siblings) :
    c.classify name layout siblings =
      (c.externalAxes name siblings value.dims).map (objectOf name layout value) := by
  obtain ⟨hembedded, hany, hdims⟩ := sought_eq_some h
  have hpos := dims_pos_of_anyValue hany
  rw [classify, valueRule_eq_none hany, internalCurveRule_eq_none hembedded,
    internalMapRule_eq_none hembedded, valueBlockRule_eq hembedded hany siblings hdims,
    externalCurveRule_eq hembedded hany, externalMapRule_eq hembedded hany]
  have hdims : value.dims.length = 1 ∧ value.dims.length ≠ 2 ∨
      value.dims.length ≠ 1 ∧ value.dims.length = 2 := by omega
  cases hfound : c.externalAxes name siblings value.dims with
  | error fault =>
    -- whichever rule asks first comes upon the fault
    cases value.isBytes with
    | false => rfl
    | true =>
      rcases hdims with ⟨hone, htwo⟩ | ⟨hone, htwo⟩
      · rw [if_pos hone]
        rfl
      · rw [if_neg hone, if_pos htwo]
        rfl
  | ok found =>
    cases found with
    | none =>
      show _ = Except.ok (if value.isBytes then _ else _)
      cases value.isBytes with
      | false => rfl
      | true =>
        rcases hdims with ⟨hone, htwo⟩ | ⟨hone, htwo⟩
        · rw [if_pos hone, if_neg htwo]
          rfl
        · rw [if_neg hone, if_pos htwo]
          rfl
    | some axes =>
      have hlength := externalAxes_length hfound
      -- with axes found there is no value block
      have hblock : (if value.isBytes then .ok none
          else Except.map (fun found => if found.isSome then none
            else some (.valueBlock name layout value)) (.ok (some axes)) : Verdict) = .ok none := by
        cases value.isBytes <;> rfl
      rw [hblock]
      rcases hdims with ⟨hone, htwo⟩ | ⟨hone, htwo⟩
      · rw [if_pos hone, if_neg htwo]
        obtain ⟨axis, rfl⟩ := List.length_eq_one_iff.1 (hlength.trans hone)
        rfl
      · rw [if_neg hone, if_pos htwo]
        obtain ⟨x, y, rfl⟩ := List.length_eq_two.1 (hlength.trans htwo)
        rfl

/-- A symbol without such a value array is the same object whatever its siblings are. -/
theorem classify_of_not_sought (h : c.sought layout = none) (name : String)
    (siblings siblings' : Siblings) :
    c.classify name layout siblings = c.classify name layout siblings' := by
  cases hembedded : c.hasEmbeddedAxis layout with
  | true =>
    rw [classify, classify, valueBlockRule, valueBlockRule, externalCurveRule, externalCurveRule,
      externalMapRule, externalMapRule, hembedded]
    rfl
  | false =>
    -- without axes of their own, values of one or two dimensions would be sought for
    have hlong : ∀ value, anyValue layout = some value → ¬value.dims.length ≤ 2 := by
      intro value hany hle
      have hsought : c.sought layout = some value := by
        rw [sought, hembedded, hany]
        simp [hle]
      rw [hsought] at h
      exact absurd h (by simp)
    have hasValue : ∀ dimensions, 1 ≤ dimensions → dimensions ≤ 2 →
        asValue dimensions layout = none := by
      intro dimensions hpos hle
      rw [Option.eq_none_iff_forall_ne_some]
      intro value hvalue
      refine hlong value (anyValue_eq_some.2 ⟨dimensions, hpos, by omega, hvalue⟩) ?_
      rw [(asValue_eq_some.1 hvalue).2.1]
      exact hle
    have hblock : c.valueBlockRule name layout siblings =
        c.valueBlockRule name layout siblings' := by
      rw [valueBlockRule, valueBlockRule]
      cases hany : anyValue layout with
      | none => rfl
      | some value => simp only [if_neg (hlong value hany)]
    rw [classify, classify, hblock, externalCurveRule, externalCurveRule, externalMapRule,
      externalMapRule, hasValue 1 (by omega) (by omega), hasValue 2 (by omega) (by omega)]

-- ---------------------------------------------------------------------------
-- Two views of the siblings
-- ---------------------------------------------------------------------------

/-- Without axes there are neither curves nor maps. -/
theorem objectOf_none {object : CalibrationObject}
    (h : objectOf name layout value none = some object) :
    object = .valueBlock name layout value ∨
      ∃ address byteSize, object = .blob name layout address byteSize := by
  rw [objectOf] at h
  split at h
  · unfold blobRule at h
    simp only [Option.ite_none_right_eq_some, Option.some.injEq] at h
    exact .inr ⟨_, _, h.2.symm⟩
  · exact .inl (Option.some.inj h).symm

/-- The object tells which axes were found. -/
theorem objectOf_injective {found found' : Option (List (String × ArrayView))}
    (hfound : ∀ axes, found = some axes → axes.length = 1 ∨ axes.length = 2)
    (hfound' : ∀ axes, found' = some axes → axes.length = 1 ∨ axes.length = 2)
    (h : objectOf name layout value found = objectOf name layout value found') :
    found = found' := by
  -- no axes, one or two
  have hcases : ∀ {found : Option (List (String × ArrayView))},
      (∀ axes, found = some axes → axes.length = 1 ∨ axes.length = 2) →
        found = none ∨ (∃ x, found = some [x]) ∨ ∃ x y, found = some [x, y] := by
    intro found hlength
    cases found with
    | none => exact .inl rfl
    | some axes =>
      rcases hlength axes rfl with hone | htwo
      · obtain ⟨x, rfl⟩ := List.length_eq_one_iff.1 hone
        exact .inr (.inl ⟨x, rfl⟩)
      · obtain ⟨x, y, rfl⟩ := List.length_eq_two.1 htwo
        exact .inr (.inr ⟨x, y, rfl⟩)
  rcases hcases hfound with rfl | ⟨x, rfl⟩ | ⟨x, y, rfl⟩ <;>
    rcases hcases hfound' with rfl | ⟨x', rfl⟩ | ⟨x', y', rfl⟩
  · rfl
  · rcases objectOf_none h with hobject | ⟨_, _, hobject⟩ <;> exact absurd hobject (by simp)
  · rcases objectOf_none h with hobject | ⟨_, _, hobject⟩ <;> exact absurd hobject (by simp)
  · rcases objectOf_none h.symm with hobject | ⟨_, _, hobject⟩ <;> exact absurd hobject (by simp)
  · simpa [objectOf, Prod.ext_iff, and_comm] using h
  · exact absurd h (by simp [objectOf])
  · rcases objectOf_none h.symm with hobject | ⟨_, _, hobject⟩ <;> exact absurd hobject (by simp)
  · exact absurd h (by simp [objectOf])
  · obtain ⟨xName, x⟩ := x
    obtain ⟨yName, y⟩ := y
    simp only [objectOf, Option.some.injEq, CalibrationObject.map.injEq, true_and, Axis.mk.injEq,
      AxisSource.symbol.injEq] at h
    obtain ⟨⟨hx, hxName⟩, hy, hyName⟩ := h
    rw [hx, hxName, hy, hyName]

/-- Two views of the siblings lead to the same object exactly if the same axes are found. -/
theorem classify_eq_iff (siblings siblings' : Siblings) :
    c.classify name layout siblings = c.classify name layout siblings' ↔
      ∀ value, c.sought layout = some value →
        c.externalAxes name siblings value.dims = c.externalAxes name siblings' value.dims := by
  cases hsought : c.sought layout with
  | none => exact iff_of_true (classify_of_not_sought hsought name _ _) (by simp)
  | some value =>
    rw [classify_of_sought hsought, classify_of_sought hsought]
    obtain ⟨-, hany, hdims⟩ := sought_eq_some hsought
    have hpos := dims_pos_of_anyValue hany
    constructor
    · intro h value' hvalue'
      rw [Option.some.injEq] at hvalue'
      subst hvalue'
      cases hfound : c.externalAxes name siblings value.dims with
      | error fault =>
        cases hfound' : c.externalAxes name siblings' value.dims with
        | error fault' => simpa [hfound, hfound', Except.map] using h
        | ok found' => exact absurd h (by simp [hfound, hfound', Except.map])
      | ok found =>
        cases hfound' : c.externalAxes name siblings' value.dims with
        | error fault' => exact absurd h (by simp [hfound, hfound', Except.map])
        | ok found' =>
          rw [hfound, hfound'] at h
          -- the axes can be read off the object
          refine congrArg Except.ok (objectOf_injective ?_ ?_ (Except.ok.inj h))
          · rintro axes rfl
            have := externalAxes_length hfound
            omega
          · rintro axes rfl
            have := externalAxes_length hfound'
            omega
    · intro h
      rw [h value rfl]

end Classifier

end DebugLayout
