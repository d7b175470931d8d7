import DebugLayout.Proofs.Calibration.Classify

/-!
# DebugLayout — what a calibration object stands for

A calibration object is **sound** if it is what its kind says: the value array has the dimensions of
the kind, each axis is an array of numbers in order that is as long as the dimension it goes with,
and it comes from where it is said to come from. The classification only ends with sound objects.
There is one lemma for each of its rules; the two kinds of axes have the search for a member and the
search among the siblings behind them.

The search among siblings asks a policy for names and then validates them, name by name. Therefore
what it finds is sound by the validation alone, wherever the names came from, and nothing about the
policies is needed for it.

* `ArrayView.Serves`: an array can be the axis of a dimension;
* `Axis.ComesFrom`: an axis comes from where it says;
* `CalibrationObject.Sound`: an object is what its kind says;
* `Classifier.axes_of_externalAxes`, `Classifier.ask_of_axesByPolicies`: what the search among
  siblings finds, and what it means that it finds nothing;
* `Classifier.sound_of_classify`: the classification is sound.
-/

namespace DebugLayout

/-- An array can be the axis of a dimension of some length: it has as many numbers, in order. -/
structure ArrayView.Serves (c : Classifier) (length : Nat) (a : ArrayView) : Prop where
  dims : a.dims = [length]
  numeric : a.isNumeric = true
  ordered : c.isMonotonic a.elements = .ok true

/-- A layout has no member that is called like an axis. -/
def LayoutNode.NoAxisMember (c : Config) (layout : LayoutNode) : Prop :=
  ∀ n ∈ c.xAxisMembers ++ c.yAxisMembers, layout.member? n = none

/-- An axis is the member, of a struct, or the other symbol that it names as its source. A member
has one of the names that are given for the axis; axes that are symbols go with layouts that have
no axes themselves. -/
inductive Axis.ComesFrom (c : Classifier) (name : String) (layout : LayoutNode)
    (siblings : Siblings) (memberNames : List String) : Axis → Prop
  | member {header : NodeHeader} {alternatives : Nat} {members : List LayoutNode}
      {memberName : String} {child : LayoutNode} {array : ArrayView}
      (hstruct : layout = .composite header false alternatives members)
      (hname : memberName ∈ memberNames) (hchild : layout.member? memberName = some child)
      (harray : asAxis child = some array) :
      ComesFrom c name layout siblings memberNames ⟨array, .member memberName⟩
  | symbol {symbolName : String} {sibling : LayoutNode} {array : ArrayView}
      (hplain : layout.NoAxisMember c.config) (hname : symbolName ≠ name)
      (hsibling : siblings.layout? symbolName = .ok (some sibling))
      (harray : asAxis sibling = some array) :
      ComesFrom c name layout siblings memberNames ⟨array, .symbol symbolName⟩

/-- A value array is that of a layout, or that of a node directly under it. -/
def LayoutNode.Holds (layout : LayoutNode) (value : ArrayView) : Prop :=
  ∃ n ∈ layout :: layout.children, n.bareArray? = some value

/-- A calibration object is what its kind says, for a symbol with a layout and siblings. -/
inductive CalibrationObject.Sound (c : Classifier) (name : String) (layout : LayoutNode)
    (siblings : Siblings) : CalibrationObject → Prop
  | value {leaf : ScalarLeaf} (hlayout : layout = .scalar leaf) (hnumeric : leaf.isNumeric = true)
      (hwhole : leaf.isBitfield = false) : Sound c name layout siblings (.value name leaf)
  | curve {value : ArrayView} {axis : Axis} {length : Nat} (hvalue : layout.Holds value)
      (hdims : value.dims = [length]) (hfilled : value.shape.isEmpty = false)
      (hnumeric : value.isNumeric = true) (haxis : axis.array.Serves c length)
      (hsource : axis.ComesFrom c name layout siblings c.config.xAxisMembers) :
      Sound c name layout siblings (.curve name layout value axis)
  | map {value : ArrayView} {xAxis yAxis : Axis} {rows columns : Nat}
      (hvalue : layout.Holds value) (hdims : value.dims = [rows, columns])
      (hfilled : value.shape.isEmpty = false) (hnumeric : value.isNumeric = true)
      (hx : xAxis.array.Serves c columns) (hy : yAxis.array.Serves c rows)
      (hxSource : xAxis.ComesFrom c name layout siblings c.config.xAxisMembers)
      (hySource : yAxis.ComesFrom c name layout siblings c.config.yAxisMembers)
      (hdistinct : ∀ x y, xAxis.source = .symbol x → yAxis.source = .symbol y → x ≠ y) :
      Sound c name layout siblings (.map name layout value xAxis yAxis)
  | valueBlock {value : ArrayView} (hplain : layout.NoAxisMember c.config)
      (hvalue : layout.bareArray? = some value) (hpos : 1 ≤ value.dims.length)
      (hle : value.dims.length ≤ 3) (hnumeric : value.isNumeric = true)
      (hwide : value.isBytes = false)
      (halone : value.dims.length ≤ 2 →
        ∀ q ∈ c.config.policies, c.ask name siblings value.dims q = .ok none) :
      Sound c name layout siblings (.valueBlock name layout value)
  | blob (hsize : 0 < layout.byteSize) :
      Sound c name layout siblings (.blob name layout layout.address layout.byteSize)

/-- An axis has one dimension, and numbers in it. -/
theorem dims_of_asAxis {layout : LayoutNode} {axis : ArrayView} (h : asAxis layout = some axis) :
    axis.dims = [axis.length] ∧ axis.isNumeric = true := by
  simp only [asAxis, Option.filter_eq_some_iff, Bool.and_eq_true, decide_eq_true_eq] at h
  obtain ⟨-, ⟨hone, -⟩, hnumeric⟩ := h
  obtain ⟨n, hn⟩ := List.length_eq_one_iff.1 hone
  refine ⟨?_, hnumeric⟩
  rw [ArrayView.length, hn]
  rfl

namespace Classifier

variable {c : Classifier} {name : String} {layout : LayoutNode} {siblings : Siblings}
  {value axis : ArrayView} {object : CalibrationObject}

/-- An ascending axis serves as one for as many values as it has. -/
theorem serves_of_asAxis (haxis : asAxis layout = some axis)
    (hordered : c.isMonotonic axis.elements = .ok true) : axis.Serves c axis.length :=
  ⟨(dims_of_asAxis haxis).1, (dims_of_asAxis haxis).2, hordered⟩

-- ------------------------------------------------------------------------------------------------
-- Members
-- ------------------------------------------------------------------------------------------------

theorem firstMember_eq_some {members : List LayoutNode} {names : List String} {memberName : String}
    {m : LayoutNode} (h : firstMember members names = some (memberName, m)) :
    memberName ∈ names ∧ members.find? (·.name = memberName) = some m := by
  induction names with
  | nil => exact absurd h (by simp [firstMember])
  | cons n names ih =>
    rw [firstMember] at h
    split at h
    · rename_i found hfound
      rw [Option.some.injEq, Prod.mk.injEq] at h
      obtain ⟨rfl, rfl⟩ := h
      exact ⟨List.mem_cons_self, hfound⟩
    · obtain ⟨hname, hfind⟩ := ih h
      exact ⟨List.mem_cons_of_mem _ hname, hfind⟩

theorem noAxisMember_of_hasEmbeddedAxis (h : c.hasEmbeddedAxis layout = false) :
    layout.NoAxisMember c.config := by
  intro n hn
  cases layout with
  | composite header isUnion alternatives members =>
    rw [hasEmbeddedAxis, Option.isSome_eq_false_iff, Option.isNone_iff_eq_none,
      firstMember_eq_none] at h
    exact h n hn
  | _ => rfl

/-- The value array of a struct is that of one of its members. -/
theorem exists_member_of_memberValue {dimensions : Nat} {members others : List LayoutNode}
    (hothers : ∀ m ∈ others, m ∈ members)
    (h : c.memberValue dimensions members others = some value) :
    ∃ m ∈ members, asValue dimensions m = some value := by
  unfold memberValue at h
  split at h
  · rename_i memberName m hfirst
    exact ⟨m, List.mem_of_find?_eq_some (firstMember_eq_some hfirst).2, h⟩
  · split at h
    · rename_i only honly
      rw [Option.some.injEq] at h
      subst h
      obtain ⟨m, hm, hvalue⟩ := List.mem_filterMap.1 (honly ▸ List.mem_singleton_self only)
      exact ⟨m, hothers m hm, hvalue⟩
    · exact absurd h (by simp)

-- ------------------------------------------------------------------------------------------------
-- Siblings
-- ------------------------------------------------------------------------------------------------

/-- A name of a sibling that serves as the axis of a dimension. -/
def Finds (c : Classifier) (name : String) (siblings : Siblings) (expected : String × Nat)
    (found : String × ArrayView) : Prop :=
  found.1 = expected.1 ∧ found.1 ≠ name ∧ found.2.Serves c expected.2 ∧
    ∃ sibling, siblings.layout? found.1 = .ok (some sibling) ∧ asAxis sibling = some found.2

/-- Valid axes are found one by one. -/
theorem axes_of_axesOfLengths {expected : List (String × Nat)} {axes : List (String × ArrayView)}
    (h : c.axesOfLengths name siblings expected = .ok (some axes)) :
    List.Forall₂ (c.Finds name siblings) expected axes := by
  induction expected generalizing axes with
  | nil =>
    rw [axesOfLengths, Except.ok.injEq, Option.some.injEq] at h
    subst h
    exact .nil
  | cons e rest ih =>
    obtain ⟨sibling, axis, others, hname, hsibling, haxis, hlength, hordered, hothers, rfl⟩ :=
      axesOfLengths_cons h
    have hserves : axis.Serves c e.2 := hlength ▸ serves_of_asAxis haxis hordered
    exact .cons ⟨rfl, hname, hserves, sibling, hsibling, haxis⟩ (ih hothers)

/-- The axes that the search ends with are the valid ones of some policy. -/
theorem exists_policy_of_axesByPolicies {dims : List Nat} {policies : List Policy}
    {axes : List (String × ArrayView)}
    (h : c.axesByPolicies name siblings dims policies = .ok (some axes)) :
    ∃ axisNames, c.validAxes name siblings dims axisNames = .ok (some axes) := by
  induction policies with
  | nil => exact absurd h (by simp [axesByPolicies])
  | cons q qs ih =>
    rw [axesByPolicies_cons] at h
    split at h
    · exact ih h
    · unfold ask at h
      obtain ⟨proposed, -, h⟩ := bind_eq_ok.1 h
      cases proposed with
      | none => exact absurd h (by simp [pure, Except.pure])
      | some axisNames => exact ⟨axisNames, h⟩

/-- External axes have different names, and go with the dimensions in reverse order. -/
theorem axes_of_externalAxes {dims : List Nat} {axes : List (String × ArrayView)}
    (h : c.externalAxes name siblings dims = .ok (some axes)) :
    ∃ axisNames : List String, axisNames.Nodup ∧ axisNames.length = dims.length ∧
      List.Forall₂ (c.Finds name siblings) (axisNames.zip dims.reverse) axes := by
  obtain ⟨axisNames, hvalid⟩ := exists_policy_of_axesByPolicies h
  unfold validAxes at hvalid
  split at hvalid
  · exact absurd hvalid (by simp)
  · rename_i hnames
    rw [not_or, not_not, not_not] at hnames
    exact ⟨axisNames, hnames.2, hnames.1, axes_of_axesOfLengths hvalid⟩

/-- Where the search finds nothing, each policy finds nothing. -/
theorem ask_of_axesByPolicies {dims : List Nat} {policies : List Policy}
    (h : c.axesByPolicies name siblings dims policies = .ok none) :
    ∀ q ∈ policies, c.ask name siblings dims q = .ok none := by
  induction policies with
  | nil => simp
  | cons p ps ih =>
    rw [axesByPolicies_cons] at h
    split at h
    · rename_i hask
      exact List.forall_mem_cons.2 ⟨hask, ih h⟩
    · rename_i hask
      exact absurd h hask

/-- Where each policy finds nothing, the search finds nothing. -/
theorem axesByPolicies_of_ask {dims : List Nat} {policies : List Policy}
    (h : ∀ q ∈ policies, c.ask name siblings dims q = .ok none) :
    c.axesByPolicies name siblings dims policies = .ok none := by
  induction policies with
  | nil => rfl
  | cons q qs ih =>
    obtain ⟨hq, hqs⟩ := List.forall_mem_cons.1 h
    rw [axesByPolicies_cons, hq]
    exact ih hqs

-- ------------------------------------------------------------------------------------------------
-- The rules
-- ------------------------------------------------------------------------------------------------

/-- What the rule for single values finds is sound. -/
theorem sound_of_valueRule (h : valueRule name layout = some object) :
    object.Sound c name layout siblings := by
  unfold valueRule at h
  split at h
  · rename_i leaf
    simp only [Option.ite_none_right_eq_some, Bool.and_eq_true, Bool.not_eq_true',
      Option.some.injEq] at h
    obtain ⟨⟨hwhole, hnumeric⟩, rfl⟩ := h
    exact .value rfl hnumeric hwhole
  · exact absurd h (by simp)

theorem sound_of_valueBlockRule (h : c.valueBlockRule name layout siblings = .ok (some object)) :
    object.Sound c name layout siblings := by
  unfold valueBlockRule at h
  split at h
  · exact absurd (pure_eq_ok.1 h) (by simp)
  · rename_i hembedded
    have hplain : layout.NoAxisMember c.config :=
      noAxisMember_of_hasEmbeddedAxis (by simpa using hembedded)
    split at h
    · exact absurd (pure_eq_ok.1 h) (by simp)
    · rename_i value hany
      obtain ⟨dimensions, hpos, hle, hvalue⟩ := anyValue_eq_some.1 hany
      obtain ⟨hbare, hdims, -, hnumeric⟩ := asValue_eq_some.1 hvalue
      split at h
      · exact absurd (pure_eq_ok.1 h) (by simp)
      · rename_i hwide
        -- whether the policies were asked depends on the number of dimensions
        have hblock : (value.dims.length ≤ 2 →
            c.externalAxes name siblings value.dims = .ok none) ∧
            object = .valueBlock name layout value := by
          split at h
          · obtain ⟨found, hfound, h⟩ := bind_eq_ok.1 h
            cases found with
            | some axes => exact absurd (pure_eq_ok.1 h) (by simp)
            | none => exact ⟨fun _ => hfound, (Option.some.inj (pure_eq_ok.1 h)).symm⟩
          · rename_i hlong
            exact ⟨fun hshort => absurd hshort hlong, (Option.some.inj (pure_eq_ok.1 h)).symm⟩
        obtain ⟨hsearch, rfl⟩ := hblock
        exact .valueBlock hplain hbare (by omega) (by omega) hnumeric (by simpa using hwide)
          fun hshort => ask_of_axesByPolicies (hsearch hshort)

theorem sound_of_externalCurveRule
    (h : c.externalCurveRule name layout siblings = .ok (some object)) :
    object.Sound c name layout siblings := by
  unfold externalCurveRule at h
  split at h
  · exact absurd (pure_eq_ok.1 h) (by simp)
  · rename_i hembedded
    have hplain : layout.NoAxisMember c.config :=
      noAxisMember_of_hasEmbeddedAxis (by simpa using hembedded)
    split at h
    · exact absurd (pure_eq_ok.1 h) (by simp)
    · rename_i value hvalue
      obtain ⟨hbare, hone, hfilled, hnumeric⟩ := asValue_eq_some.1 hvalue
      obtain ⟨length, hdims⟩ := List.length_eq_one_iff.1 hone
      obtain ⟨found, hfound, h⟩ := bind_eq_ok.1 h
      split at h
      · rename_i axisName axis rest
        obtain rfl := Option.some.inj (pure_eq_ok.1 h)
        obtain ⟨axisNames, -, hlength, haxes⟩ := axes_of_externalAxes hfound
        -- one dimension asks for one axis
        obtain ⟨n, rfl⟩ := List.length_eq_one_iff.1 (hlength.trans hone)
        rw [hdims] at haxes
        obtain ⟨⟨-, hname, hserves, sibling, hsibling, haxis⟩, -⟩ := List.forall₂_cons.1 haxes
        exact .curve ⟨layout, List.mem_cons_self, hbare⟩ hdims hfilled hnumeric hserves
          (.symbol hplain hname hsibling haxis)
      · exact absurd (pure_eq_ok.1 h) (by simp)

theorem sound_of_externalMapRule (h : c.externalMapRule name layout siblings = .ok (some object)) :
    object.Sound c name layout siblings := by
  unfold externalMapRule at h
  split at h
  · exact absurd (pure_eq_ok.1 h) (by simp)
  · rename_i hembedded
    have hplain : layout.NoAxisMember c.config :=
      noAxisMember_of_hasEmbeddedAxis (by simpa using hembedded)
    split at h
    · exact absurd (pure_eq_ok.1 h) (by simp)
    · rename_i value hvalue
      obtain ⟨hbare, htwo, hfilled, hnumeric⟩ := asValue_eq_some.1 hvalue
      obtain ⟨rows, columns, hdims⟩ := List.length_eq_two.1 htwo
      obtain ⟨found, hfound, h⟩ := bind_eq_ok.1 h
      split at h
      · rename_i xName x yName y
        obtain rfl := Option.some.inj (pure_eq_ok.1 h)
        obtain ⟨axisNames, hnodup, hlength, haxes⟩ := axes_of_externalAxes hfound
        obtain ⟨m, n, rfl⟩ := List.length_eq_two.1 (hlength.trans htwo)
        -- the x axis goes with the last dimension
        rw [hdims] at haxes
        obtain ⟨⟨hxIs, hxName, hxServes, xSibling, hxSibling, hx⟩, haxes⟩ :=
          List.forall₂_cons.1 haxes
        obtain ⟨⟨hyIs, hyName, hyServes, ySibling, hySibling, hy⟩, -⟩ := List.forall₂_cons.1 haxes
        have hne : xName ≠ yName := by
          rintro rfl
          exact (List.pairwise_pair.1 hnodup) (hxIs.symm.trans hyIs)
        refine .map ⟨layout, List.mem_cons_self, hbare⟩ hdims hfilled hnumeric hxServes hyServes
          (.symbol hplain hxName hxSibling hx) (.symbol hplain hyName hySibling hy) ?_
        rintro _ _ ⟨rfl⟩ ⟨rfl⟩
        exact hne
      · exact absurd (pure_eq_ok.1 h) (by simp)

/-- An axis that is the first member with one of some names comes from that member. -/
theorem comesFrom_of_firstMember {header : NodeHeader} {alternatives : Nat}
    {members : List LayoutNode} {names : List String} {memberName : String} {child : LayoutNode}
    (hfirst : firstMember members names = some (memberName, child))
    (haxis : asAxis child = some axis) :
    (Axis.mk axis (.member memberName)).ComesFrom c name
      (.composite header false alternatives members) siblings names :=
  .member rfl (firstMember_eq_some hfirst).1 (firstMember_eq_some hfirst).2 haxis

theorem sound_of_internalCurveRule (h : c.internalCurveRule name layout = .ok (some object)) :
    object.Sound c name layout siblings := by
  unfold internalCurveRule at h
  split at h
  · rename_i header alternatives members
    split at h
    · exact absurd (pure_eq_ok.1 h) (by simp)
    · rename_i axisName axisNode hfirst
      split at h
      · rename_i axis value haxis hvalue
        split at h
        · exact absurd (pure_eq_ok.1 h) (by simp)
        · rename_i hlength
          obtain ⟨ordered, hordered, h⟩ := bind_eq_ok.1 h
          cases ordered with
          | false => exact absurd (pure_eq_ok.1 h) (by simp)
          | true =>
            obtain rfl := Option.some.inj (pure_eq_ok.1 h)
            have hserves := serves_of_asAxis haxis (mapError_eq_ok.1 hordered)
            obtain ⟨m, hm, hvalue⟩ :=
              exists_member_of_memberValue (fun m => List.mem_of_mem_eraseP) hvalue
            obtain ⟨hbare, hone, hfilled, hnumeric⟩ := asValue_eq_some.1 hvalue
            obtain ⟨n, hdims⟩ := List.length_eq_one_iff.1 hone
            -- the lengths were compared before the values of the axis were read
            have hn : axis.length = n := by
              rw [← Decidable.not_not.1 hlength, ArrayView.length, hdims]
              rfl
            rw [hn] at hserves
            exact .curve ⟨m, List.mem_cons_of_mem _ hm, hbare⟩ hdims hfilled hnumeric hserves
              (comesFrom_of_firstMember hfirst haxis)
      · exact absurd (pure_eq_ok.1 h) (by simp)
  · exact absurd (pure_eq_ok.1 h) (by simp)

theorem sound_of_internalMapRule (h : c.internalMapRule name layout = .ok (some object)) :
    object.Sound c name layout siblings := by
  unfold internalMapRule at h
  split at h
  · rename_i header alternatives members
    split at h
    · rename_i xName xNode yName yNode hxFirst hyFirst
      split at h
      · rename_i x y value hx hy hvalue
        split at h
        · exact absurd (pure_eq_ok.1 h) (by simp)
        · rename_i hdims
          obtain ⟨xOrdered, hxOrdered, h⟩ := bind_eq_ok.1 h
          cases xOrdered with
          | false => exact absurd (pure_eq_ok.1 h) (by simp)
          | true =>
            obtain ⟨yOrdered, hyOrdered, h⟩ := bind_eq_ok.1 h
            cases yOrdered with
            | false => exact absurd (pure_eq_ok.1 h) (by simp)
            | true =>
              obtain rfl := Option.some.inj (pure_eq_ok.1 h)
              -- the value is among the members, the two axes were the first of their kind
              obtain ⟨m, hm, hvalue⟩ := exists_member_of_memberValue (fun _ hm => hm) hvalue
              obtain ⟨hbare, -, hfilled, hnumeric⟩ := asValue_eq_some.1 hvalue
              exact .map ⟨m, List.mem_cons_of_mem _ hm, hbare⟩ (Decidable.not_not.1 hdims) hfilled
                hnumeric (serves_of_asAxis hx (mapError_eq_ok.1 hxOrdered))
                (serves_of_asAxis hy (mapError_eq_ok.1 hyOrdered))
                (comesFrom_of_firstMember hxFirst hx) (comesFrom_of_firstMember hyFirst hy)
                (by simp)
      · exact absurd (pure_eq_ok.1 h) (by simp)
    · exact absurd (pure_eq_ok.1 h) (by simp)
  · exact absurd (pure_eq_ok.1 h) (by simp)

/-- What the rule for blobs finds is sound. -/
theorem sound_of_blobRule (h : blobRule name layout = some object) :
    object.Sound c name layout siblings := by
  simp only [blobRule, Option.ite_none_right_eq_some, Option.some.injEq] at h
  obtain ⟨hblob, rfl⟩ := h
  refine .blob ?_
  split at hblob
  · rw [Bool.and_eq_true, decide_eq_true_eq] at hblob
    exact hblob.1
  · exact of_decide_eq_true hblob
  · exact absurd hblob (by simp)

/-- What a rule says, or else what the rules after it say. -/
theorem of_first {rule rest : Verdict} {P : CalibrationObject → Prop}
    (hrule : ∀ {object}, rule = .ok (some object) → P object)
    (hrest : ∀ {object}, rest = .ok (some object) → P object)
    (h : (do if let some object := ← rule then return some object else rest) =
      Except.ok (some object)) :
    P object := by
  obtain ⟨verdict, hverdict, h⟩ := bind_eq_ok.1 h
  cases verdict with
  | none => exact hrest h
  | some found =>
    obtain rfl := Option.some.inj (pure_eq_ok.1 h)
    exact hrule hverdict

/-- Every object that a symbol is classified as is sound. -/
theorem sound_of_classify (h : c.classify name layout siblings = .ok (some object)) :
    object.Sound c name layout siblings := by
  unfold classify at h
  split at h
  · rename_i found hfound
    obtain rfl := Option.some.inj (pure_eq_ok.1 h)
    exact sound_of_valueRule hfound
  · refine of_first sound_of_valueBlockRule (fun h => ?_) h
    refine of_first sound_of_internalCurveRule (fun h => ?_) h
    refine of_first sound_of_externalCurveRule (fun h => ?_) h
    refine of_first sound_of_internalMapRule (fun h => ?_) h
    refine of_first sound_of_externalMapRule (fun h => ?_) h
    exact sound_of_blobRule (pure_eq_ok.1 h)

/-- An array of numbers of two bytes. -/
def shortArray (name : String) (address : Int) (shape : ArrayShape) : ArrayView :=
  let element (i : Nat) : LayoutNode :=
    .scalar ⟨⟨toString i, name, address + 2 * i, 2, some "short"⟩, .signed .w16, 0, none, none⟩
  ⟨⟨name, name, address, 2 * shape.count, none⟩, shape, "short",
    (List.range shape.count).map element⟩

/-- A table of two rows and three columns, beside two arrays that are called like it. -/
def torque : ArrayView := shortArray "Torque" 0x1000 ⟨[2, 3], 2, by decide⟩

def torqueX : ArrayView := shortArray "Torque_x" 0x2000 ⟨[3], 2, by decide⟩

def torqueY : ArrayView := shortArray "Torque_y" 0x3000 ⟨[2], 2, by decide⟩

def torqueSiblings : Siblings :=
  .ofList [("Torque_x", torqueX.toNode), ("Torque_y", torqueY.toNode)]

def plainClassifier : Classifier := ⟨Config.default, none, .little⟩

def torqueMap : CalibrationObject :=
  .map "Torque" torque.toNode torque ⟨torqueX, .symbol "Torque_x"⟩ ⟨torqueY, .symbol "Torque_y"⟩

/-- A table of torques with two sibling axes is a map, and a sound one. -/
theorem sound_of_classify_torque :
    plainClassifier.classify "Torque" torque.toNode torqueSiblings = .ok (some torqueMap) ∧
      torqueMap.Sound plainClassifier "Torque" torque.toNode torqueSiblings :=
  ⟨rfl, sound_of_classify rfl⟩

end Classifier

end DebugLayout
