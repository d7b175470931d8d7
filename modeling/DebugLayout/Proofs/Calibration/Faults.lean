import DebugLayout.Proofs.Calibration.Classify
import DebugLayout.Proofs.Layout.Faults
import DebugLayout.Proofs.Scalar.Bits

/-!
# DebugLayout — what a classification can go wrong with

A classification reads the initial content of axes, lays siblings out, and sorts their names. In a
layout whose scalars take the bytes of their data types, whatever is read can be decoded. What is
left are siblings that turn out to have no shape, and names that are no natural keys: nothing else
can go wrong.

There is one lemma for every function on the way, from the axis lengths of the positional policy up
to the rules. Each says the same: if it ends with a fault, the fault is one of the two. What keeps
the others away is the size of scalars, which is a property of layouts and not of the memory.

* `Classifier.exists_isMonotonic`: the content of axes can be decoded;
* `Classifier.Impeded`: what is left;
* `Classifier.impeded_of_externalAxes`, `impeded_of_classify`: the search for axes and the
  classification go wrong with nothing else.
-/

namespace DebugLayout

-- ---------------------------------------------------------------------------
-- Reading
-- ---------------------------------------------------------------------------

namespace Classifier

variable {c : Classifier} {name : String} {siblings : Siblings}

/-- The value of a scalar that takes the bytes of its data type can be read or is not there. -/
theorem exists_elementValue (memory : MemoryReader) (order : Endianness) {e : LayoutNode}
    (h : e.Sized) : ∃ value, elementValue memory order e = .ok value := by
  unfold elementValue
  split
  · rename_i leaf
    have hsized : leaf.Sized := (LayoutNode.sized_iff.1 h).1 leaf rfl
    split
    · exact ⟨_, rfl⟩
    · rename_i hdecode
      rw [Bool.not_eq_true, Bool.not_eq_false'] at hdecode
      split
      · exact ⟨_, rfl⟩
      · rename_i data hread
        have hpos := DataType.byteSize_pos (DataType.ne_unknown_of_canDecode hdecode)
        have hsize : (leaf.dataType.byteSize : Int) = leaf.byteSize := by
          -- a leaf of no known type cannot be decoded at all
          refine hsized.resolve_left fun hunknown => ?_
          rw [hunknown] at hdecode
          exact absurd hdecode (by decide)
        -- as many bytes are read as the type needs
        have hlength : data.length = leaf.dataType.byteSize := by
          have := memory.length_of_read (by omega) hread
          omega
        rw [decodeScalar, hdecode, if_neg (by simp), if_neg (by simpa using hlength)]
        exact ⟨_, rfl⟩
  · exact ⟨_, rfl⟩

/-- Whether values ascend can be told if all of them have a size that can be decoded. -/
theorem exists_ascends {memory : MemoryReader} {order : Endianness} {previous : Option Decoded}
    {es : List LayoutNode} (h : ∀ e ∈ es, e.Sized) :
    ∃ b, ascends memory order previous es = .ok b := by
  induction es generalizing previous with
  | nil => exact ⟨true, rfl⟩
  | cons e es ih =>
    obtain ⟨value, hvalue⟩ := exists_elementValue memory order (h e List.mem_cons_self)
    rw [ascends, hvalue]
    cases value with
    | none => exact ⟨true, rfl⟩
    | some value =>
      simp only [bind, Except.bind]
      split
      · exact ⟨false, rfl⟩
      · exact ih fun e he => h e (List.mem_cons_of_mem _ he)

/-- The content of an axis can be decoded as far as it can be read. -/
theorem exists_isMonotonic (c : Classifier) {es : List LayoutNode} (h : ∀ e ∈ es, e.Sized) :
    ∃ b, c.isMonotonic es = .ok b := by
  unfold isMonotonic
  split
  · exact exists_ascends h
  · exact ⟨true, rfl⟩

/-- The elements of an array in a sized layout are sized. -/
theorem sized_of_array {n : LayoutNode} {a : ArrayView} (hn : n.Sized) (h : n.array? = some a) :
    ∀ e ∈ a.elements, e.Sized := by
  cases n with
  | array header shape elementTypeName elements =>
    obtain rfl := Option.some.inj h
    exact (LayoutNode.sized_iff.1 hn).2
  | scalar | pointer | composite => exact absurd h (by simp [LayoutNode.array?])

theorem sized_of_asAxis {n : LayoutNode} {axis : ArrayView} (hn : n.Sized)
    (h : asAxis n = some axis) : ∀ e ∈ axis.elements, e.Sized := by
  have hbare : n.bareArray? = some axis := (Option.filter_eq_some_iff.1 h).1
  unfold LayoutNode.bareArray? at hbare
  split at hbare
  · rename_i m
    exact sized_of_array ((LayoutNode.sized_iff.1 hn).2 m (by simp [LayoutNode.children])) hbare
  · exact absurd hbare (by simp)
  · exact sized_of_array hn hbare

variable {layout : LayoutNode} {fault : ClassifyFault}

/-- Whether an axis ascends can be told. -/
theorem isMonotonic_ne_error {axis : ArrayView} (hlayout : layout.Sized)
    (haxis : asAxis layout = some axis) :
    (c.isMonotonic axis.elements).mapError .decode ≠ .error fault := by
  obtain ⟨b, hb⟩ := c.exists_isMonotonic (sized_of_asAxis hlayout haxis)
  rw [hb]
  exact pure_ne_error

theorem sized_of_firstMember {header : NodeHeader} {isUnion : Bool} {alternatives : Nat}
    {members : List LayoutNode} {names : List String} {found : String × LayoutNode}
    (hlayout : (LayoutNode.composite header isUnion alternatives members).Sized)
    (h : firstMember members names = some found) : found.2.Sized := by
  induction names with
  | nil => exact absurd h (by simp [firstMember])
  | cons name names ih =>
    rw [firstMember] at h
    split at h
    · rename_i m hfind
      obtain rfl := Option.some.inj h
      exact (LayoutNode.sized_iff.1 hlayout).2 m (List.mem_of_find?_eq_some hfind)
    · exact ih h

theorem internalCurveRule_ne_error (hlayout : layout.Sized) :
    c.internalCurveRule name layout ≠ .error fault := by
  intro h
  unfold internalCurveRule at h
  split at h
  · split at h
    · exact absurd h pure_ne_error
    · rename_i hmember
      have hsized := sized_of_firstMember hlayout hmember
      split at h
      · rename_i haxis _
        split at h
        · exact absurd h pure_ne_error
        -- the only thing that could fail is to tell whether the axis ascends
        rcases bind_eq_error.1 h with h | ⟨monotonic, -, h⟩
        · exact isMonotonic_ne_error hsized haxis h
        · split at h
          · exact absurd h pure_ne_error
          · exact absurd h pure_ne_error
      · exact absurd h pure_ne_error
  · exact absurd h pure_ne_error

theorem internalMapRule_ne_error (hlayout : layout.Sized) :
    c.internalMapRule name layout ≠ .error fault := by
  intro h
  unfold internalMapRule at h
  split at h
  · split at h
    · rename_i hx hy
      have hxsized := sized_of_firstMember hlayout hx
      have hysized := sized_of_firstMember hlayout hy
      split at h
      · rename_i hxaxis hyaxis _
        split at h
        · exact absurd h pure_ne_error
        rcases bind_eq_error.1 h with h | ⟨monotonic, -, h⟩
        · -- a map asks of both axes whether they ascend
          exact isMonotonic_ne_error hxsized hxaxis h
        split at h
        · exact absurd h pure_ne_error
        rcases bind_eq_error.1 h with h | ⟨monotonic, -, h⟩
        · exact isMonotonic_ne_error hysized hyaxis h
        · split at h
          · exact absurd h pure_ne_error
          · exact absurd h pure_ne_error
      · exact absurd h pure_ne_error
    · exact absurd h pure_ne_error
  · exact absurd h pure_ne_error

-- ---------------------------------------------------------------------------
-- The search for axes
-- ---------------------------------------------------------------------------

/-- What can go wrong when a symbol is classified: a sibling turns out to have no shape, or one that
the positional policy takes for an axis has a name that is no natural key. -/
inductive Impeded (c : Classifier) (name : String) (siblings : Siblings) : ClassifyFault → Prop
  | sibling {n : String} {fault : ShapeFault} (h : siblings.layout? n = .error fault) :
      Impeded c name siblings (.sibling fault)
  | numeral {n : String} {fault : Text.NumeralFault}
      (hpolicy : .positional ∈ c.config.policies)
      (hvalue : c.config.namesValue name = true) (hn : n ∈ siblings.names)
      (haxis : c.config.namesAxis n = true) (hne : n ≠ name)
      (hkey : naturalKey n = .error fault) : Impeded c name siblings (.numeral fault)

/-- A sort that fails does so at one of the names. -/
theorem exists_of_naturalSort {names : List String} {fault : Text.NumeralFault}
    (h : naturalSort names = .error fault) : ∃ n ∈ names, naturalKey n = .error fault := by
  obtain ⟨n, hn, hkey⟩ := exists_of_mapM_eq_error (map_eq_error.1 h)
  exact ⟨n, hn, map_eq_error.1 hkey⟩

/-- What fails as lengths are looked up is the layout of a sibling. -/
theorem impeded_of_axisLengths {names : List String}
    (h : Policy.axisLengths siblings names = .error fault) : c.Impeded name siblings fault := by
  induction names with
  | nil => exact absurd h (by simp [Policy.axisLengths])
  | cons n names ih =>
    rw [Policy.axisLengths] at h
    split at h
    · rename_i hlayout
      obtain rfl := Except.error.inj h
      exact .sibling hlayout
    · rcases bind_eq_error.1 h with h | ⟨rest, -, h⟩
      · exact ih h
      · split at h
        · exact absurd h pure_ne_error
        · exact absurd h pure_ne_error

/-- A policy that fails meets a sibling without a layout, or a name that cannot be sorted. -/
theorem impeded_of_axes {q : Policy} {dims : List Nat}
    (hq : q ∈ c.config.policies) (h : q.axes c.config name dims siblings = .error fault) :
    c.Impeded name siblings fault := by
  cases q with
  | explicit =>
    -- the configured and the affixed names are made without looking at a sibling
    exact absurd h (by simp [Policy.axes])
  | affix => exact absurd h (by simp [Policy.axes])
  | positional =>
    simp only [Policy.axes, Policy.positionalAxes] at h
    split at h
    · exact absurd h pure_ne_error
    · rename_i hvalue
      rcases bind_eq_error.1 h with h | ⟨sorted, -, h⟩
      · -- the sort fails only at a name that has no natural key
        obtain ⟨fault, hsort, rfl⟩ := mapError_eq_error.1 h
        obtain ⟨n, hn, hkey⟩ := exists_of_naturalSort hsort
        obtain ⟨hn, hmatch⟩ := List.mem_filter.1 hn
        rw [Bool.and_eq_true, decide_eq_true_eq] at hmatch
        exact .numeral hq (by simpa using hvalue) hn hmatch.1 hmatch.2 hkey
      · rcases bind_eq_error.1 h with h | ⟨lengths, -, h⟩
        · exact impeded_of_axisLengths h
        · exact absurd h pure_ne_error

section Sized

variable (hsiblings : ∀ {n layout}, siblings.layout? n = .ok (some layout) → layout.Sized)
include hsiblings

/-- What fails as axes are checked is the layout of a sibling. -/
theorem impeded_of_axesOfLengths {expected : List (String × Nat)}
    (h : c.axesOfLengths name siblings expected = .error fault) :
    c.Impeded name siblings fault := by
  induction expected with
  | nil => exact absurd h (by simp [axesOfLengths])
  | cons e rest ih =>
    obtain ⟨axisName, length⟩ := e
    rw [axesOfLengths] at h
    split at h
    · exact absurd h pure_ne_error
    rcases bind_eq_error.1 h with h | ⟨layout, hlayout, h⟩
    · obtain ⟨fault, hfault, rfl⟩ := mapError_eq_error.1 h
      exact .sibling hfault
    have hlayout := mapError_eq_ok.1 hlayout
    split at h
    · exact absurd h pure_ne_error
    rename_i axis haxis
    obtain ⟨layout, rfl, haxis⟩ := Option.bind_eq_some_iff.1 haxis
    split at h
    · exact absurd h pure_ne_error
    rcases bind_eq_error.1 h with h | ⟨monotonic, -, h⟩
    · -- a layout that was obtained is sized, so that its values can be read and compared
      exact absurd h (isMonotonic_ne_error (hsiblings hlayout) haxis)
    split at h
    · exact absurd h pure_ne_error
    rcases bind_eq_error.1 h with h | ⟨others, -, h⟩
    · exact ih h
    · exact absurd h pure_ne_error

/-- A search that fails does so at one of its policies or as their axes are checked. -/
theorem impeded_of_axesByPolicies {dims : List Nat} {policies : List Policy}
    (hpolicies : ∀ q ∈ policies, q ∈ c.config.policies)
    (h : c.axesByPolicies name siblings dims policies = .error fault) :
    c.Impeded name siblings fault := by
  induction policies with
  | nil => exact absurd h (by simp [axesByPolicies])
  | cons q qs ih =>
    have ih := ih fun r hr => hpolicies r (List.mem_cons_of_mem _ hr)
    rw [axesByPolicies] at h
    rcases bind_eq_error.1 h with h | ⟨proposed, -, h⟩
    · exact impeded_of_axes (hpolicies q List.mem_cons_self) h
    split at h
    · exact ih h
    rcases bind_eq_error.1 h with h | ⟨axes, -, h⟩
    · -- what a policy proposes is checked, name by name
      unfold validAxes at h
      split at h
      · exact absurd h (by simp)
      · exact impeded_of_axesOfLengths hsiblings h
    split at h
    · exact absurd h pure_ne_error
    · exact ih h

/-- The search for axes goes wrong only with shapes and with natural keys. -/
theorem impeded_of_externalAxes {dims : List Nat}
    (h : c.externalAxes name siblings dims = .error fault) : c.Impeded name siblings fault :=
  impeded_of_axesByPolicies hsiblings (fun _ hq => hq) h

-- ---------------------------------------------------------------------------
-- The rules
-- ---------------------------------------------------------------------------

/-- Where the rule for value blocks fails, something impedes the search. -/
theorem impeded_of_valueBlockRule (h : c.valueBlockRule name layout siblings = .error fault) :
    c.Impeded name siblings fault := by
  unfold valueBlockRule at h
  split at h
  · exact absurd h pure_ne_error
  split at h
  · exact absurd h pure_ne_error
  split at h
  · exact absurd h pure_ne_error
  split at h
  · rcases bind_eq_error.1 h with h | ⟨found, -, h⟩
    · -- only the search for axes looks at siblings
      exact impeded_of_externalAxes hsiblings h
    · split at h
      · exact absurd h pure_ne_error
      · exact absurd h pure_ne_error
  · exact absurd h pure_ne_error

/-- Where the rule for curves fails, something impedes the search. -/
theorem impeded_of_externalCurveRule
    (h : c.externalCurveRule name layout siblings = .error fault) :
    c.Impeded name siblings fault := by
  unfold externalCurveRule at h
  split at h
  · exact absurd h pure_ne_error
  split at h
  · exact absurd h pure_ne_error
  rcases bind_eq_error.1 h with h | ⟨found, -, h⟩
  · exact impeded_of_externalAxes hsiblings h
  · split at h
    · exact absurd h pure_ne_error
    · exact absurd h pure_ne_error

/-- Where the rule for maps fails, something impedes the search. -/
theorem impeded_of_externalMapRule
    (h : c.externalMapRule name layout siblings = .error fault) :
    c.Impeded name siblings fault := by
  unfold externalMapRule at h
  split at h
  · exact absurd h pure_ne_error
  split at h
  · exact absurd h pure_ne_error
  rcases bind_eq_error.1 h with h | ⟨found, -, h⟩
  · exact impeded_of_externalAxes hsiblings h
  · split at h
    · exact absurd h pure_ne_error
    · exact absurd h pure_ne_error

/-- A classification goes wrong only with shapes and with natural keys. -/
theorem impeded_of_classify (hlayout : layout.Sized)
    (h : c.classify name layout siblings = .error fault) : c.Impeded name siblings fault := by
  unfold classify at h
  split at h
  · exact absurd h pure_ne_error
  rcases bind_eq_error.1 h with h | ⟨_, -, h⟩
  · exact impeded_of_valueBlockRule hsiblings h
  split at h
  · exact absurd h pure_ne_error
  rcases bind_eq_error.1 h with h | ⟨_, -, h⟩
  · -- the rules of embedded axes look at no sibling
    exact absurd h (internalCurveRule_ne_error hlayout)
  split at h
  · exact absurd h pure_ne_error
  rcases bind_eq_error.1 h with h | ⟨_, -, h⟩
  · exact impeded_of_externalCurveRule hsiblings h
  split at h
  · exact absurd h pure_ne_error
  rcases bind_eq_error.1 h with h | ⟨_, -, h⟩
  · exact absurd h (internalMapRule_ne_error hlayout)
  split at h
  · exact absurd h pure_ne_error
  rcases bind_eq_error.1 h with h | ⟨_, -, h⟩
  · exact impeded_of_externalMapRule hsiblings h
  split at h
  · exact absurd h pure_ne_error
  · exact absurd h pure_ne_error

end Sized

end Classifier

end DebugLayout
