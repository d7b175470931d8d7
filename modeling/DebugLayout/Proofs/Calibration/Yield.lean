import DebugLayout.Proofs.Calibration.Soundness

/-!
# DebugLayout — what the policies of a search come to

A policy that is asked for the axes of a symbol proposes names, and each of them is looked at in
turn. This module says in terms of the siblings and of their contents what comes of it. A policy
**yields** axes if all the names that it proposes turn out to be axes of the right lengths. It
**stalls** if it cannot sort the names or cannot decode the content of an axis that it looks at.
Otherwise it is **silent**, and the next one is asked. The first policy that is not silent decides
the search.

All this is stated for siblings whose layouts, where there are any, have a shape: what happens to
those without shape is none of the search.

* `Classifier.Yields`, `Stalls`, `Silent`: what a policy comes to;
* `Classifier.ask_eq_some_iff`, `ask_eq_error_iff`, `ask_eq_none_iff`: there is nothing else;
* `Classifier.Settles`, `Breaks`: what the search comes to;
* `Classifier.axesByPolicies_eq_some_iff`, `axesByPolicies_eq_error_iff`: the first policy that is
  not silent decides;
* `Classifier.Alike`, `axesByPolicies_eq_iff_alike`: searches that come to the same.
-/

namespace DebugLayout

namespace Classifier

variable {c : Classifier} {name : String} {siblings siblings' : Siblings} {dims : List Nat}
  {q : Policy} {axes : List (String × ArrayView)} {fault : ClassifyFault}

-- ---------------------------------------------------------------------------
-- A single policy
-- ---------------------------------------------------------------------------

/-- A policy proposes some names that can be looked at: there is one for each dimension, and they
are all different. The x axis goes with the last dimension. -/
structure Offers (c : Classifier) (name : String) (siblings : Siblings) (dims : List Nat)
    (q : Policy) (expected : List (String × Nat)) : Prop where
  proposed : q.axes c.config name dims siblings = .ok (some (expected.map (·.1)))
  lengths : expected.map (·.2) = dims.reverse
  distinct : (expected.map (·.1)).Nodup

/-- A policy yields axes if all that it offers is found. -/
def Yields (c : Classifier) (name : String) (siblings : Siblings) (dims : List Nat) (q : Policy)
    (axes : List (String × ArrayView)) : Prop :=
  ∃ expected, c.Offers name siblings dims q expected ∧
    List.Forall₂ (c.Finds name siblings) expected axes

/-- In an offer the content of an axis of the right length cannot be decoded, and all axes in front
of it are found. -/
inductive Undecodable (c : Classifier) (name : String) (siblings : Siblings) :
    List (String × Nat) → DecodeFault → Prop
  | here {n : String} {layout : LayoutNode} {axis : ArrayView} {rest : List (String × Nat)}
      {fault : DecodeFault} (hname : n ≠ name) (hlayout : siblings.layout? n = .ok (some layout))
      (haxis : asAxis layout = some axis) (hcontent : c.isMonotonic axis.elements = .error fault) :
      Undecodable c name siblings ((n, axis.length) :: rest) fault
  | later {e : String × Nat} {found : String × ArrayView} {rest : List (String × Nat)}
      {fault : DecodeFault} (hfound : c.Finds name siblings e found)
      (h : Undecodable c name siblings rest fault) : Undecodable c name siblings (e :: rest) fault

/-- What a policy stalls at: the first candidate for an axis whose name is no natural key, or the
content of an axis that it offers. -/
inductive Stalls (c : Classifier) (name : String) (siblings : Siblings) (dims : List Nat) :
    Policy → ClassifyFault → Prop
  | unsortable {before after : List String} {n : String} {fault : Text.NumeralFault}
      (hvalue : c.config.namesValue name = true)
      (hcandidates : (siblings.names.filter fun n => c.config.namesAxis n && n ≠ name) =
        before ++ n :: after)
      (hbefore : ∀ m ∈ before, ∃ key, naturalKey m = .ok key)
      (hkey : naturalKey n = .error fault) :
      Stalls c name siblings dims .positional (.numeral fault)
  | undecodable {q : Policy} {expected : List (String × Nat)} {fault : DecodeFault}
      (hoffers : c.Offers name siblings dims q expected)
      (h : c.Undecodable name siblings expected fault) :
      Stalls c name siblings dims q (.decode fault)

/-- A policy is silent if it neither yields axes nor stalls. -/
def Silent (c : Classifier) (name : String) (siblings : Siblings) (dims : List Nat) (q : Policy) :
    Prop :=
  (∀ axes, ¬c.Yields name siblings dims q axes) ∧ ∀ fault, ¬c.Stalls name siblings dims q fault

/-- A proposal that passes the check of its names is an offer. -/
theorem offers_zip {axisNames : List String}
    (hproposed : q.axes c.config name dims siblings = .ok (some axisNames))
    (hlength : axisNames.length = dims.length) (hnodup : axisNames.Nodup) :
    c.Offers name siblings dims q (axisNames.zip dims.reverse) := by
  have hfirst : (axisNames.zip dims.reverse).map (·.1) = axisNames :=
    List.map_fst_zip (by rw [List.length_reverse, hlength])
  have hsecond : (axisNames.zip dims.reverse).map (·.2) = dims.reverse :=
    List.map_snd_zip (by rw [List.length_reverse, hlength])
  exact ⟨by rw [hfirst]; exact hproposed, hsecond, by rw [hfirst]; exact hnodup⟩

/-- What a policy finds is what the look at its offer ends with. -/
theorem ask_of_offers {expected : List (String × Nat)}
    (h : c.Offers name siblings dims q expected) :
    c.ask name siblings dims q = c.axesOfLengths name siblings expected := by
  obtain ⟨hproposed, hlengths, hnodup⟩ := h
  have hlength : (expected.map (·.1)).length = dims.length := by
    have hreverse := congrArg List.length hlengths
    rw [List.length_map, List.length_reverse] at hreverse
    rw [List.length_map, hreverse]
  have hzip : (expected.map (·.1)).zip dims.reverse = expected := by
    rw [← hlengths, ← List.unzip_fst, ← List.unzip_snd, List.zip_unzip]
  rw [ask, hproposed]
  show c.validAxes name siblings dims _ = _
  rw [validAxes, if_neg (by rw [not_or, not_not, not_not]; exact ⟨hlength, hnodup⟩), hzip]

/-- An axis that is found leaves the outcome to the others. -/
theorem axesOfLengths_of_finds {e : String × Nat} {found : String × ArrayView}
    (h : c.Finds name siblings e found) (rest : List (String × Nat)) :
    c.axesOfLengths name siblings (e :: rest) =
      (c.axesOfLengths name siblings rest).map (·.map (found :: ·)) := by
  obtain ⟨axisName, length⟩ := e
  obtain ⟨_, axis⟩ := found
  obtain ⟨rfl, hname, ⟨hdims, -, hordered⟩, layout, hlayout, haxis⟩ := h
  have hlength : axis.length = length := by
    have heq := (dims_of_asAxis haxis).1.symm.trans hdims
    exact (List.cons.inj heq).1
  simp only at hname hlayout haxis hordered
  rw [axesOfLengths, if_neg hname, hlayout]
  simp only [Except.mapError, bind, Except.bind, Option.bind_some, haxis, hlength, hordered,
    ne_eq, not_true_eq_false, if_false, Bool.not_true, Bool.false_eq_true]
  cases c.axesOfLengths name siblings rest <;> rfl

theorem axesOfLengths_eq_some_iff {expected : List (String × Nat)} :
    c.axesOfLengths name siblings expected = .ok (some axes) ↔
      List.Forall₂ (c.Finds name siblings) expected axes := by
  refine ⟨axes_of_axesOfLengths, fun h => ?_⟩
  induction h with
  | nil => rfl
  | cons hfound _ ih =>
    rw [axesOfLengths_of_finds hfound, ih]
    rfl

/-- A policy finds exactly the axes that it yields. -/
theorem ask_eq_some_iff :
    c.ask name siblings dims q = .ok (some axes) ↔ c.Yields name siblings dims q axes := by
  constructor
  · intro h
    unfold ask at h
    obtain ⟨proposed, hproposed, h⟩ := bind_eq_ok.1 h
    cases proposed with
    | none => exact absurd (pure_eq_ok.1 h) (by simp)
    | some axisNames =>
      simp only [validAxes] at h
      split at h
      · exact absurd h (by simp)
      · rename_i hnames
        -- as many names as dimensions, and no name twice
        rw [not_or, not_not, not_not] at hnames
        exact ⟨_, offers_zip hproposed hnames.1 hnames.2, axesOfLengths_eq_some_iff.1 h⟩
  · rintro ⟨expected, hoffers, hfound⟩
    rw [ask_of_offers hoffers]
    exact axesOfLengths_eq_some_iff.2 hfound

section Shapes

variable (hshapes : ∀ n, ∃ layout, siblings.layout? n = .ok layout)
include hshapes

/-- Where all siblings have a layout or none, all lengths can be told. -/
theorem exists_axisLengths (names : List String) :
    ∃ lengths, Policy.axisLengths siblings names = .ok lengths := by
  induction names with
  | nil => exact ⟨[], rfl⟩
  | cons n names ih =>
    obtain ⟨layout, hlayout⟩ := hshapes n
    obtain ⟨lengths, hlengths⟩ := ih
    rw [Policy.axisLengths, hlayout]
    simp only
    rw [hlengths]
    cases layout.bind asAxis with
    | none => exact ⟨lengths, rfl⟩
    | some axis => exact ⟨(n, axis.length) :: lengths, rfl⟩

/-- No proposal comes about only where the names of the candidates cannot be sorted. -/
theorem axes_eq_error_iff :
    q.axes c.config name dims siblings = .error fault ↔
      q = .positional ∧ c.config.namesValue name = true ∧
        ∃ own, fault = .numeral own ∧
          naturalSort (siblings.names.filter fun n => c.config.namesAxis n && n ≠ name) =
            .error own := by
  cases q with
  | explicit => exact iff_of_false (by simp [Policy.axes]) (by simp)
  | affix => exact iff_of_false (by simp [Policy.axes]) (by simp)
  | positional =>
    simp only [Policy.axes, Policy.positionalAxes, true_and]
    cases c.config.namesValue name with
    | false => exact iff_of_false pure_ne_error (by simp)
    | true =>
      simp only [Bool.not_true, Bool.false_eq_true, if_false, true_and, bind_eq_error,
        mapError_eq_error]
      constructor
      · -- every sibling has a layout, so that only the sort can fail
        rintro (⟨own, hsort, rfl⟩ | ⟨sorted, -, h | ⟨lengths, -, h⟩⟩)
        · exact ⟨own, rfl, hsort⟩
        · obtain ⟨lengths, hlengths⟩ := exists_axisLengths hshapes sorted
          exact absurd (h.symm.trans hlengths) (by simp)
        · exact absurd h pure_ne_error
      · rintro ⟨own, rfl, hsort⟩
        exact .inl ⟨own, hsort, rfl⟩

/-- A search that goes wrong came to an axis whose values cannot be read. -/
theorem undecodable_of_axesOfLengths {expected : List (String × Nat)}
    (h : c.axesOfLengths name siblings expected = .error fault) :
    ∃ own, fault = .decode own ∧ c.Undecodable name siblings expected own := by
  induction expected with
  | nil => exact absurd h (by simp [axesOfLengths])
  | cons e rest ih =>
    obtain ⟨n, length⟩ := e
    rw [axesOfLengths] at h
    -- the checks come in the order of the program, and only two of them can go wrong
    split at h
    · exact absurd h pure_ne_error
    rename_i hname
    rcases bind_eq_error.1 h with h | ⟨layout, hlayout, h⟩
    · obtain ⟨own, hown, -⟩ := mapError_eq_error.1 h
      obtain ⟨layout, hlayout⟩ := hshapes n
      exact absurd (hown.symm.trans hlayout) (by simp)
    have hlayout := mapError_eq_ok.1 hlayout
    split at h
    · exact absurd h pure_ne_error
    rename_i axis haxis
    obtain ⟨layout, rfl, haxis⟩ := Option.bind_eq_some_iff.1 haxis
    split at h
    · exact absurd h pure_ne_error
    rename_i hlength
    have hlength : axis.length = length := Decidable.not_not.1 hlength
    rcases bind_eq_error.1 h with h | ⟨monotonic, hordered, h⟩
    · obtain ⟨own, hown, rfl⟩ := mapError_eq_error.1 h
      exact ⟨own, rfl, hlength ▸ .here hname hlayout haxis hown⟩
    split at h
    · exact absurd h pure_ne_error
    rename_i hmonotonic
    obtain rfl : monotonic = true := by simpa using hmonotonic
    have hserves : axis.Serves c length :=
      hlength ▸ serves_of_asAxis haxis (mapError_eq_ok.1 hordered)
    rcases bind_eq_error.1 h with h | ⟨others, -, h⟩
    · obtain ⟨own, rfl, hrest⟩ := ih h
      have hfound : c.Finds name siblings (n, length) (n, axis) :=
        ⟨rfl, hname, hserves, layout, hlayout, haxis⟩
      exact ⟨own, rfl, .later hfound hrest⟩
    · exact absurd h pure_ne_error

omit hshapes in
/-- Where the values of an axis cannot be read and the ones before it are found, the search goes
wrong. -/
theorem Undecodable.axesOfLengths_eq {expected : List (String × Nat)} {own : DecodeFault}
    (h : c.Undecodable name siblings expected own) :
    c.axesOfLengths name siblings expected = .error (.decode own) := by
  -- the faulty axis is the first one, or the ones before it are found
  induction h with
  | @here n layout axis rest fault hname hlayout haxis hcontent =>
    rw [axesOfLengths, if_neg hname, hlayout]
    simp only [Except.mapError, bind, Except.bind, Option.bind_some, haxis, hcontent, ne_eq,
      not_true_eq_false, if_false]
  | later hfound _ ih =>
    rw [axesOfLengths_of_finds hfound, ih]
    rfl

/-- The look at an offer goes wrong only where a content cannot be decoded. -/
theorem axesOfLengths_eq_error_iff {expected : List (String × Nat)} :
    c.axesOfLengths name siblings expected = .error fault ↔
      ∃ own, fault = .decode own ∧ c.Undecodable name siblings expected own := by
  constructor
  · exact undecodable_of_axesOfLengths hshapes
  · rintro ⟨own, rfl, h⟩
    exact h.axesOfLengths_eq

/-- A policy goes wrong exactly where it stalls. -/
theorem ask_eq_error_iff :
    c.ask name siblings dims q = .error fault ↔ c.Stalls name siblings dims q fault := by
  constructor
  · intro h
    unfold ask at h
    rcases bind_eq_error.1 h with h | ⟨proposed, hproposed, h⟩
    · obtain ⟨rfl, hvalue, own, rfl, hsort⟩ := (axes_eq_error_iff hshapes).1 h
      obtain ⟨before, n, after, hcandidates, hbefore, hkey⟩ := naturalSort_eq_error_iff.1 hsort
      exact .unsortable hvalue hcandidates hbefore hkey
    cases proposed with
    | none => exact absurd h pure_ne_error
    | some axisNames =>
      simp only [validAxes] at h
      split at h
      · exact absurd h (by simp)
      · rename_i hnames
        -- the names that were proposed are as many as the dimensions, and distinct
        rw [not_or, not_not, not_not] at hnames
        have hoffers := offers_zip hproposed hnames.1 hnames.2
        obtain ⟨own, rfl, hundecodable⟩ := (axesOfLengths_eq_error_iff hshapes).1 h
        exact .undecodable hoffers hundecodable
  · intro h
    cases h with
    | unsortable hvalue hcandidates hbefore hkey =>
      have hsort := naturalSort_eq_error_iff.2 ⟨_, _, _, hcandidates, hbefore, hkey⟩
      exact bind_eq_error.2 (.inl ((axes_eq_error_iff hshapes).2 ⟨rfl, hvalue, _, rfl, hsort⟩))
    | undecodable hoffers h =>
      rw [ask_of_offers hoffers]
      exact (axesOfLengths_eq_error_iff hshapes).2 ⟨_, rfl, h⟩

/-- A policy finds nothing exactly if it is silent. -/
theorem ask_eq_none_iff :
    c.ask name siblings dims q = .ok none ↔ c.Silent name siblings dims q := by
  simp only [Silent, ← ask_eq_some_iff, ← ask_eq_error_iff hshapes]
  constructor
  · intro h
    rw [h]
    exact ⟨by simp, by simp⟩
  · rintro ⟨hyields, hstalls⟩
    match h : c.ask name siblings dims q with
    | .error fault => exact absurd h (hstalls fault)
    | .ok none => rfl
    | .ok (some axes) => exact absurd h (hyields axes)

end Shapes

-- ---------------------------------------------------------------------------
-- The search
-- ---------------------------------------------------------------------------

/-- The search ends with what the first policy that finds something or goes wrong ends with. -/
theorem axesByPolicies_eq_iff_first {outcome : Except ClassifyFault (Option _)}
    (hfirst : outcome ≠ .ok none) {policies : List Policy} :
    c.axesByPolicies name siblings dims policies = outcome ↔
      ∃ before q after, policies = before ++ q :: after ∧
        (∀ r ∈ before, c.ask name siblings dims r = .ok none) ∧
        c.ask name siblings dims q = outcome := by
  induction policies with
  | nil =>
    -- with no policy left the search comes to nothing, which the outcome is not
    exact iff_of_false (fun h => hfirst h.symm) (by simp)
  | cons q policies ih =>
    rw [axesByPolicies_cons]
    constructor
    · intro h
      split at h
      · rename_i hnone
        obtain ⟨before, r, after, rfl, hbefore, hr⟩ := ih.1 h
        exact ⟨q :: before, r, after, rfl, List.forall_mem_cons.2 ⟨hnone, hbefore⟩, hr⟩
      · exact ⟨[], q, policies, rfl, by simp, h⟩
    · rintro ⟨before, r, after, hsplit, hbefore, hr⟩
      cases before with
      | nil =>
        -- the policy decides, which it does not do by passing
        obtain ⟨rfl, -⟩ := List.cons.inj hsplit
        split
        · rename_i hnone
          exact absurd (hr.symm.trans hnone) hfirst
        · exact hr
      | cons q' before =>
        obtain ⟨rfl, rfl⟩ := List.cons.inj hsplit
        obtain ⟨hnone, hbefore⟩ := List.forall_mem_cons.1 hbefore
        rw [hnone]
        exact ih.2 ⟨before, r, after, rfl, hbefore, hr⟩

/-- The search settles on the axes of the first policy that is not silent. -/
def Settles (c : Classifier) (name : String) (siblings : Siblings) (dims : List Nat)
    (policies : List Policy) (axes : List (String × ArrayView)) : Prop :=
  ∃ before q after, policies = before ++ q :: after ∧
    (∀ r ∈ before, c.Silent name siblings dims r) ∧ c.Yields name siblings dims q axes

/-- The search breaks off at the first policy that is not silent. -/
def Breaks (c : Classifier) (name : String) (siblings : Siblings) (dims : List Nat)
    (policies : List Policy) (fault : ClassifyFault) : Prop :=
  ∃ before q after, policies = before ++ q :: after ∧
    (∀ r ∈ before, c.Silent name siblings dims r) ∧ c.Stalls name siblings dims q fault

/-- Among two views of the siblings the search comes to the same: it settles on the same axes, if on
any, and breaks off for the same fault, if at all. -/
structure Alike (c : Classifier) (name : String) (siblings siblings' : Siblings) (dims : List Nat)
    (policies : List Policy) : Prop where
  settles : ∀ axes, c.Settles name siblings dims policies axes ↔
    c.Settles name siblings' dims policies axes
  breaks : ∀ fault, c.Breaks name siblings dims policies fault ↔
    c.Breaks name siblings' dims policies fault

variable {policies : List Policy}

/-- A search finds axes if some policy settles it with them. -/
theorem axesByPolicies_eq_some_iff (hshapes : ∀ n, ∃ layout, siblings.layout? n = .ok layout) :
    c.axesByPolicies name siblings dims policies = .ok (some axes) ↔
      c.Settles name siblings dims policies axes := by
  rw [axesByPolicies_eq_iff_first (by simp)]
  simp only [ask_eq_none_iff hshapes, ask_eq_some_iff]
  rfl

/-- A search fails if some policy breaks it off. -/
theorem axesByPolicies_eq_error_iff (hshapes : ∀ n, ∃ layout, siblings.layout? n = .ok layout) :
    c.axesByPolicies name siblings dims policies = .error fault ↔
      c.Breaks name siblings dims policies fault := by
  rw [axesByPolicies_eq_iff_first (by simp)]
  simp only [ask_eq_none_iff hshapes, ask_eq_error_iff hshapes]
  rfl

/-- The search ends with nothing exactly if all policies are silent. -/
theorem axesByPolicies_eq_none_iff (hshapes : ∀ n, ∃ layout, siblings.layout? n = .ok layout) :
    c.axesByPolicies name siblings dims policies = .ok none ↔
      ∀ r ∈ policies, c.Silent name siblings dims r := by
  simp only [← ask_eq_none_iff hshapes]
  exact ⟨ask_of_axesByPolicies, axesByPolicies_of_ask⟩

/-- Two searches come to the same exactly if all that decides them is alike. -/
theorem axesByPolicies_eq_iff_alike (hshapes : ∀ n, ∃ layout, siblings.layout? n = .ok layout)
    (hshapes' : ∀ n, ∃ layout, siblings'.layout? n = .ok layout) :
    c.axesByPolicies name siblings dims policies = c.axesByPolicies name siblings' dims policies ↔
      c.Alike name siblings siblings' dims policies := by
  constructor
  · intro h
    constructor
    · intro axes
      rw [← axesByPolicies_eq_some_iff hshapes, ← axesByPolicies_eq_some_iff hshapes', h]
    · intro fault
      rw [← axesByPolicies_eq_error_iff hshapes, ← axesByPolicies_eq_error_iff hshapes', h]
  · rintro ⟨hsettles, hbreaks⟩
    simp only [← axesByPolicies_eq_some_iff hshapes, ← axesByPolicies_eq_some_iff hshapes']
      at hsettles
    simp only [← axesByPolicies_eq_error_iff hshapes, ← axesByPolicies_eq_error_iff hshapes']
      at hbreaks
    -- they agree on axes and on faults, and so on nothing as well
    match h : c.axesByPolicies name siblings dims policies with
    | .error fault => exact ((hbreaks fault).1 h).symm
    | .ok (some axes) => exact ((hsettles axes).1 h).symm
    | .ok none =>
      match h' : c.axesByPolicies name siblings' dims policies with
      | .error fault => exact absurd (h.symm.trans ((hbreaks fault).2 h')) (by simp)
      | .ok (some axes) => exact absurd (h.symm.trans ((hsettles axes).2 h')) (by simp)
      | .ok none => rfl

end Classifier

end DebugLayout
