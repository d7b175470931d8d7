import DebugLayout.Calibration.AxisSearch
import DebugLayout.Proofs.Calibration.NaturalOrder

/-!
# DebugLayout — the search for axes in two views of the siblings

The search for axes sees the siblings of a symbol only by their names, by whether there is one of a
name, and by their layouts. Two views of the same siblings may differ in what they do with those
that have no layout: the **strict** view leaves them out, the **lazy** one only finds out when it
is asked for their layout. The search cannot tell the two views apart, except where a policy is
**obstructed**: where the affix policy settles on a name without layout, or where the positional
policy meets one that cannot be sorted.

The comparison goes policy by policy. Where a policy is not obstructed it proposes the same names in
both views, and each name is validated by its layout, which both views have. The first obstructed
policy is all that is left to look at, and the condition is stated for it alone.

* `Siblings.Narrows`: the strict view of a lazy one;
* `Policy.Obstructed`, `Policy.axes_eq`: where the views differ;
* `Classifier.ask`: what a single policy finds;
* `Classifier.axesByPolicies_eq_iff`: when the search ends alike.
-/

namespace DebugLayout

namespace Siblings

/-- A view of some siblings that leaves out those without layout. -/
structure Narrows (strict lazy : Siblings) : Prop where
  layout : ∀ n, strict.layout? n = lazy.layout? n
  names : strict.names = lazy.names.filter strict.contains
  contains : ∀ n, strict.contains n = true → lazy.contains n = true
  absent : ∀ n, strict.contains n = false → lazy.layout? n = .ok Option.none

end Siblings

namespace Policy

variable {c : Config} {name : String} {dims : List Nat} {strict lazy : Siblings}

/-- A policy is obstructed by a sibling without layout that it settles on as an axis, or whose name
it cannot sort. -/
inductive Obstructed (c : Config) (name : String) (dims : List Nat) (strict lazy : Siblings) :
    Policy → Prop
  | affix {axisNames : List String} {n : String}
      (haxes : affixAxes c name dims lazy = some axisNames) (hn : n ∈ axisNames)
      (habsent : strict.contains n = false) : Obstructed c name dims strict lazy .affix
  | positional {n : String} {fault : Text.NumeralFault}
      (hvalue : c.namesValue name = true) (hn : n ∈ lazy.names)
      (habsent : strict.contains n = false) (haxis : c.namesAxis n = true)
      (hne : n ≠ name) (hkey : naturalKey n = .error fault) :
      Obstructed c name dims strict lazy .positional

-- ---------------------------------------------------------------------------
-- One policy
-- ---------------------------------------------------------------------------

/-- A name that the lazy view settles on is that of the strict view, if it is there. -/
theorem affixed_eq_some (h : strict.Narrows lazy) {suffixes prefixes : List String} {n : String}
    (hlazy : affixed name suffixes prefixes lazy = some n) (hn : strict.contains n = true) :
    affixed name suffixes prefixes strict = some n := by
  unfold affixed at *
  obtain ⟨hpred, before, after, hsplit, hbefore⟩ := List.find?_eq_some_iff_append.1 hlazy
  rw [List.find?_eq_some_iff_append]
  refine ⟨?_, before, after, hsplit, fun m hm => ?_⟩
  · rw [Bool.and_eq_true] at *
    exact ⟨hpred.1, hn⟩
  · have hm := hbefore m hm
    rw [Bool.not_eq_true', Bool.and_eq_false_iff] at *
    refine hm.imp_right fun hlazy => ?_
    by_contra hstrict
    rw [Bool.not_eq_false] at hstrict
    -- what the strict view holds the lazy one holds as well
    rw [h.contains m hstrict] at hlazy
    exact absurd hlazy (by simp)

/-- Where the lazy view finds no name, there is none. -/
theorem affixed_eq_none (h : strict.Narrows lazy) {suffixes prefixes : List String}
    (hlazy : affixed name suffixes prefixes lazy = none) :
    affixed name suffixes prefixes strict = none := by
  unfold affixed at *
  rw [List.find?_eq_none] at *
  intro m hm hstrict
  rw [Bool.and_eq_true] at hstrict
  refine hlazy m hm ?_
  rw [Bool.and_eq_true]
  exact ⟨hstrict.1, h.contains m hstrict.2⟩

/-- The affix policy proposes the same in both views when all that it proposes is there. -/
theorem affixAxes_eq (h : strict.Narrows lazy)
    (hthere : ∀ axisNames, affixAxes c name dims lazy = some axisNames →
      ∀ n ∈ axisNames, strict.contains n = true) :
    affixAxes c name dims strict = affixAxes c name dims lazy := by
  unfold affixAxes at *
  cases hx : affixed name c.xSuffixes c.xPrefixes lazy with
  | none => rw [affixed_eq_none h hx]
  | some x =>
    -- only one and two dimensions have axes to be found
    match dims with
    | [n] =>
      have hthere := hthere [x] (by rw [hx])
      rw [affixed_eq_some h hx (hthere x (by simp))]
    | [rows, columns] =>
      cases hy : affixed name c.ySuffixes c.yPrefixes lazy with
      | none =>
        rw [affixed_eq_none h hy]
        cases affixed name c.xSuffixes c.xPrefixes strict <;> rfl
      | some y =>
        have hthere := hthere [x, y] (by rw [hx, hy]; rfl)
        rw [affixed_eq_some h hx (hthere x (by simp)), affixed_eq_some h hy (hthere y (by simp))]
    | [] => cases affixed name c.xSuffixes c.xPrefixes strict <;> rfl
    | _ :: _ :: _ :: _ => cases affixed name c.xSuffixes c.xPrefixes strict <;> rfl

/-- The lengths of axes do not depend on the siblings without layout. -/
theorem axisLengths_eq (h : strict.Narrows lazy) (names : List String) :
    axisLengths strict (names.filter strict.contains) = axisLengths lazy names := by
  induction names with
  | nil => rfl
  | cons n names ih =>
    rw [axisLengths]
    cases hn : strict.contains n with
    | true =>
      rw [List.filter_cons_of_pos hn, axisLengths, h.layout, ih]
    | false =>
      rw [List.filter_cons_of_neg (by simp [hn]), h.absent n hn, ih]
      show axisLengths lazy names = (axisLengths lazy names >>= pure)
      rw [bind_pure]

/-- The positional policy proposes the same in both views when all absent names can be sorted. -/
theorem positionalAxes_eq (h : strict.Narrows lazy)
    (hkeys : c.namesValue name = true → ∀ n ∈ lazy.names,
      strict.contains n = false → c.namesAxis n = true → n ≠ name →
        ∃ key, naturalKey n = .ok key) :
    positionalAxes c name dims strict = positionalAxes c name dims lazy := by
  unfold positionalAxes
  cases hvalue : c.namesValue name with
  | false => rfl
  | true =>
    -- all absent names can be sorted, so that to leave them out before the sort or after it is the
    -- same
    have hsort : ∀ n ∈ lazy.names.filter fun n => c.namesAxis n && n ≠ name,
        strict.contains n = false → ∃ key, naturalKey n = .ok key := by
      intro n hn habsent
      obtain ⟨hmem, hn⟩ := List.mem_filter.1 hn
      rw [Bool.and_eq_true, decide_eq_true_eq] at hn
      exact hkeys hvalue n hmem habsent hn.1 hn.2
    simp only
    rw [h.names, List.filter_comm, naturalSort_filter hsort]
    cases naturalSort (lazy.names.filter fun n => c.namesAxis n && n ≠ name) with
    | error fault => rfl
    | ok sorted =>
      show (axisLengths strict (sorted.filter strict.contains) >>= _) =
        (axisLengths lazy sorted >>= _)
      rw [axisLengths_eq h]

/-- A policy that is not obstructed proposes the same in both views. -/
theorem axes_eq (h : strict.Narrows lazy) {q : Policy}
    (hq : ¬Obstructed c name dims strict lazy q) :
    q.axes c name dims strict = q.axes c name dims lazy := by
  cases q with
  | explicit => rfl
  | affix =>
    refine congrArg Except.ok (affixAxes_eq h fun axisNames haxes n hn => ?_)
    by_contra habsent
    exact hq (.affix haxes hn (by simpa using habsent))
  | positional =>
    refine positionalAxes_eq h fun hvalue n hn habsent haxis hne => ?_
    cases hkey : naturalKey n with
    | error fault => exact absurd (.positional hvalue hn habsent haxis hne hkey) hq
    | ok key => exact ⟨key, rfl⟩

end Policy

-- ---------------------------------------------------------------------------
-- The chain of policies
-- ---------------------------------------------------------------------------

namespace Classifier

variable {c : Classifier} {name : String} {dims : List Nat} {strict lazy : Siblings}

/-- The check of proposed axes looks at layouts only, and so is the same in both views. -/
theorem axesOfLengths_eq (h : strict.Narrows lazy) (expected : List (String × Nat)) :
    c.axesOfLengths name strict expected = c.axesOfLengths name lazy expected := by
  induction expected with
  | nil => rfl
  | cons e rest ih =>
    obtain ⟨axisName, length⟩ := e
    rw [axesOfLengths, axesOfLengths, h.layout, ih]

/-- Axes that are checked strictly are the axes that are checked lazily, where the one view is
narrower than the other. -/
theorem validAxes_eq (h : strict.Narrows lazy) (axisNames : List String) :
    c.validAxes name strict dims axisNames = c.validAxes name lazy dims axisNames := by
  unfold validAxes
  rw [axesOfLengths_eq h]

/-- What a single policy finds: the axes that it proposes, if they are valid. -/
def ask (c : Classifier) (name : String) (siblings : Siblings) (dims : List Nat) (q : Policy) :
    Except ClassifyFault (Option (List (String × ArrayView))) := do
  match ← q.axes c.config name dims siblings with
  | none => return none
  | some axisNames => c.validAxes name siblings dims axisNames

/-- All that the check of a proposed axis and of those after it can end with, other than a fault or
nothing. -/
theorem axesOfLengths_cons {siblings : Siblings} {axisName : String} {length : Nat}
    {rest : List (String × Nat)} {axes : List (String × ArrayView)}
    (h : c.axesOfLengths name siblings ((axisName, length) :: rest) = .ok (some axes)) :
    ∃ layout axis others, axisName ≠ name ∧ siblings.layout? axisName = .ok (some layout) ∧
      asAxis layout = some axis ∧ axis.length = length ∧
      c.isMonotonic axis.elements = .ok true ∧
      c.axesOfLengths name siblings rest = .ok (some others) ∧
      axes = (axisName, axis) :: others := by
  rw [axesOfLengths] at h
  -- the four checks of a name in their order: itself, its array, the length, the order of values
  split at h
  · exact absurd (pure_eq_ok.1 h) (by simp)
  · rename_i hname
    obtain ⟨layout, hlayout, h⟩ := bind_eq_ok.1 h
    split at h
    · exact absurd (pure_eq_ok.1 h) (by simp)
    · rename_i axis haxis
      obtain ⟨layout, rfl, haxis⟩ := Option.bind_eq_some_iff.1 haxis
      split at h
      · exact absurd (pure_eq_ok.1 h) (by simp)
      · rename_i hlength
        obtain ⟨monotonic, hmonotonic, h⟩ := bind_eq_ok.1 h
        split at h
        · exact absurd (pure_eq_ok.1 h) (by simp)
        · rename_i htrue
          obtain ⟨others, hothers, h⟩ := bind_eq_ok.1 h
          obtain ⟨others, rfl, rfl⟩ := Option.map_eq_some_iff.1 (pure_eq_ok.1 h)
          have htrue : monotonic = true := by simpa using htrue
          subst htrue
          exact ⟨layout, axis, others, hname, mapError_eq_ok.1 hlayout, haxis,
            Decidable.not_not.1 hlength, mapError_eq_ok.1 hmonotonic, hothers, rfl⟩

/-- There is one valid axis for each length. -/
theorem axesOfLengths_length {siblings : Siblings} {expected : List (String × Nat)}
    {axes : List (String × ArrayView)}
    (h : c.axesOfLengths name siblings expected = .ok (some axes)) :
    axes.length = expected.length := by
  induction expected generalizing axes with
  | nil =>
    rw [axesOfLengths, Except.ok.injEq, Option.some.injEq] at h
    rw [← h]
    rfl
  | cons e rest ih =>
    obtain ⟨layout, axis, others, -, -, -, -, -, hothers, rfl⟩ := axesOfLengths_cons h
    rw [List.length_cons, List.length_cons, ih hothers]

/-- The first policy that finds axes decides. -/
theorem axesByPolicies_cons (c : Classifier) (name : String) (siblings : Siblings)
    (dims : List Nat) (q : Policy) (qs : List Policy) :
    c.axesByPolicies name siblings dims (q :: qs) =
      match c.ask name siblings dims q with
      | .ok none => c.axesByPolicies name siblings dims qs
      | found => found := by
  rw [axesByPolicies, ask]
  cases q.axes c.config name dims siblings with
  | error fault => rfl
  | ok proposed =>
    cases proposed with
    | none => rfl
    | some axisNames =>
      show (c.validAxes name siblings dims axisNames >>= _) = _
      cases hvalid : c.validAxes name siblings dims axisNames with
      | error fault => simp only [bind, Except.bind, hvalid]
      | ok axes => cases axes <;> simp only [bind, Except.bind, hvalid, pure, Except.pure]

/-- Policies that find nothing may be skipped. -/
theorem axesByPolicies_append {siblings : Siblings} {before : List Policy}
    (h : c.axesByPolicies name siblings dims before = .ok none) (after : List Policy) :
    c.axesByPolicies name siblings dims (before ++ after) =
      c.axesByPolicies name siblings dims after := by
  induction before with
  | nil => rfl
  | cons q before ih =>
    rw [axesByPolicies_cons] at h
    rw [List.cons_append, axesByPolicies_cons]
    cases hask : c.ask name siblings dims q with
    | error fault => simp only [hask] at h; exact absurd h (by simp)
    | ok axes =>
      cases axes with
      | none =>
        -- a policy that comes to nothing hands over to the next one
        simp only [hask] at h
        exact ih h
      | some axes => simp only [hask] at h; exact absurd h (by simp)

/-- The search ends alike in both views exactly if it does so from every obstructed policy on that
it comes to in both of them. -/
theorem axesByPolicies_eq_iff (h : strict.Narrows lazy) (policies : List Policy) :
    c.axesByPolicies name lazy dims policies = c.axesByPolicies name strict dims policies ↔
      ∀ before q after, policies = before ++ q :: after →
        q.Obstructed c.config name dims strict lazy →
        c.axesByPolicies name lazy dims before = .ok none →
        c.axesByPolicies name strict dims before = .ok none →
        c.axesByPolicies name lazy dims (q :: after) =
          c.axesByPolicies name strict dims (q :: after) := by
  constructor
  · rintro heq before q after rfl - hlazy hstrict
    rw [axesByPolicies_append hlazy, axesByPolicies_append hstrict] at heq
    exact heq
  · intro hsame
    induction policies with
    | nil => rfl
    | cons q qs ih =>
      -- the first obstructed policy decides, and before it the two searches ask alike
      by_cases hq : q.Obstructed c.config name dims strict lazy
      · exact hsame [] q qs rfl hq rfl rfl
      · have hask : c.ask name strict dims q = c.ask name lazy dims q := by
          unfold ask
          rw [Policy.axes_eq h hq]
          simp only [validAxes_eq h]
        rw [axesByPolicies_cons, axesByPolicies_cons, hask]
        cases hfound : c.ask name lazy dims q with
        | error fault => rfl
        | ok axes =>
          cases axes with
          | some axes => rfl
          | none =>
            refine ih fun before r after hsplit hr hlazy hstrict => ?_
            refine hsame (q :: before) r after (by rw [hsplit]; rfl) hr ?_ ?_
            · rw [axesByPolicies_cons, hfound]
              exact hlazy
            · rw [axesByPolicies_cons, hask, hfound]
              exact hstrict

end Classifier

end DebugLayout
