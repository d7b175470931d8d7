import DebugLayout.Proofs.Calibration.Positional
import DebugLayout.Proofs.Calibration.Soundness
import Mathlib.Data.List.Find

/-!
# DebugLayout — the siblings that matter

A symbol is classified among its siblings, but most of them have no say: only those that a policy
may **consult** do, which are the axes that the configuration names for the symbol, the names it
has with one of the configured affixes, and, for the name of a curve or a map, the names of axes.
Two views of the siblings that agree on the names consulted lead to the same object, whatever else
there is and wherever it stands.

The explicit policy reads the names that are configured for the symbol, the affix policy those with
an affix, the positional policy those that its patterns admit. In each case the proposal consists of
consulted names, and so do the look-ups that follow.

* `Config.Consults`: the names that matter for a symbol;
* `Siblings.AgreeOn`: views that differ in other names only;
* `Policy.axes_congr`, `Policy.consults_of_axes`: what a policy reads, and what it proposes;
* `Classifier.axesByPolicies_congr`, `Classifier.classify_congr`: the same for the search and for
  the classification;
* `Classifier.classify_unconsulted`: siblings that are not consulted come and go unnoticed.
-/

namespace DebugLayout

/-- The names that matter for the classification of a symbol. -/
inductive Config.Consults (c : Config) (name n : String) : Prop
  | explicit {axes : AxisNames} (haxes : c.explicitAxes.get? name = some axes)
      (hn : n ∈ axes.names) : Consults c name n
  | suffixed {affix : String} (haffix : affix ∈ c.xSuffixes ∨ affix ∈ c.ySuffixes)
      (hn : n = name ++ affix) : Consults c name n
  | prefixed {affix : String} (haffix : affix ∈ c.xPrefixes ∨ affix ∈ c.yPrefixes)
      (hn : n = affix ++ name) : Consults c name n
  | positional (hvalue : c.namesValue name = true)
      (haxis : c.namesAxis n = true) : Consults c name n

namespace Siblings

/-- Two views of the siblings agree on some names: they list these in the same order and with the
same layouts. -/
structure AgreeOn (keep : String → Bool) (siblings siblings' : Siblings) : Prop where
  names : siblings.names.filter keep = siblings'.names.filter keep
  contains : ∀ n, keep n = true → siblings.contains n = siblings'.contains n
  layout : ∀ n, keep n = true → siblings.layout? n = siblings'.layout? n

/-- Dropping other siblings does not change what is found under a name. -/
theorem findLayout_filter {keep : String → Bool} {n : String} (hn : keep n = true)
    (layouts : List (String × LayoutNode)) :
    findLayout n (layouts.filter fun e => keep e.1) = findLayout n layouts := by
  induction layouts with
  | nil => rfl
  | cons e layouts ih =>
    obtain ⟨other, layout⟩ := e
    by_cases hother : other = n
    · subst hother
      rw [List.filter_cons_of_pos (by simpa using hn), findLayout, findLayout, if_pos rfl,
        if_pos rfl]
    · cases hkeep : keep other with
      | true =>
        rw [List.filter_cons_of_pos (by simpa using hkeep), findLayout, findLayout, if_neg hother,
          if_neg hother, ih]
      | false =>
        rw [List.filter_cons_of_neg (by simp [hkeep]), findLayout, if_neg hother, ih]

/-- Lists of layouts agree on the names that they list alike. -/
theorem agreeOn_ofList {keep : String → Bool} {layouts layouts' : List (String × LayoutNode)}
    (h : layouts.filter (fun e => keep e.1) = layouts'.filter fun e => keep e.1) :
    (ofList layouts).AgreeOn keep (ofList layouts') := by
  have hfind : ∀ n, keep n = true → findLayout n layouts = findLayout n layouts' := by
    intro n hn
    rw [← findLayout_filter hn layouts, h, findLayout_filter hn]
  refine ⟨?_, fun n hn => ?_, fun n hn => ?_⟩
  · show (layouts.map Prod.fst).filter keep = (layouts'.map Prod.fst).filter keep
    rw [List.filter_map, List.filter_map]
    exact congrArg (List.map Prod.fst) h
  · show (findLayout n layouts).isSome = (findLayout n layouts').isSome
    rw [hfind n hn]
  · show Except.ok (findLayout n layouts) = Except.ok (findLayout n layouts')
    rw [hfind n hn]

end Siblings

namespace Policy

variable {c : Config} {name : String} {dims : List Nat} {siblings siblings' : Siblings}
  {keep : String → Bool}

-- ---------------------------------------------------------------------------
-- What a policy proposes
-- ---------------------------------------------------------------------------

/-- A name that is found by affixes is that of the symbol with one of them. -/
theorem mem_of_affixed {suffixes prefixes : List String} {n : String}
    (h : affixed name suffixes prefixes siblings = some n) :
    (∃ affix ∈ suffixes, n = name ++ affix) ∨ ∃ affix ∈ prefixes, n = affix ++ name := by
  have hmem := List.mem_of_find?_eq_some h
  rcases List.mem_append.1 hmem with hmem | hmem
  · obtain ⟨affix, haffix, rfl⟩ := List.mem_map.1 hmem
    exact .inl ⟨affix, haffix, rfl⟩
  · obtain ⟨affix, haffix, rfl⟩ := List.mem_map.1 hmem
    exact .inr ⟨affix, haffix, rfl⟩

theorem consults_of_affixed_x {n : String}
    (h : affixed name c.xSuffixes c.xPrefixes siblings = some n) : c.Consults name n := by
  rcases mem_of_affixed h with ⟨affix, haffix, hn⟩ | ⟨affix, haffix, hn⟩
  · exact .suffixed (.inl haffix) hn
  · exact .prefixed (.inl haffix) hn

theorem consults_of_affixed_y {n : String}
    (h : affixed name c.ySuffixes c.yPrefixes siblings = some n) : c.Consults name n := by
  rcases mem_of_affixed h with ⟨affix, haffix, hn⟩ | ⟨affix, haffix, hn⟩
  · exact .suffixed (.inr haffix) hn
  · exact .prefixed (.inr haffix) hn

/-- The axes found by affixes are consulted. -/
theorem consults_of_affixAxes {axisNames : List String}
    (h : affixAxes c name dims siblings = some axisNames) {n : String} (hn : n ∈ axisNames) :
    c.Consults name n := by
  unfold affixAxes at h
  split at h
  · rename_i x _ hx
    obtain rfl := Option.some.inj h
    obtain rfl := List.mem_singleton.1 hn
    exact consults_of_affixed_x hx
  · rename_i x _ _ hx
    obtain ⟨y, hy, rfl⟩ := Option.map_eq_some_iff.1 h
    rcases List.mem_cons.1 hn with rfl | hn
    · exact consults_of_affixed_x hx
    · obtain rfl := List.mem_singleton.1 hn
      exact consults_of_affixed_y hy
  · exact absurd h (by simp)

/-- Axes that fit are among those whose length is known. -/
theorem mem_of_fitting {lengths : List (String × Nat)} {axisNames : List String}
    (h : fitting lengths dims = some axisNames) {n : String} (hn : n ∈ axisNames) :
    n ∈ lengths.map Prod.fst := by
  have hlength : ∀ {m : String} {k : Nat}, m ∈ ofLength lengths k → m ∈ lengths.map Prod.fst := by
    intro m k hm
    obtain ⟨e, he, rfl⟩ := List.mem_map.1 hm
    exact List.mem_map_of_mem (List.mem_of_mem_filter he)
  -- by the number of dimensions, one or two; two of one length have to be the only ones
  unfold fitting at h
  split at h
  · obtain ⟨x, hx, rfl⟩ := Option.map_eq_some_iff.1 h
    obtain rfl := List.mem_singleton.1 hn
    exact hlength (List.mem_of_mem_head? hx)
  · split at h
    · rename_i x y hx hy
      split at h
      · exact absurd h (by simp)
      · obtain rfl := Option.some.inj h
        rcases List.mem_cons.1 hn with rfl | hn
        · exact hlength (hx ▸ List.mem_cons_self)
        · obtain rfl := List.mem_singleton.1 hn
          exact hlength (hy ▸ List.mem_cons_self)
    · rename_i x y hxy
      split at h
      · obtain rfl := Option.some.inj h
        exact hlength (hxy ▸ hn)
      · exact absurd h (by simp)
    · exact absurd h (by simp)
  · exact absurd h (by simp)

/-- Lengths are found for candidates only. -/
theorem mem_of_axisLengths {names : List String} {lengths : List (String × Nat)}
    (h : axisLengths siblings names = .ok lengths) {n : String}
    (hn : n ∈ lengths.map Prod.fst) : n ∈ names := by
  rcases forall_layout_or siblings names with hall | ⟨before, m, after, fault, rfl, hbefore, hm⟩
  · rw [axisLengths_of_layouts hall, Except.ok.injEq] at h
    subst h
    obtain ⟨e, he, rfl⟩ := List.mem_map.1 hn
    obtain ⟨m, hm, he⟩ := List.mem_filterMap.1 he
    obtain ⟨k, -, rfl⟩ := Option.map_eq_some_iff.1 he
    exact hm
  · rw [axisLengths_append hbefore hm] at h
    exact absurd h (by simp)

theorem consults_of_positionalAxes {axisNames : List String}
    (h : positionalAxes c name dims siblings = .ok (some axisNames)) {n : String}
    (hn : n ∈ axisNames) : c.Consults name n := by
  cases hvalue : c.namesValue name with
  | false =>
    rw [positionalAxes_of_not_match hvalue] at h
    exact absurd h (by simp)
  | true =>
    rw [positionalAxes_of_match hvalue] at h
    obtain ⟨sorted, hsorted, h⟩ := bind_eq_ok.1 h
    obtain ⟨lengths, hlengths, h⟩ := bind_eq_ok.1 h
    have hmem := mem_of_axisLengths hlengths (mem_of_fitting (pure_eq_ok.1 h) hn)
    have hmem := (perm_of_naturalSort (mapError_eq_ok.1 hsorted)).mem_iff.1 hmem
    exact .positional hvalue (mem_candidates.1 hmem).2.1

/-- A policy proposes names that matter only. -/
theorem consults_of_axes {q : Policy} {axisNames : List String}
    (h : q.axes c name dims siblings = .ok (some axisNames)) {n : String} (hn : n ∈ axisNames) :
    c.Consults name n := by
  cases q with
  | explicit =>
    have hnames := Option.eq_some_of_filter_eq_some (Except.ok.inj h)
    obtain ⟨axes, haxes, rfl⟩ := Option.map_eq_some_iff.1 hnames
    exact .explicit haxes hn
  | affix => exact consults_of_affixAxes (Except.ok.inj h) hn
  | positional => exact consults_of_positionalAxes h hn

-- ---------------------------------------------------------------------------
-- What a policy reads
-- ---------------------------------------------------------------------------

section AgreeOn

variable (h : siblings.AgreeOn keep siblings')
include h

/-- What is found by affixes is the same, if the names with these affixes are kept. -/
theorem affixed_congr {suffixes prefixes : List String}
    (hsuffixes : ∀ affix ∈ suffixes, keep (name ++ affix) = true)
    (hprefixes : ∀ affix ∈ prefixes, keep (affix ++ name) = true) :
    affixed name suffixes prefixes siblings = affixed name suffixes prefixes siblings' := by
  refine List.find?_congr fun candidate hcandidate => ?_
  have hkeep : keep candidate = true := by
    rcases List.mem_append.1 hcandidate with hmem | hmem
    · obtain ⟨affix, haffix, rfl⟩ := List.mem_map.1 hmem
      exact hsuffixes affix haffix
    · obtain ⟨affix, haffix, rfl⟩ := List.mem_map.1 hmem
      exact hprefixes affix haffix
  rw [h.contains candidate hkeep]

variable (hkeep : ∀ n, c.Consults name n → keep n = true)
include hkeep

/-- The axes found by affixes are the same where what is consulted is the same. -/
theorem affixAxes_congr : affixAxes c name dims siblings = affixAxes c name dims siblings' := by
  have hx : affixed name c.xSuffixes c.xPrefixes siblings =
      affixed name c.xSuffixes c.xPrefixes siblings' :=
    affixed_congr h (fun _ haffix => hkeep _ (.suffixed (.inl haffix) rfl))
      fun _ haffix => hkeep _ (.prefixed (.inl haffix) rfl)
  have hy : affixed name c.ySuffixes c.yPrefixes siblings =
      affixed name c.ySuffixes c.yPrefixes siblings' :=
    affixed_congr h (fun _ haffix => hkeep _ (.suffixed (.inr haffix) rfl))
      fun _ haffix => hkeep _ (.prefixed (.inr haffix) rfl)
  unfold affixAxes
  rw [hx, hy]

/-- Candidates for axes are consulted, so that both views list the same. -/
theorem candidates_congr (hvalue : c.namesValue name = true) :
    candidates c name siblings = candidates c name siblings' := by
  have hcandidates : ∀ names : List String,
      (names.filter fun n => c.namesAxis n && n ≠ name) =
        (names.filter keep).filter fun n => c.namesAxis n && n ≠ name := by
    intro names
    rw [List.filter_filter]
    refine List.filter_congr fun n _ => ?_
    cases haxis : c.namesAxis n with
    | false => simp
    | true => simp [hkeep n (.positional hvalue haxis)]
  rw [candidates, candidates, hcandidates, h.names, ← hcandidates]

/-- The axes found by position are the same where what is consulted is the same. -/
theorem positionalAxes_congr :
    positionalAxes c name dims siblings = positionalAxes c name dims siblings' := by
  cases hvalue : c.namesValue name with
  | false => rw [positionalAxes_of_not_match hvalue, positionalAxes_of_not_match hvalue]
  | true =>
    rw [positionalAxes_of_match hvalue, positionalAxes_of_match hvalue,
      candidates_congr h hkeep hvalue]
    cases hsorted : naturalSort (candidates c name siblings') with
    | error fault => rfl
    | ok sorted =>
      -- the lengths are asked of candidates, which the policy consults
      have hlengths : axisLengths siblings sorted = axisLengths siblings' sorted := by
        refine axisLengths_congr fun n hn => h.layout n (hkeep n ?_)
        have hn := (perm_of_naturalSort hsorted).mem_iff.1 hn
        exact .positional hvalue (mem_candidates.1 hn).2.1
      show (axisLengths siblings sorted >>= _) = (axisLengths siblings' sorted >>= _)
      rw [hlengths]

/-- A policy reads names that matter only. -/
theorem axes_congr (q : Policy) :
    q.axes c name dims siblings = q.axes c name dims siblings' := by
  cases q with
  | explicit => rfl
  | affix => exact congrArg Except.ok (affixAxes_congr h hkeep)
  | positional => exact positionalAxes_congr h hkeep

end AgreeOn

end Policy

-- ---------------------------------------------------------------------------
-- The search and the classification
-- ---------------------------------------------------------------------------

namespace Classifier

variable {c : Classifier} {name : String} {layout : LayoutNode} {dims : List Nat}
  {siblings siblings' : Siblings}

/-- The check of proposed axes reads their layouts only. -/
theorem axesOfLengths_congr {expected : List (String × Nat)}
    (h : ∀ e ∈ expected, siblings.layout? e.1 = siblings'.layout? e.1) :
    c.axesOfLengths name siblings expected = c.axesOfLengths name siblings' expected := by
  induction expected with
  | nil => rfl
  | cons e rest ih =>
    obtain ⟨axisName, length⟩ := e
    rw [axesOfLengths, axesOfLengths, h _ List.mem_cons_self,
      ih fun e he => h e (List.mem_cons_of_mem _ he)]

/-- Axes are checked alike where their layouts are the same. -/
theorem validAxes_congr {axisNames : List String}
    (h : ∀ n ∈ axisNames, siblings.layout? n = siblings'.layout? n) :
    c.validAxes name siblings dims axisNames = c.validAxes name siblings' dims axisNames := by
  unfold validAxes
  rw [axesOfLengths_congr fun e he => h e.1 (List.of_mem_zip he).1]

/-- The search for axes ends alike in two views in which every policy proposes the same names, with
the same layouts. -/
theorem axesByPolicies_congr {policies : List Policy}
    (haxes : ∀ q ∈ policies, q.axes c.config name dims siblings =
      q.axes c.config name dims siblings')
    (hlayout : ∀ q ∈ policies, ∀ axisNames,
      q.axes c.config name dims siblings = .ok (some axisNames) →
        ∀ n ∈ axisNames, siblings.layout? n = siblings'.layout? n) :
    c.axesByPolicies name siblings dims policies =
      c.axesByPolicies name siblings' dims policies := by
  induction policies with
  | nil => rfl
  | cons q qs ih =>
    have ih := ih (fun r hr => haxes r (List.mem_cons_of_mem q hr))
      fun r hr => hlayout r (List.mem_cons_of_mem q hr)
    -- the policy proposes the same, and the layouts of its names are the same
    have hask : c.ask name siblings dims q = c.ask name siblings' dims q := by
      unfold ask
      rw [← haxes q List.mem_cons_self]
      cases hproposed : q.axes c.config name dims siblings with
      | error fault => rfl
      | ok proposed =>
        cases proposed with
        | none => rfl
        | some axisNames =>
          exact validAxes_congr (hlayout q List.mem_cons_self axisNames hproposed)
    rw [axesByPolicies_cons, axesByPolicies_cons, hask, ih]

/-- Two views of the siblings that agree on the names consulted lead to the same object. -/
theorem classify_congr {keep : String → Bool} (h : siblings.AgreeOn keep siblings')
    (hkeep : ∀ n, c.config.Consults name n → keep n = true) :
    c.classify name layout siblings = c.classify name layout siblings' := by
  rw [classify_eq_iff]
  intro value _
  refine axesByPolicies_congr (fun q _ => Policy.axes_congr h hkeep q) ?_
  intro q _ axisNames hproposed n hn
  exact h.layout n (hkeep n (Policy.consults_of_axes hproposed hn))

/-- A sibling that is not consulted has no say: the symbol is the same object in any two views that
agree on the other names, with the sibling or without it, and with whatever layout it has. -/
theorem classify_unconsulted (c : Classifier) (name : String) (layout : LayoutNode) {s : String}
    (hs : ¬c.config.Consults name s) :
    (∀ siblings siblings' : Siblings, siblings.AgreeOn (· ≠ s) siblings' →
      c.classify name layout siblings = c.classify name layout siblings') ∧
    (∀ before after sLayout,
      c.classify name layout (.ofList (before ++ (s, sLayout) :: after)) =
        c.classify name layout (.ofList (before ++ after))) ∧
    ∀ before after sLayout sLayout',
      c.classify name layout (.ofList (before ++ (s, sLayout) :: after)) =
        c.classify name layout (.ofList (before ++ (s, sLayout') :: after)) := by
  have hkeep : ∀ n, c.config.Consults name n → decide (n ≠ s) = true := by
    rintro n hn
    rw [decide_eq_true_eq]
    rintro rfl
    exact hs hn
  refine ⟨fun _ _ h => classify_congr h hkeep, fun before after sLayout => ?_,
    fun before after sLayout sLayout' => ?_⟩
  · exact classify_congr (Siblings.agreeOn_ofList (by simp)) hkeep
  · exact classify_congr (Siblings.agreeOn_ofList (by simp)) hkeep

/-- A third array between the axes of a map has no say in it. -/
theorem classify_unconsulted_torque :
    ¬plainClassifier.config.Consults "Torque" "Torque_z" ∧
      plainClassifier.classify "Torque" torque.toNode
        (.ofList [("Torque_x", torqueX.toNode), ("Torque_z", torqueX.toNode),
          ("Torque_y", torqueY.toNode)]) = .ok (some torqueMap) := by
  -- the name is none of those that the policies of the plain classifier look at
  have hs : ¬plainClassifier.config.Consults "Torque" "Torque_z" := by
    intro h
    cases h with
    | explicit haxes hn =>
      have hnone : plainClassifier.config.explicitAxes.get? "Torque" = none := rfl
      rw [hnone] at haxes
      exact absurd haxes (by simp)
    | suffixed haffix hn =>
      simp only [plainClassifier, Config.default, Settings.compiled, Settings.default,
        List.mem_singleton] at haffix
      rcases haffix with rfl | rfl <;> exact absurd hn (by decide)
    | prefixed haffix hn =>
      simp only [plainClassifier, Config.default, Settings.compiled, Settings.default,
        List.mem_singleton] at haffix
      rcases haffix with rfl | rfl <;> exact absurd hn (by decide)
    | positional hvalue _ => exact absurd hvalue (by decide)
  obtain ⟨-, hinsert, -⟩ := classify_unconsulted plainClassifier "Torque" torque.toNode hs
  exact ⟨hs, (hinsert [("Torque_x", torqueX.toNode)] [("Torque_y", torqueY.toNode)] _).trans rfl⟩

end Classifier

end DebugLayout
