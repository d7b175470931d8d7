import DebugLayout.Proofs.Calibration.Faults
import DebugLayout.Proofs.Layout.Shapeless
import DebugLayout.Proofs.Program.Siblings

/-!
# DebugLayout — resolving all symbols

When all symbols are resolved, a fault of a symbol is part of its outcome and the others go on. Two
kinds of faults are none of a symbol and end it all, wherever they come up, also when a symbol is
looked at as a sibling of another one: numbers that make no shape, and names that are no natural
keys. Nothing else can come in between, so that all symbols are resolved exactly if neither of the
two comes up for one of them.

Both obstacles are stated by what is there: where the variable lies and what its type is made of,
and the names of the symbols and the policies of the configuration. That they are the faults which
end it all is a theorem.

* `Program.resolveEach_eq_ok`: the outcomes of some symbols;
* `Program.Shapeless`, `shapeless_iff`: the first obstacle, and the fault that it leads to;
* `Program.Unsortable`, `unsortable_iff`: the second one;
* `Program.isOfSymbol_of_resolve`: any other fault is one of the symbol alone;
* `Program.resolveAll_eq_ok_iff`: when all symbols are resolved.
-/

namespace DebugLayout

namespace Program

variable {p : Program} {name : String}

/-- The outcomes of some symbols are those that each of them has by itself, and there are some
unless a fault comes up that is none of a symbol. -/
theorem resolveEach_eq_ok {names : List String} {results : List Result} :
    p.resolveEach names = .ok results ↔
      results = names.map (fun name => ⟨name, p.resolve name⟩) ∧
        ∀ name ∈ names, ∀ fault, p.resolve name = .error fault → fault.isOfSymbol = true := by
  induction names generalizing results with
  | nil =>
    rw [resolveEach, Except.ok.injEq, List.map_nil]
    exact ⟨fun h => ⟨h.symm, by simp⟩, fun h => h.1.symm⟩
  | cons name names ih =>
    rw [resolveEach, List.forall_mem_cons, List.map_cons]
    cases hname : p.resolve name with
    | ok r =>
      simp only [map_eq_ok, ih]
      constructor
      · rintro ⟨rest, ⟨rfl, hnames⟩, rfl⟩
        exact ⟨rfl, by simp, hnames⟩
      · rintro ⟨rfl, -, hnames⟩
        exact ⟨_, ⟨rfl, hnames⟩, rfl⟩
    | error fault =>
      simp only
      -- only a fault of the symbol itself is put into its result
      cases hown : fault.isOfSymbol with
      | true =>
        simp only [if_true, map_eq_ok, ih]
        constructor
        · rintro ⟨rest, ⟨rfl, hnames⟩, rfl⟩
          exact ⟨rfl, fun fault' h => by rwa [← Except.error.inj h], hnames⟩
        · rintro ⟨rfl, -, hnames⟩
          exact ⟨_, ⟨rfl, hnames⟩, rfl⟩
      | false =>
        simp only [Bool.false_eq_true, if_false]
        refine iff_of_false (by simp) ?_
        rintro ⟨-, hfault, -⟩
        have := hfault fault rfl
        rw [hown] at this
        exact absurd this (by simp)

-- ---------------------------------------------------------------------------
-- Obstacles
-- ---------------------------------------------------------------------------

/-- A symbol is shapeless if its variable is placed in the regions, other than at zero, and its type
comes to an array without shape within the levels of a layout. -/
inductive Shapeless (p : Program) (name : String) : Prop
  | intro {v : Variable} {type a size : Int} (hv : p.variableIndex.get? name = some v)
      (htype : p.store.variableType? v.entry = some type) (hlocate : p.locate v = (some a, size))
      (hzero : a ≠ 0) (hregions : p.regions.all (·.contain a size) = true)
      (hmeets : p.graph.Meets (p.depth + 1) type) : Shapeless p name

/-- A symbol is unsortable if axes are sought for it, by the positional policy after all policies in
front of it have been silent, and one of the other symbols that could be an axis by that policy has
a name that is no natural key. -/
inductive Unsortable (p : Program) (name : String) : Prop
  | intro {layout : LayoutNode} {value : ArrayView} {before after : List Policy} {n : String}
      {fault : Text.NumeralFault} (hlayout : p.layoutOf name = .ok layout)
      (hsought : p.classifier.sought layout = some value)
      (hpolicies : p.classifier.config.policies = before ++ .positional :: after)
      (hsilent : ∀ r ∈ before, p.classifier.Silent name (p.siblings name) value.dims r)
      (hvalue : p.classifier.config.namesValue name = true) (hn : n ∈ p.names) (hne : n ≠ name)
      (haxis : p.classifier.config.namesAxis n = true) (hkey : naturalKey n = .error fault) :
      Unsortable p name

/-- A symbol is not resolved because it has no layout, or because it cannot be classified. -/
theorem resolve_eq_error {fault : ResolveFault} :
    p.resolve name = .error fault ↔ p.layoutOf name = .error fault ∨
      ∃ layout own, p.layoutOf name = .ok layout ∧
        p.classifier.classify name layout (p.siblings name) = .error own ∧
        fault = .classify own := by
  unfold resolve
  rw [bind_eq_error]
  refine or_congr_right ⟨?_, ?_⟩
  · rintro ⟨layout, hlayout, h⟩
    rcases bind_eq_error.1 h with h | ⟨calibration, -, h⟩
    · obtain ⟨own, hown, rfl⟩ := mapError_eq_error.1 h
      exact ⟨layout, own, hlayout, hown, rfl⟩
    · exact absurd h pure_ne_error
  · rintro ⟨layout, own, hlayout, hown, rfl⟩
    exact ⟨layout, hlayout, bind_eq_error.2 (.inl (mapError_eq_error.2 ⟨own, hown, rfl⟩))⟩

/-- A symbol without layout has no storage or no debug information, or its type has none. -/
theorem layoutOf_eq_error {fault : ResolveFault} (h : p.layoutOf name = .error fault) :
    fault.isUnmapped = true ∨ ∃ v type a own, p.variableIndex.get? name = some v ∧
      p.store.variableType? v.entry = some type ∧ p.addressOf name = .ok a ∧
      p.graph.layout p.depth type a name = .error own ∧ fault = .layout own := by
  unfold layoutOf at h
  split at h
  · obtain rfl := Except.error.inj h
    exact .inl rfl
  · rename_i type htype
    obtain ⟨v, hv, htype⟩ := Option.bind_eq_some_iff.1 htype
    -- the address comes first, and its faults are all of one kind
    rcases bind_eq_error.1 h with h | ⟨a, ha, h⟩
    · left
      unfold addressOf at h
      rw [hv] at h
      simp only at h
      split at h
      · obtain rfl := Except.error.inj h
        rfl
      · obtain rfl := Except.error.inj h
        rfl
      · split at h
        · exact absurd h (by simp)
        · obtain rfl := Except.error.inj h
          rfl
    · obtain ⟨own, hown, rfl⟩ := mapError_eq_error.1 h
      exact .inr ⟨v, type, a, own, hv, htype, ha, hown, rfl⟩

/-- The layout of a symbol stops at numbers that make no shape exactly if the symbol is
shapeless. -/
theorem shapeless_iff :
    p.Shapeless name ↔ ∃ fault, p.layoutOf name = .error (.layout (.shape fault)) := by
  constructor
  · rintro ⟨hv, htype, hlocate, hzero, hregions, hmeets⟩
    have ha := addressOf_eq_ok.2 ⟨_, _, hv, hlocate, hzero, hregions⟩
    obtain ⟨fault, hfault⟩ := (TypeGraph.meets_iff _ name).1 hmeets
    refine ⟨fault, ?_⟩
    rw [layoutOf, hv, Option.bind_some, htype]
    exact bind_eq_error.2 (.inr ⟨_, ha, mapError_eq_error.2 ⟨_, hfault, rfl⟩⟩)
  · rintro ⟨fault, h⟩
    rcases layoutOf_eq_error h with hunmapped | ⟨v, type, a, own, hv, htype, ha, hlayout, heq⟩
    · exact absurd hunmapped (by simp [ResolveFault.isUnmapped])
    obtain rfl := ResolveFault.layout.inj heq
    obtain ⟨v', size, hv', hlocate, hzero, hregions⟩ := addressOf_eq_ok.1 ha
    obtain rfl := Option.some.inj (hv.symm.trans hv')
    exact .intro hv htype hlocate hzero hregions ((TypeGraph.meets_iff a name).2 ⟨fault, hlayout⟩)

/-- A symbol without layout that is not shapeless has a fault of its own. -/
theorem isOfSymbol_of_layoutOf {fault : ResolveFault} (h : p.layoutOf name = .error fault)
    (hshape : ¬p.Shapeless name) : fault.isOfSymbol = true := by
  cases fault with
  | unmapped | outside | unknown => rfl
  | layout own =>
    cases own with
    | tooDeep | unresolved => rfl
    | shape own => exact absurd (shapeless_iff.2 ⟨own, h⟩) hshape
  | classify own =>
    rcases layoutOf_eq_error h with hunmapped | ⟨_, _, _, _, _, _, _, _, hlayout⟩
    · exact absurd hunmapped (by simp [ResolveFault.isUnmapped])
    · exact absurd hlayout (by simp)

/-- A sibling that turns out to have no shape is a shapeless symbol. -/
theorem shapeless_of_siblingLayout {other : String} {fault : ShapeFault}
    (h : p.siblingLayout name other = .error fault) : other ∈ p.names ∧ p.Shapeless other := by
  unfold siblingLayout at h
  split at h
  · exact absurd h (by simp)
  · split at h
    · exact absurd h (by simp)
    · rename_i hlayout
      refine ⟨?_, shapeless_iff.2 ⟨_, hlayout⟩⟩
      by_contra hmem
      rw [layoutOf_of_not_mem hmem] at hlayout
      exact absurd hlayout (by simp)
    · exact absurd h (by simp)

-- ---------------------------------------------------------------------------
-- All symbols
-- ---------------------------------------------------------------------------

section Sound

variable (hsound : ∀ {ref node}, p.graph.resolve ref = .ok node → node.body.Sound)
include hsound

/-- The layouts of a loaded program are sized. -/
theorem sized_of_layoutOf {layout : LayoutNode} (h : p.layoutOf name = .ok layout) :
    layout.Sized := by
  obtain ⟨v, type, a, -, -, -, h⟩ := layoutOf_eq_ok.1 h
  exact TypeGraph.sized_of_expandWith hsound (TypeGraph.layoutWith_eq_ok.1 h)

/-- The layouts that siblings have in a loaded program are sized. -/
theorem sized_of_siblingLayout {other : String} {layout : LayoutNode}
    (h : p.siblingLayout name other = .ok (some layout)) : layout.Sized := by
  unfold siblingLayout at h
  split at h
  · exact absurd h (by simp)
  · split at h
    · rename_i hlayout
      obtain rfl := Option.some.inj (Except.ok.inj h)
      exact sized_of_layoutOf hsound hlayout
    · exact absurd h (by simp)
    · exact absurd h (by simp)

/-- Classification goes wrong only if a sibling is shapeless or the symbol is unsortable. -/
theorem impeded_of_resolve {fault : ResolveFault} (h : p.resolve name = .error fault) :
    p.layoutOf name = .error fault ∨
      ∃ own, fault = .classify own ∧ p.classifier.Impeded name (p.siblings name) own := by
  refine (resolve_eq_error.1 h).imp_right ?_
  rintro ⟨layout, own, hlayout, hown, rfl⟩
  exact ⟨own, rfl, Classifier.impeded_of_classify (fun h => sized_of_siblingLayout hsound h)
    (sized_of_layoutOf hsound hlayout) hown⟩

omit hsound in
/-- Without shapeless symbols every sibling is laid out or left out. -/
theorem exists_siblingLayout (hshapes : ∀ other ∈ p.names, ¬p.Shapeless other) (n : String) :
    ∃ layout, (p.siblings name).layout? n = .ok layout := by
  cases hn : (p.siblings name).layout? n with
  | ok layout => exact ⟨layout, rfl⟩
  | error fault =>
    obtain ⟨hmem, hshapeless⟩ := shapeless_of_siblingLayout hn
    exact absurd hshapeless (hshapes n hmem)

omit hsound in
/-- For an unsortable symbol the search comes to the positional policy, and fails there. -/
theorem Unsortable.exists_numeral (h : p.Unsortable name)
    (hshapes : ∀ other ∈ p.names, ¬p.Shapeless other) :
    ∃ fault, p.resolve name = .error (.classify (.numeral fault)) := by
  obtain ⟨hlayout, hsought, hpolicies, hsilent, hvalue, hn, hne, haxis, hkey⟩ := h
  rename_i layout value before after n fault
  have hcandidate : n ∈ (p.siblings name).names.filter
      fun n => p.classifier.config.namesAxis n && n ≠ name := by
    rw [List.mem_filter, Bool.and_eq_true, decide_eq_true_eq]
    exact ⟨List.mem_filter.2 ⟨hn, by simpa using hne⟩, haxis, hne⟩
  -- the fault is that of the first candidate without key
  obtain ⟨own, hsort⟩ := naturalSort_eq_error hcandidate hkey
  obtain ⟨_, _, _, hcandidates, hkeys, hown⟩ := naturalSort_eq_error_iff.1 hsort
  have hbreaks : p.classifier.externalAxes name (p.siblings name) value.dims =
      .error (.numeral own) :=
    (Classifier.axesByPolicies_eq_error_iff (exists_siblingLayout hshapes)).2
      ⟨before, .positional, after, hpolicies, hsilent,
        .unsortable hvalue hcandidates hkeys hown⟩
  refine ⟨own, resolve_eq_error.2 (.inr ⟨layout, _, hlayout, ?_, rfl⟩)⟩
  rw [Classifier.classify_of_sought hsought, hbreaks]
  rfl

/-- A symbol whose classification ends at a numeral was laid out, and the search for the axes of its
array came to a name without key. -/
theorem unsortable_of_numeral (hshapes : ∀ other ∈ p.names, ¬p.Shapeless other)
    {fault : Text.NumeralFault} (h : p.resolve name = .error (.classify (.numeral fault))) :
    p.Unsortable name := by
  rcases resolve_eq_error.1 h with h | ⟨layout, own, hlayout, hown, heq⟩
  · rcases layoutOf_eq_error h with hunmapped | ⟨_, _, _, _, _, _, _, _, heq⟩
    · exact absurd hunmapped (by simp [ResolveFault.isUnmapped])
    · exact absurd heq (by simp)
  obtain rfl := ResolveFault.classify.inj heq
  cases hsought : p.classifier.sought layout with
  | none =>
    -- without a search the siblings do not matter, and without siblings nothing goes wrong
    rw [Classifier.classify_of_not_sought hsought name (p.siblings name) .none] at hown
    cases Classifier.impeded_of_classify (fun h => absurd h (by simp [Siblings.none,
      Siblings.ofList, Siblings.findLayout])) (sized_of_layoutOf hsound hlayout) hown with
    | numeral _ _ hn => exact absurd hn (by simp [Siblings.none, Siblings.ofList])
  | some value =>
    rw [Classifier.classify_of_sought hsought, map_eq_error] at hown
    obtain ⟨before, q, after, hpolicies, hsilent, hstalls⟩ :=
      (Classifier.axesByPolicies_eq_error_iff (exists_siblingLayout hshapes)).1 hown
    cases hstalls with
    | @unsortable _ _ n _ hvalue hcandidates _ hkey =>
      have hn : n ∈ (p.siblings name).names.filter
          fun n => p.classifier.config.namesAxis n && n ≠ name := by
        rw [hcandidates]
        simp
      rw [List.mem_filter, Bool.and_eq_true, decide_eq_true_eq] at hn
      exact .intro hlayout hsought hpolicies hsilent hvalue (List.mem_filter.1 hn.1).1 hn.2.2
        hn.2.1 hkey

/-- If no symbol is shapeless, a symbol cannot be classified for want of natural keys exactly if it
is unsortable. -/
theorem unsortable_iff (hshapes : ∀ other ∈ p.names, ¬p.Shapeless other) :
    p.Unsortable name ↔ ∃ fault, p.resolve name = .error (.classify (.numeral fault)) := by
  constructor
  · exact fun h => h.exists_numeral hshapes
  · rintro ⟨fault, h⟩
    exact unsortable_of_numeral hsound hshapes h

/-- Without obstacles, a symbol that is not resolved has a fault of its own. -/
theorem isOfSymbol_of_resolve (hshapes : ∀ other ∈ p.names, ¬p.Shapeless other)
    (hsort : ¬p.Unsortable name) (hname : name ∈ p.names) {fault : ResolveFault}
    (h : p.resolve name = .error fault) : fault.isOfSymbol = true := by
  rcases impeded_of_resolve hsound h with hlayout | ⟨own, rfl, himpeded⟩
  · exact isOfSymbol_of_layoutOf hlayout (hshapes name hname)
  · cases himpeded with
    | sibling hother =>
      obtain ⟨hmem, hshapeless⟩ := shapeless_of_siblingLayout hother
      exact absurd hshapeless (hshapes _ hmem)
    | numeral => exact absurd ((unsortable_iff hsound hshapes).2 ⟨_, h⟩) hsort

/-- A shapeless symbol contains an array with a negative dimension or stride. -/
theorem misshapen_of_shapeless (h : p.Shapeless name) :
    ∃ v type t, p.variableIndex.get? name = some v ∧
      p.store.variableType? v.entry = some type ∧ p.graph.Reaches type t ∧ p.graph.Misshapen t := by
  obtain ⟨hv, htype, -, -, -, hmeets⟩ := h
  obtain ⟨fault, hlayout⟩ := (TypeGraph.meets_iff 0 name).1 hmeets
  obtain ⟨t, hreach, hbad⟩ := TypeGraph.misshapen_of_layout hsound hlayout
  exact ⟨_, _, t, hv, htype, hreach, hbad⟩

/-- A symbol that cannot be classified for want of natural keys may have axes by their position, and
one of the other symbols that could be such an axis has a name that is no natural key. -/
theorem exists_of_numeral {fault : Text.NumeralFault}
    (h : p.resolve name = .error (.classify (.numeral fault))) :
    .positional ∈ p.classifier.config.policies ∧
      p.classifier.config.namesValue name = true ∧
      ∃ n ∈ p.names, n ≠ name ∧ p.classifier.config.namesAxis n = true ∧
        ∃ fault, naturalKey n = .error fault := by
  rcases impeded_of_resolve hsound h with hlayout | ⟨own, heq, himpeded⟩
  · rcases layoutOf_eq_error hlayout with hunmapped | ⟨_, _, _, _, _, _, _, _, heq⟩
    · exact absurd hunmapped (by simp [ResolveFault.isUnmapped])
    · exact absurd heq (by simp)
  · obtain rfl := ResolveFault.classify.inj heq
    cases himpeded with
    | numeral hpolicy hvalue hn haxis hne hkey =>
      exact ⟨hpolicy, hvalue, _, (List.mem_filter.1 hn).1, hne, haxis, _, hkey⟩

end Sound

/-- A unit with an array whose elements are listed from its end on, and a number beside it. -/
def backwardUnit : Entry :=
  .node 1 Tag.compileUnit (.ofList [(Attr.name, .text "a.c")])
    [.node 2 Tag.baseType
        (.ofList [(Attr.name, .text "int"), (Attr.byteSize, .int 4), (Attr.encoding, .int 5)]) [],
      .node 3 Tag.arrayType (.ofList [(Attr.type, .int 2), (Attr.byteStride, .int (-4))])
        [.node 4 Tag.subrangeType (.ofList [(Attr.count, .int 3)]) []],
      .node 5 Tag.variable_ (.ofList [(Attr.name, .text "x"), (Attr.type, .int 2),
        (Attr.location, .int 0x1000)]) [],
      .node 6 Tag.variable_ (.ofList [(Attr.name, .text "history"), (Attr.type, .int 3),
        (Attr.location, .int 0x2000)]) []]

/-- The program of that unit alone. -/
def backward : Program :=
  .load (Store.empty.addRoot backwardUnit).1 .empty .standard none none .default defaultDepth

end Program

end DebugLayout
