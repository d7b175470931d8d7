import DebugLayout.Proofs.Calibration.Yield
import DebugLayout.Proofs.Program.Placement

/-!
# DebugLayout — siblings that cannot be laid out

A symbol is classified among its siblings, which are laid out one by one when the search for axes
looks at them. Whether there is a sibling of a name is answered by the names of the symbols alone,
so that one without storage is there by name and has no layout. This module compares the result with
that of a search among the siblings that **can** be laid out, all of them laid out beforehand.

The condition is about the first obstructed policy. A policy before it asks the same of both views
of the siblings, and whether a later one is asked at all depends on what the obstructed one comes
to. It is a condition on what that policy finds in the siblings, not on how the search proceeds.

* `Program.laidOut`: those siblings;
* `Program.narrows_laidOut`: they are the strict view of the others;
* `Program.SearchAgrees`: the condition on the policies under which both searches come to the same;
* `Program.resolve_eq_resolveAmong_iff`: when both lead to the same object.
-/

namespace DebugLayout

/-- Of the layouts that there are the one of a name is found. -/
theorem Siblings.findLayout_filterMap (layout? : String → Option LayoutNode) (name : String)
    (names : List String) :
    findLayout name (names.filterMap fun other => (layout? other).map (other, ·)) =
      if name ∈ names then layout? name else Option.none := by
  induction names with
  | nil => rfl
  | cons other names ih =>
    by_cases heq : other = name
    · subst heq
      cases hlayout : layout? other with
      | none =>
        rw [List.filterMap_cons_none (by rw [hlayout]; rfl), ih, hlayout]
        simp
      | some layout =>
        rw [List.filterMap_cons_some (by rw [hlayout]; rfl), findLayout]
        simp
    · cases hlayout : layout? other with
      | none =>
        rw [List.filterMap_cons_none (by rw [hlayout]; rfl), ih]
        simp [Ne.symm heq]
      | some layout =>
        rw [List.filterMap_cons_some (by rw [hlayout]; rfl), findLayout, if_neg heq, ih]
        simp [Ne.symm heq]

theorem Siblings.names_filterMap (layout? : String → Option LayoutNode) (names : List String) :
    (names.filterMap fun other => (layout? other).map (other, ·)).map (·.1) =
      names.filter fun other => (layout? other).isSome := by
  induction names with
  | nil => rfl
  | cons other names ih =>
    cases hlayout : layout? other with
    | none =>
      rw [List.filterMap_cons_none (by rw [hlayout]; rfl),
        List.filter_cons_of_neg (by simp [hlayout]), ih]
    | some layout =>
      rw [List.filterMap_cons_some (by rw [hlayout]; rfl),
        List.filter_cons_of_pos (by simp [hlayout]), List.map_cons, ih]

namespace Program

variable {p : Program} {name : String} {layout : LayoutNode}

/-- The other symbols that can be laid out, in order, with their layouts. -/
def laidOut (p : Program) (name : String) : List (String × LayoutNode) :=
  (p.names.filter (· ≠ name)).filterMap fun other => (p.layoutOf other).toOption.map (other, ·)

/-- Whether laying the other symbols out ends with no fault but those of single symbols. -/
def SiblingsSound (p : Program) (name : String) : Prop :=
  ∀ other ∈ p.names, other ≠ name → ∀ fault, p.layoutOf other ≠ .error (.layout (.shape fault))

theorem layoutOf_of_not_mem {other : String} (h : other ∉ p.names) :
    p.layoutOf other = .error (.unknown other) := by
  have hnone : p.variableIndex.get? other = none := by
    rw [← Option.not_isSome_iff_eq_none]
    exact fun hsome => h (OrderedMap.contains_iff.1 hsome)
  rw [layoutOf, hnone]
  rfl

/-- A sibling that is looked at has the layout that it would have had beforehand. -/
theorem siblingLayout_eq (h : p.SiblingsSound name) (other : String) :
    p.siblingLayout name other =
      .ok (if other ∈ p.names.filter (· ≠ name) then (p.layoutOf other).toOption else none) := by
  unfold siblingLayout
  by_cases hname : other = name
  · rw [if_pos hname, if_neg (by simp [hname])]
  · rw [if_neg hname]
    by_cases hmem : other ∈ p.names
    · rw [if_pos (List.mem_filter.2 ⟨hmem, by simpa using hname⟩)]
      cases hlayout : p.layoutOf other with
      | ok layout => rfl
      | error fault =>
        split
        · rename_i heq
          exact absurd heq (by simp)
        · rename_i shape heq
          -- a shape that fails would end the search, which is excluded
          exact absurd (hlayout.trans heq) (h other hmem hname shape)
        · rfl
    · rw [if_neg (fun hfilter => hmem (List.mem_filter.1 hfilter).1), layoutOf_of_not_mem hmem]

/-- The siblings that can be laid out are a strict view of all of them. -/
theorem narrows_laidOut (h : p.SiblingsSound name) :
    (Siblings.ofList (p.laidOut name)).Narrows (p.siblings name) := by
  -- what is listed is exactly what could be laid out
  have hfind : ∀ n, Siblings.findLayout n (p.laidOut name) =
      if n ∈ p.names.filter (· ≠ name) then (p.layoutOf n).toOption else none :=
    fun n => Siblings.findLayout_filterMap (fun other => (p.layoutOf other).toOption) n _
  refine ⟨fun n => ?_, ?_, fun n hn => ?_, fun n hn => ?_⟩
  · show Except.ok _ = p.siblingLayout name n
    rw [hfind, siblingLayout_eq h]
  · show (p.laidOut name).map (·.1) = (p.names.filter (· ≠ name)).filter _
    rw [laidOut, Siblings.names_filterMap fun other => (p.layoutOf other).toOption]
    refine List.filter_congr fun n hn => ?_
    show _ = (Siblings.findLayout n (p.laidOut name)).isSome
    rw [hfind, if_pos hn]
  · have hn : (Siblings.findLayout n (p.laidOut name)).isSome = true := hn
    rw [hfind] at hn
    split at hn
    · rename_i hmem
      obtain ⟨hmem, hne⟩ := List.mem_filter.1 hmem
      show (decide (n ≠ name) && p.hasSymbol n) = true
      rw [Bool.and_eq_true]
      exact ⟨hne, OrderedMap.contains_iff.2 hmem⟩
    · exact absurd hn (by simp)
  · have hn : (Siblings.findLayout n (p.laidOut name)).isSome = false := hn
    show p.siblingLayout name n = .ok none
    rw [siblingLayout_eq h, ← hfind, Option.isSome_eq_false_iff.1 hn |> Option.isNone_iff_eq_none.1]

-- ---------------------------------------------------------------------------
-- Resolving among siblings
-- ---------------------------------------------------------------------------

/-- A symbol by its name, classified among some siblings. -/
def resolveAmong (p : Program) (siblings : Siblings) (name : String) :
    Except ResolveFault Resolved := do
  let layout ← p.layoutOf name
  let calibration ← (p.classifier.classify name layout siblings).mapError .classify
  return ⟨name, layout, calibration⟩

/-- From every obstructed policy on that the search for the axes of a symbol comes to, because those
before it are silent, it comes to the same among all siblings as among those that can be laid out. A
policy is obstructed by a symbol without layout that it settles on as an axis, or that it cannot
sort. -/
def SearchAgrees (p : Program) (name : String) (layout : LayoutNode) : Prop :=
  let c := p.classifier
  let strict := Siblings.ofList (p.laidOut name)
  let lazy := p.siblings name
  ∀ value before q after, c.sought layout = some value →
    c.config.policies = before ++ q :: after →
    q.Obstructed c.config name value.dims strict lazy →
    (∀ r ∈ before, c.Silent name lazy value.dims r) →
    (∀ r ∈ before, c.Silent name strict value.dims r) →
    c.Alike name lazy strict value.dims (q :: after)

/-- Two lists of siblings lead to the same symbol exactly if it is classified alike among them. -/
theorem resolveAmong_eq_iff (hlayout : p.layoutOf name = .ok layout)
    (siblings siblings' : Siblings) :
    p.resolveAmong siblings name = p.resolveAmong siblings' name ↔
      p.classifier.classify name layout siblings = p.classifier.classify name layout siblings' := by
  have hamong : ∀ siblings, p.resolveAmong siblings name =
      ((p.classifier.classify name layout siblings).mapError .classify).map
        (⟨name, layout, ·⟩) := by
    intro siblings
    rw [resolveAmong, hlayout]
    show (Except.mapError ResolveFault.classify _ >>= _) = _
    cases p.classifier.classify name layout siblings <;> rfl
  rw [hamong, hamong]
  refine ⟨fun h => ?_, fun h => by rw [h]⟩
  refine mapError_injective (fun _ _ heq => ResolveFault.classify.inj heq) ?_
  exact map_injective (fun _ _ heq => (Resolved.mk.inj heq).2.2) h

/-- A symbol is resolved as it is among the siblings that can be laid out, exactly if the search for
its axes agrees. -/
theorem resolve_eq_resolveAmong_iff (hlayout : p.layoutOf name = .ok layout)
    (hsiblings : p.SiblingsSound name) :
    p.resolve name = p.resolveAmong (.ofList (p.laidOut name)) name ↔
      p.SearchAgrees name layout := by
  have hnarrows := narrows_laidOut hsiblings
  have hlazy : ∀ n, ∃ layout, (p.siblings name).layout? n = .ok layout :=
    fun n => ⟨_, siblingLayout_eq hsiblings n⟩
  have hstrict : ∀ n, ∃ layout, (Siblings.ofList (p.laidOut name)).layout? n = .ok layout :=
    fun n => ⟨_, rfl⟩
  show p.resolveAmong (p.siblings name) name = _ ↔ _
  -- from the outcomes to the axes, and from those to the first obstructed policy
  rw [resolveAmong_eq_iff hlayout, Classifier.classify_eq_iff]
  constructor
  · intro h value before q after hvalue hsplit hobstructed hbefore hbefore'
    refine (Classifier.axesByPolicies_eq_iff_alike hlazy hstrict).1 ?_
    exact (Classifier.axesByPolicies_eq_iff hnarrows _).1 (h value hvalue) before q after hsplit
      hobstructed ((Classifier.axesByPolicies_eq_none_iff hlazy).2 hbefore)
      ((Classifier.axesByPolicies_eq_none_iff hstrict).2 hbefore')
  · intro h value hvalue
    refine (Classifier.axesByPolicies_eq_iff hnarrows _).2 ?_
    intro before q after hsplit hobstructed hbefore hbefore'
    refine (Classifier.axesByPolicies_eq_iff_alike hlazy hstrict).2 ?_
    exact h value before q after hvalue hsplit hobstructed
      ((Classifier.axesByPolicies_eq_none_iff hlazy).1 hbefore)
      ((Classifier.axesByPolicies_eq_none_iff hstrict).1 hbefore')

-- ---------------------------------------------------------------------------
-- An axis without storage
-- ---------------------------------------------------------------------------

/-- A unit with a table `Torque`, an axis `x_Torque`, and a declaration of `Torque_x`, which is
defined elsewhere. -/
def declaringUnit : Entry :=
  .node 1 Tag.compileUnit (.ofList [(Attr.name, .text "a.c")])
    [.node 2 Tag.baseType
        (.ofList [(Attr.name, .text "short"), (Attr.byteSize, .int 2), (Attr.encoding, .int 5)]) [],
      .node 3 Tag.arrayType (.ofList [(Attr.type, .int 2)])
        [.node 4 Tag.subrangeType (.ofList [(Attr.count, .int 3)]) []],
      .node 5 Tag.variable_ (.ofList [(Attr.name, .text "Torque"), (Attr.type, .int 3),
        (Attr.location, .int 0x1000)]) [],
      .node 6 Tag.variable_ (.ofList [(Attr.name, .text "x_Torque"), (Attr.type, .int 3),
        (Attr.location, .int 0x2000)]) [],
      .node 7 Tag.variable_ (.ofList [(Attr.name, .text "Torque_x"), (Attr.type, .int 3),
        (Attr.declaration, .bool true)]) []]

/-- The program of that unit alone. -/
def unlinked : Program :=
  .load (Store.empty.addRoot declaringUnit).1 .empty .standard none none .default defaultDepth

theorem unlinked_siblingsSound (name : String) : unlinked.SiblingsSound name := by
  have hnames : unlinked.names = ["Torque", "x_Torque", "Torque_x"] := rfl
  have htable : ∃ layout, unlinked.layoutOf "Torque" = .ok layout := ⟨_, rfl⟩
  have hprefixed : ∃ layout, unlinked.layoutOf "x_Torque" = .ok layout := ⟨_, rfl⟩
  have hsuffixed : unlinked.layoutOf "Torque_x" = .error (.unmapped (.name "Torque_x")) := rfl
  intro other hmem _ fault hfault
  rw [hnames] at hmem
  simp only [List.mem_cons, List.not_mem_nil, or_false] at hmem
  rcases hmem with rfl | rfl | rfl
  · obtain ⟨layout, hlayout⟩ := htable
    exact absurd (hlayout.symm.trans hfault) (by simp)
  · obtain ⟨layout, hlayout⟩ := hprefixed
    exact absurd (hlayout.symm.trans hfault) (by simp)
  · exact absurd (hsuffixed.symm.trans hfault) (by simp)

/-- The search agrees for the axis, which looks for none of the three, and not for the table. -/
theorem resolve_eq_resolveAmong_iff_unlinked :
    (∃ layout, unlinked.layoutOf "x_Torque" = .ok layout ∧
      unlinked.resolve "x_Torque" =
        unlinked.resolveAmong (.ofList (unlinked.laidOut "x_Torque")) "x_Torque" ∧
      unlinked.SearchAgrees "x_Torque" layout) ∧
    ∃ layout, unlinked.layoutOf "Torque" = .ok layout ∧
      unlinked.resolve "Torque" ≠
        unlinked.resolveAmong (.ofList (unlinked.laidOut "Torque")) "Torque" ∧
      ¬unlinked.SearchAgrees "Torque" layout := by
  have hsame : unlinked.resolve "x_Torque" =
      unlinked.resolveAmong (.ofList (unlinked.laidOut "x_Torque")) "x_Torque" := rfl
  have hdiffer : unlinked.resolve "Torque" ≠
      unlinked.resolveAmong (.ofList (unlinked.laidOut "Torque")) "Torque" := nofun
  refine ⟨⟨_, rfl, hsame, ?_⟩, _, rfl, hdiffer, fun hagrees => hdiffer ?_⟩
  · exact (resolve_eq_resolveAmong_iff rfl (unlinked_siblingsSound _)).1 hsame
  · exact (resolve_eq_resolveAmong_iff rfl (unlinked_siblingsSound _)).2 hagrees

/-- The declared name, which has no storage, hides the axis: the table is a block without axes, and
a curve among the symbols that can be laid out. -/
theorem declared_name_hides_axis :
    unlinked.SiblingsSound "Torque" ∧ ∃ layout value axis,
      unlinked.layoutOf "Torque" = .ok layout ∧
      unlinked.resolve "Torque" = .ok ⟨"Torque", layout, some (.valueBlock "Torque" layout value)⟩ ∧
      unlinked.classifier.classify "Torque" layout (.ofList (unlinked.laidOut "Torque")) =
        .ok (some (.curve "Torque" layout value axis)) :=
  ⟨unlinked_siblingsSound _, _, _, _, rfl, rfl, rfl⟩

end Program

end DebugLayout
