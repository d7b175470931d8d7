import DebugLayout.Proofs.Layout.Unfolded
import DebugLayout.TypeGraph.Build

/-!
# DebugLayout — folding keeps the leaves

An array whose elements are arrays is expanded as one array of all the dimensions, as far as there
are no gaps. Wherever the expansion that folds nothing succeeds, so does this one, and the leaves
are the same, with one reservation: folding looks at the types of elements even where there are no
elements. An array of none, which otherwise is laid out without them, for this reason has no layout
if one of these types is missing.

One step of the folding puts the dimensions of the inner array behind those of the outer one, if the
outer stride is the extent of the inner array. The unfolded expansion loses one level by it, and so
the comparison is one of different levels: folded, an array needs fewer of them.

* `TypeGraph.EmptyArraysFold`: whether the arrays without elements can be folded;
* `TypeGraph.foldNested_invariant`: what one step of the folding keeps, the whole folding keeps;
* `TypeGraph.Unrolled`: an array that is unrolled, `Unrolled.step` and `foldNested_run`;
* `TypeGraph.Keeps`, `keeps_foldAll`: one expansion against another, level by level;
* `TypeGraph.layout_of_unfolded`: the two layouts of a symbol.
-/

namespace DebugLayout

open LayoutNode (trace Alike)

namespace TypeGraph

variable {g : TypeGraph}

-- ---------------------------------------------------------------------------
-- Arrays without elements
-- ---------------------------------------------------------------------------

/-- Whether all arrays without elements that an expansion comes to can be folded. -/
def EmptyArraysFold (g : TypeGraph) : Nat → Int → Prop
  | 0, _ => True
  | levels + 1, ref =>
    match g.resolve ref with
    | .error _ => True
    | .ok node =>
      match node.body with
      | .array element dims stride _ =>
        if 0 ∈ dims then ∃ folded, g.arrayShape g.foldAll element dims stride = .ok folded
        else EmptyArraysFold g levels element
      | .composite _ _ members _ => ∀ m ∈ members, EmptyArraysFold g levels m.typeRef
      | _ => True

section Known

variable {levels : Nat} {ref element : Int} {node : TypeNode} {dims : List Int}
  {stride size : Option Int} (hnode : g.resolve ref = .ok node)
include hnode

/-- An array without elements is no obstacle as long as it has a shape. -/
theorem emptyArraysFold_empty (hbody : node.body = .array element dims stride size)
    (hzero : 0 ∈ dims) :
    g.EmptyArraysFold (levels + 1) ref ↔
      ∃ folded, g.arrayShape g.foldAll element dims stride = .ok folded := by
  rw [EmptyArraysFold, hnode]
  simp only [hbody, if_pos hzero]

/-- An array with elements is no obstacle if its elements are none. -/
theorem emptyArraysFold_array (hbody : node.body = .array element dims stride size)
    (hzero : 0 ∉ dims) :
    g.EmptyArraysFold (levels + 1) ref ↔ g.EmptyArraysFold levels element := by
  rw [EmptyArraysFold, hnode]
  simp only [hbody, if_neg hzero]

theorem emptyArraysFold_composite {kind : CompositeKind} {members : List Member} {isClass : Bool}
    (hbody : node.body = .composite kind size members isClass) :
    g.EmptyArraysFold (levels + 1) ref ↔ ∀ m ∈ members, g.EmptyArraysFold levels m.typeRef := by
  rw [EmptyArraysFold, hnode]
  simp only [hbody]

/-- Scalars and pointers are no obstacle. -/
theorem emptyArraysFold_leaf
    (harray : ∀ element dims stride size, node.body ≠ .array element dims stride size)
    (hcomposite : node.body.isComposite = false) : g.EmptyArraysFold (levels + 1) ref := by
  rw [EmptyArraysFold, hnode]
  cases hbody : node.body with
  | array => exact absurd hbody (harray _ _ _ _)
  | composite =>
    rw [hbody] at hcomposite
    exact absurd hcomposite (by simp [TypeBody.isComposite])
  | _ => simp only [hbody]

end Known

-- ---------------------------------------------------------------------------
-- The folding
-- ---------------------------------------------------------------------------

/-- Dimensions that are not negative have as many elements as the shape that they make. -/
theorem elementCount_eq {dims : List Int} (h : ∀ d ∈ dims, 0 ≤ d) :
    elementCount dims = ArrayShape.countOf (dims.map Int.toNat) := by
  induction dims with
  | nil => rfl
  | cons d ds ih =>
    have hd : (d.toNat : Int) = d := Int.toNat_of_nonneg (h d (List.mem_cons_self ..))
    have hds := ih fun d' hd' => h d' (List.mem_cons_of_mem _ hd')
    rw [List.map_cons, ArrayShape.countOf, Int.natCast_mul, hd, ← hds]
    rfl

/-- What one step of the folding comes to. -/
inductive FoldStep (g : TypeGraph) (steps : Nat) (dims : List Int) (element : Int)
    (stride : Option Int) : Except Dangling (List Int × Int × Option Int) → Prop
  | stop : FoldStep g steps dims element stride (.ok (dims, element, stride))
  | nest {node : TypeNode} {innerElement innerStride : Int} {innerDims : List Int}
      {explicit size : Option Int} (hnode : g.resolve element = .ok node)
      (hbody : node.body = .array innerElement innerDims explicit size) (hzero : 0 ∉ innerDims)
      (hstride : g.arrayStride innerElement explicit = .ok (some innerStride))
      (hfit : stride = some (innerStride * elementCount innerDims)) :
      FoldStep g steps dims element stride
        (g.foldNested steps (dims ++ innerDims) innerElement (some innerStride))
  | missing {fault : Dangling} (h : g.resolve element = .error fault) :
      FoldStep g steps dims element stride (.error fault)
  | faulty {node : TypeNode} {innerElement : Int} {innerDims : List Int}
      {explicit size : Option Int} {fault : Dangling} (hnode : g.resolve element = .ok node)
      (hbody : node.body = .array innerElement innerDims explicit size)
      (h : g.arrayStride innerElement explicit = .error fault) :
      FoldStep g steps dims element stride (.error fault)

/-- Folding takes one step and goes on from there. -/
theorem foldNested_succ (steps : Nat) (dims : List Int) (element : Int) (stride : Option Int) :
    g.FoldStep steps dims element stride (g.foldNested (steps + 1) dims element stride) := by
  rw [foldNested]
  cases hnode : g.resolve element with
  | error fault => exact .missing hnode
  | ok node =>
    simp only [bind, Except.bind]
    split
    · rename_i innerElement innerDims explicit size hbody
      split
      · -- an inner array without elements is left alone
        exact .stop
      · rename_i hzero
        cases hstride : g.arrayStride innerElement explicit with
        | error fault => exact .faulty hnode hbody hstride
        | ok innerStride =>
          simp only
          split
          · exact .stop
          · split
            · rename_i hfit
              -- the inner array fits into the stride exactly
              exact .nest hnode hbody (by simpa using hzero) hstride hfit
            · exact .stop
    · exact .stop

/-- What holds of an array, given by its dimensions, its elements and their stride, and still holds
when the dimensions of a contiguous inner array are appended, holds of the folded array. -/
theorem foldNested_invariant {P : List Int → Int → Option Int → Prop}
    (hstep : ∀ {dims innerDims element innerElement innerStride node explicit size},
      g.resolve element = .ok node → node.body = .array innerElement innerDims explicit size →
      g.arrayStride innerElement explicit = .ok (some innerStride) →
      P dims element (some (innerStride * elementCount innerDims)) →
      P (dims ++ innerDims) innerElement (some innerStride))
    {steps : Nat} {dims dims' : List Int} {element element' : Int} {stride stride' : Option Int}
    (hstart : P dims element stride)
    (h : g.foldNested steps dims element stride = .ok (dims', element', stride')) :
    P dims' element' stride' := by
  induction steps generalizing dims element stride with
  | zero =>
    rw [foldNested, Except.ok.injEq, Prod.mk.injEq, Prod.mk.injEq] at h
    obtain ⟨rfl, rfl, rfl⟩ := h
    exact hstart
  | succ steps ih =>
    generalize hrun : g.foldNested (steps + 1) dims element stride = run at h
    cases hrun ▸ foldNested_succ steps dims element stride with
    | stop =>
      rw [Except.ok.injEq, Prod.mk.injEq, Prod.mk.injEq] at h
      obtain ⟨rfl, rfl, rfl⟩ := h
      exact hstart
    | nest hnode hbody _ hstride hfit =>
      subst hfit
      exact ih (hstep hnode hbody hstride hstart) h
    | missing =>
      -- a step that fails gives no result
      exact absurd h (by simp)
    | faulty => exact absurd h (by simp)

/-- The dimensions of inner arrays come after those of the outer one. -/
theorem foldNested_dims {steps : Nat} {dims dims' : List Int} {element element' : Int}
    {stride stride' : Option Int}
    (h : g.foldNested steps dims element stride = .ok (dims', element', stride')) :
    dims <+: dims' :=
  foldNested_invariant (P := fun dims' _ _ => dims <+: dims')
    (fun _ _ _ hprefix => hprefix.trans (List.prefix_append _ _)) (List.prefix_refl dims) h

/-- An array with elements, given by its dimensions, its elements and their stride, is expanded
without folding to nodes that have some leaves, and its elements come to empty arrays that can be
folded if some condition holds. -/
def Unrolled (g : TypeGraph) (address : Int) (path : String) (leaves : List Leaf) (folds : Prop)
    (levels : Nat) (dims : List Int) (element : Int) (stride : Option Int) : Prop :=
  (∃ shape nodes, ArrayShape.ofInts dims (stride.getD 0) = .ok shape ∧ 0 ∉ dims ∧
    g.Elements unfolded levels shape element address path nodes ∧
    nodes.flatMap trace = leaves) ∧
  (g.EmptyArraysFold levels element ↔ folds)

section Run

variable {address : Int} {path : String} {leaves : List Leaf} {folds : Prop} {levels : Nat}
  {dims innerDims : List Int} {element innerElement : Int} {stride explicit size : Option Int}

/-- What has elements has a node for their type, and took a level for them. -/
theorem Unrolled.resolve (h : g.Unrolled address path leaves folds levels dims element stride) :
    ∃ levels' node address' name path' n, levels = levels' + 1 ∧ g.resolve element = .ok node ∧
      g.expandWith unfolded levels element address' name path' = .ok n := by
  obtain ⟨⟨shape, nodes, hshape, hzero, hnodes, -⟩, -⟩ := h
  cases hpositions : shape.positions with
  | nil => exact absurd ((ArrayShape.positions_eq_nil hshape).1 hpositions) hzero
  | cons p ps =>
    rw [Elements, hpositions] at hnodes
    obtain ⟨n, ns, hn, -, -⟩ := List.forall₂_cons_left_iff.1 hnodes
    obtain ⟨levels', node, rfl, hnode⟩ := resolve_of_expandWith hn
    exact ⟨levels', node, _, _, _, n, rfl, hnode, hn⟩

/-- Inner arrays without gaps may be taken away. -/
theorem Unrolled.step {levels : Nat} {innerStride : Int} {node : TypeNode}
    (h : g.Unrolled address path leaves folds (levels + 1) dims element
      (some (innerStride * elementCount innerDims)))
    (hnode : g.resolve element = .ok node)
    (hbody : node.body = .array innerElement innerDims explicit size) (hzero' : 0 ∉ innerDims)
    (hstride : g.arrayStride innerElement explicit = .ok (some innerStride)) :
    g.Unrolled address path leaves folds levels (dims ++ innerDims) innerElement
      (some innerStride) := by
  obtain ⟨_, _, _, _, _, n, -, -, hn⟩ := h.resolve
  obtain ⟨⟨outer, nodes, houter, hzero, hnodes, hleaves⟩, hfolds⟩ := h
  obtain ⟨stride', inner, -, -, hstride', hinner, -⟩ := unfolded_array hnode hbody hn
  obtain rfl := eq_of_ok hstride hstride'
  -- the stride of the outer array is the extent of the inner one
  have hfit : outer.stride = inner.stride * inner.count := by
    obtain ⟨-, -, -, -, hs⟩ := ArrayShape.ofInts_eq_ok.1 houter
    obtain ⟨-, hpos, hle, hdims, hs'⟩ := ArrayShape.ofInts_eq_ok.1 hinner
    rw [Option.getD_some] at hs hs' hle
    rw [hs, hs', ArrayShape.count, hdims, elementCount_eq hpos,
      Int.toNat_mul hle (Int.natCast_nonneg _), Int.toNat_natCast]
  obtain ⟨nodes', hnodes', htrace⟩ := elements_nest hnode hbody hstride hinner hfit hnodes
  refine ⟨⟨outer.nest inner, nodes', ArrayShape.ofInts_append houter hinner, ?_, hnodes', ?_⟩, ?_⟩
  · rw [List.mem_append]
    exact not_or.2 ⟨hzero, hzero'⟩
  · rw [← htrace, hleaves]
  · rw [← hfolds, emptyArraysFold_array hnode hbody hzero']

/-- The folding of an array with elements succeeds, and the leaves stay. -/
theorem foldNested_run (steps : Nat)
    (h : g.Unrolled address path leaves folds levels dims element stride) :
    ∃ dims' element' stride' levels', levels' ≤ levels ∧
      g.foldNested steps dims element stride = .ok (dims', element', stride') ∧
      g.Unrolled address path leaves folds levels' dims' element' stride' := by
  induction steps generalizing levels dims element stride with
  | zero => exact ⟨dims, element, stride, levels, Nat.le_refl _, rfl, h⟩
  | succ steps ih =>
    obtain ⟨levels, node, _, _, _, n, rfl, hnode, hn⟩ := h.resolve
    generalize hrun : g.foldNested (steps + 1) dims element stride = run
    cases hrun ▸ foldNested_succ steps dims element stride with
    | stop => exact ⟨dims, element, stride, levels + 1, Nat.le_refl _, rfl, h⟩
    | nest hnode' hbody hzero hstride hfit =>
      -- a step of the fold uses up one level of the unfolded expansion
      subst hfit
      obtain ⟨dims', element', stride', levels', hle, hfold, hunrolled⟩ :=
        ih (h.step hnode' hbody hzero hstride)
      exact ⟨dims', element', stride', levels', by omega, hfold, hunrolled⟩
    | missing hmissing =>
      rw [hnode] at hmissing
      exact absurd hmissing (by simp)
    | faulty hnode' hbody hfaulty =>
      -- without folding, the inner array has been given a stride
      obtain ⟨_, _, _, _, hstride, -⟩ := unfolded_array hnode' hbody hn
      rw [hstride] at hfaulty
      exact absurd hfaulty (by simp)

end Run

-- ---------------------------------------------------------------------------
-- One expansion against another
-- ---------------------------------------------------------------------------

/-- Wherever an expansion succeeds, another one does exactly if some condition on the type holds,
and then they are alike. -/
def Keeps (expand expand' : Expansion) (folds : Int → Prop) : Prop :=
  ∀ {ref address : Int} {name path : String} {n : LayoutNode},
    expand ref address name path = .ok n →
    ((∃ n', expand' ref address name path = .ok n') ↔ folds ref) ∧
      ∀ n', expand' ref address name path = .ok n' → n.Alike n'

/-- What holds of each part holds of all of them. -/
theorem forall₂_keeps {α β : Type} {R S : α → β → Prop} {P : α → Prop} {t : β → List Leaf}
    {as : List α} {bs : List β} (h : List.Forall₂ R as bs)
    (hpart : ∀ a b, R a b → ((∃ b', S a b') ↔ P a) ∧ ∀ b', S a b' → t b = t b') :
    ((∃ bs', List.Forall₂ S as bs') ↔ ∀ a ∈ as, P a) ∧
      ∀ bs', List.Forall₂ S as bs' → bs.flatMap t = bs'.flatMap t := by
  induction h with
  | nil =>
    refine ⟨iff_of_true ⟨[], .nil⟩ (by simp), fun bs' hbs' => ?_⟩
    rw [List.forall₂_nil_left_iff.1 hbs']
  | cons hab _ ih =>
    obtain ⟨hiff, htrace⟩ := hpart _ _ hab
    obtain ⟨hiffs, htraces⟩ := ih
    constructor
    · rw [List.forall_mem_cons, ← hiff, ← hiffs]
      constructor
      · rintro ⟨_, hbs'⟩
        obtain ⟨b', bs', hb', hbs', -⟩ := List.forall₂_cons_left_iff.1 hbs'
        exact ⟨⟨b', hb'⟩, bs', hbs'⟩
      · -- the parts are expanded one by one
        rintro ⟨⟨b', hb'⟩, bs', hbs'⟩
        exact ⟨b' :: bs', .cons hb' hbs'⟩
    · intro _ hparts
      obtain ⟨b', bs', hb', hbs', rfl⟩ := List.forall₂_cons_left_iff.1 hparts
      rw [List.flatMap_cons, List.flatMap_cons, htrace b' hb', htraces bs' hbs']

/-- What holds of two expansions of a type holds of those of a member of the type. -/
theorem Keeps.expandMember {expand expand' : Expansion} {folds : Int → Prop}
    (hkeeps : Keeps expand expand' folds) {isUnion : Bool} {address : Int} {path : String}
    {m : Member} {part : List LayoutNode}
    (h : expandMember expand isUnion address path m = .ok part) :
    ((∃ part', TypeGraph.expandMember expand' isUnion address path m = .ok part') ↔
      folds m.typeRef) ∧
    ∀ part', TypeGraph.expandMember expand' isUnion address path m = .ok part' →
      part.flatMap trace = part'.flatMap trace := by
  unfold TypeGraph.expandMember at *
  cases hname : m.name with
  | none =>
    simp only [hname] at h ⊢
    obtain ⟨n, hn, rfl⟩ := map_eq_ok.1 h
    obtain ⟨hiff, halike⟩ := hkeeps hn
    refine ⟨exists_map_eq_ok.trans hiff, fun part' hpart' => ?_⟩
    obtain ⟨n', hn', rfl⟩ := map_eq_ok.1 hpart'
    -- an unnamed member hands its leaves on
    exact trace_splice (halike n' hn')
  | some name =>
    simp only [hname] at h ⊢
    obtain ⟨n, hn, rfl⟩ := map_eq_ok.1 h
    obtain ⟨hiff, halike⟩ := hkeeps hn
    refine ⟨exists_map_eq_ok.trans hiff, fun part' hpart' => ?_⟩
    obtain ⟨n', hn', rfl⟩ := map_eq_ok.1 hpart'
    rw [List.flatMap_singleton, List.flatMap_singleton]
    exact (alike_asMember (halike n' hn') m).trace_eq

theorem elements_iff_nil {fold : Folding} {levels : Nat} {shape : ArrayShape}
    {element address : Int} {path : String} {nodes : List LayoutNode}
    (hpositions : shape.positions = []) :
    g.Elements fold levels shape element address path nodes ↔ nodes = [] := by
  rw [Elements, hpositions, List.forall₂_nil_left_iff]

/-- Folding gives an array without elements none. -/
theorem positions_of_folded {element inner : Int} {dims : List Int} {stride : Option Int}
    {shape : ArrayShape} (hzero : 0 ∈ dims)
    (h : g.arrayShape g.foldAll element dims stride = .ok (shape, inner)) :
    shape.positions = [] := by
  obtain ⟨_, dims', _, -, hfold, hshape⟩ := arrayShape_iff.1 h
  exact (ArrayShape.positions_eq_nil hshape).2 ((foldNested_dims hfold).subset hzero)

section Array

variable {levels levels' : Nat} {ref address element : Int} {name path : String} {n : LayoutNode}
  {node : TypeNode} {dims : List Int} {stride size : Option Int} (hnode : g.resolve ref = .ok node)
  (hbody : node.body = .array element dims stride size)
  (h : g.expandWith unfolded (levels + 1) ref address name path = .ok n)
include hnode hbody h

/-- An array without elements is expanded if it can be folded. -/
theorem keeps_empty (hzero : 0 ∈ dims) :
    ((∃ n', g.expandWith g.foldAll (levels' + 1) ref address name path = .ok n') ↔
      ∃ folded, g.arrayShape g.foldAll element dims stride = .ok folded) ∧
    ∀ n', g.expandWith g.foldAll (levels' + 1) ref address name path = .ok n' → n.Alike n' := by
  obtain ⟨_, outer, sizeOf, elements, -, houter, hsize, helements, rfl⟩ :=
    unfolded_array hnode hbody h
  have helements := (elements_iff_nil ((ArrayShape.positions_eq_nil houter).2 hzero)).1 helements
  constructor
  · constructor
    · rintro ⟨n', hn'⟩
      obtain ⟨shape, inner, _, _, hfolded, -⟩ := (expandWith_array_iff hnode hbody).1 hn'
      exact ⟨(shape, inner), hfolded⟩
    · rintro ⟨⟨shape, inner⟩, hfolded⟩
      -- without elements there is nothing to expand, and the shape alone decides
      have hnil : g.Elements g.foldAll levels' shape inner address path [] :=
        (elements_iff_nil (positions_of_folded hzero hfolded)).2 rfl
      exact ⟨_, (expandWith_array_iff_elements hnode hbody hfolded hsize).2 ⟨[], hnil, rfl⟩⟩
  · intro n' hn'
    obtain ⟨shape, inner, _, elements', hfolded, -, helements', rfl⟩ :=
      (expandWith_array_iff hnode hbody).1 hn'
    have helements' := (elements_iff_nil (positions_of_folded hzero hfolded)).1 helements'
    rw [helements, helements']
    exact .array rfl

/-- An array with elements is expanded if those of the single array are. -/
theorem keeps_array (hzero : 0 ∉ dims)
    (ih : ∀ inner ≤ levels, Keeps (g.expandWith unfolded inner) (g.expandWith g.foldAll levels')
      (g.EmptyArraysFold inner)) :
    ((∃ n', g.expandWith g.foldAll (levels' + 1) ref address name path = .ok n') ↔
      g.EmptyArraysFold levels element) ∧
    ∀ n', g.expandWith g.foldAll (levels' + 1) ref address name path = .ok n' → n.Alike n' := by
  obtain ⟨outerStride, outer, sizeOf, elements, hstride, houter, hsize, helements, rfl⟩ :=
    unfolded_array hnode hbody h
  -- what the fold starts from is the array as it is written down
  have hunrolled : g.Unrolled address path (elements.flatMap trace)
      (g.EmptyArraysFold levels element) levels dims element outerStride :=
    ⟨⟨outer, elements, houter, hzero, helements, rfl⟩, Iff.rfl⟩
  obtain ⟨dims', inner, stride', levels₁, hle, hfold, hrun⟩ :=
    foldNested_run (g.nodes.size + 1) hunrolled
  obtain ⟨⟨shape, single, hshape, hzero', hsingle, htrace⟩, hfolds⟩ := hrun
  have hfolded : g.arrayShape g.foldAll element dims stride = .ok (shape, inner) :=
    arrayShape_iff.2 ⟨outerStride, dims', stride', hstride, hfold, hshape⟩
  obtain ⟨hiff, htraces⟩ := forall₂_keeps hsingle fun position n hn => by
    obtain ⟨hiff, halike⟩ := ih levels₁ hle hn
    exact ⟨hiff, fun n' hn' => (halike n' hn').trace_eq⟩
  -- there is an element, so that a condition on all of them is one on their type
  have hsome : (∀ p ∈ shape.positions, g.EmptyArraysFold levels₁ inner) ↔
      g.EmptyArraysFold levels₁ inner := by
    obtain ⟨p, hp⟩ := List.exists_mem_of_ne_nil shape.positions fun hnil =>
      hzero' ((ArrayShape.positions_eq_nil hshape).1 hnil)
    exact ⟨fun hall => hall p hp, fun hall _ _ => hall⟩
  simp only [expandWith_array_iff_elements hnode hbody hfolded hsize]
  constructor
  · rw [← hfolds, ← hsome, ← hiff]
    constructor
    · rintro ⟨_, elements', helements', -⟩
      exact ⟨elements', helements'⟩
    · rintro ⟨elements', helements'⟩
      exact ⟨_, elements', helements', rfl⟩
  · rintro _ ⟨elements', helements', rfl⟩
    refine .array ?_
    rw [← htrace, htraces elements' helements']

end Array

/-- A composite is expanded if its members are. -/
theorem keeps_composite {levels levels' : Nat} {ref address : Int} {name path : String}
    {n : LayoutNode} {node : TypeNode} {kind : CompositeKind} {size : Option Int}
    {members : List Member} {isClass : Bool} (hnode : g.resolve ref = .ok node)
    (hbody : node.body = .composite kind size members isClass)
    (h : g.expandWith unfolded (levels + 1) ref address name path = .ok n)
    (ih : Keeps (g.expandWith unfolded levels) (g.expandWith g.foldAll levels')
      (g.EmptyArraysFold levels)) :
    ((∃ n', g.expandWith g.foldAll (levels' + 1) ref address name path = .ok n') ↔
      ∀ m ∈ members, g.EmptyArraysFold levels m.typeRef) ∧
    ∀ n', g.expandWith g.foldAll (levels' + 1) ref address name path = .ok n' → n.Alike n' := by
  obtain ⟨parts, hparts, rfl⟩ := (expandWith_composite_iff hnode hbody).1 h
  -- member by member, the one expands exactly if the other does
  obtain ⟨hiff, htraces⟩ := forall₂_keeps hparts fun m part hpart => ih.expandMember hpart
  simp only [expandWith_composite_iff hnode hbody]
  constructor
  · rw [← hiff]
    constructor
    · rintro ⟨_, parts', hparts', -⟩
      exact ⟨parts', hparts'⟩
    · rintro ⟨parts', hparts'⟩
      exact ⟨_, parts', hparts', rfl⟩
  · rintro _ ⟨parts', hparts', rfl⟩
    refine .composite ?_
    rw [List.flatten_eq_flatMap, List.flatten_eq_flatMap, List.flatMap_assoc, List.flatMap_assoc]
    exact htraces parts' hparts'

/-- Within the same levels or more, the expansion that folds all arrays keeps the one that folds
none. -/
theorem keeps_foldAll {levels levels' : Nat} (hle : levels ≤ levels') :
    Keeps (g.expandWith unfolded levels) (g.expandWith g.foldAll levels')
      (g.EmptyArraysFold levels) := by
  -- an array that is folded skips levels, so that one level less is not enough
  induction levels using Nat.strongRecOn generalizing levels' with
  | _ levels ih =>
    intro ref address name path n h
    obtain ⟨levels, node, rfl, hnode⟩ := resolve_of_expandWith h
    obtain ⟨levels', rfl⟩ : ∃ k, levels' = k + 1 := ⟨levels' - 1, by omega⟩
    cases expandWith_succ_iff.1 h with
    | leaf hnode harray hcomposite hleaf =>
      have hsame : g.expandWith g.foldAll (levels' + 1) ref address name path = .ok n :=
        (expandWith_leaf_iff hnode harray hcomposite).2 hleaf
      refine ⟨iff_of_true ⟨n, hsame⟩ (emptyArraysFold_leaf hnode harray hcomposite), ?_⟩
      intro n' hn'
      obtain rfl := eq_of_ok hsame hn'
      exact .refl n
    | array hnode hbody hshape hsize helements =>
      rename_i dims _ _ _ _ _
      by_cases hzero : 0 ∈ dims
      · rw [emptyArraysFold_empty hnode hbody hzero]
        exact keeps_empty hnode hbody h hzero
      · rw [emptyArraysFold_array hnode hbody hzero]
        exact keeps_array hnode hbody h hzero fun inner hinner => ih inner (by omega) (by omega)
    | composite hnode hbody hparts =>
      rw [emptyArraysFold_composite hnode hbody]
      exact keeps_composite hnode hbody h (ih levels (by omega) (by omega))

/-- A unit with a table of two rows by three columns, and with a structure whose `children` are an
array of unknown bound of the structure itself and whose `payload` has no type. -/
def tableUnit : Entry :=
  .node 1 Tag.compileUnit (.ofList [(Attr.name, .text "a.c")])
    [.node 2 Tag.baseType
        (.ofList [(Attr.name, .text "int"), (Attr.byteSize, .int 4), (Attr.encoding, .int 5)]) [],
      .node 3 Tag.arrayType (.ofList [(Attr.type, .int 2)])
        [.node 4 Tag.subrangeType (.ofList [(Attr.count, .int 3)]) []],
      .node 5 Tag.arrayType (.ofList [(Attr.type, .int 3)])
        [.node 6 Tag.subrangeType (.ofList [(Attr.count, .int 2)]) []],
      .node 7 Tag.structureType (.ofList [(Attr.name, .text "node"), (Attr.byteSize, .int 8)])
        [.node 8 Tag.member (.ofList [(Attr.name, .text "children"), (Attr.type, .int 9)]) [],
          .node 10 Tag.member (.ofList [(Attr.name, .text "payload"), (Attr.type, .int 11)]) []],
      .node 9 Tag.arrayType (.ofList [(Attr.type, .int 7), (Attr.byteStride, .int 8)]) []]

/-- The types of that unit: the structure is left out, while the array of it stays. -/
def tables : TypeGraph where
  nodes := ⟨[(2, ⟨2, some "int", .scalar (some .signed) 4 (.signed .w32)⟩),
    (3, ⟨3, none, .array 2 [3] none none⟩), (5, ⟨5, none, .array 3 [2] none none⟩),
    (9, ⟨9, none, .array 7 [0] (some 8) none⟩)]⟩
  aliases := .empty
  typedefNames := .empty
  faults := [.dangling ⟨11, some 10⟩]

theorem build_tableUnit : build .standard (Store.empty.addRoot tableUnit).1 = tables := by
  decide +kernel

end TypeGraph

end DebugLayout
