import DebugLayout.Proofs.Layout.Faults

/-!
# DebugLayout — types that come to an array without shape

An expansion goes through the parts of a type in layout order and stops at the first one that cannot
be expanded. Numbers that make no shape therefore stop it only if it gets as far as their array: the
members in front of it have to be expanded first, an array around it must have elements, and it must
not lie deeper than the levels. This module says when that is so, by the types alone and without a
look at addresses, names and paths, which have no influence on it.

Both notions are derivations along the types. They say what the fold, the size and the signature of
a pointer come to in the graph, so that whether a symbol is without shape is known from the graph
and the place of the variable.

* `TypeGraph.Expands`, `expands_iff`: the types that are expanded to the end;
* `TypeGraph.Meets`, `meets_iff`: the types whose expansion stops at an array without shape.
-/

namespace DebugLayout

namespace TypeGraph

variable {g : TypeGraph} {levels : Nat} {ref address : Int} {name path : String}

-- ---------------------------------------------------------------------------
-- To the end
-- ---------------------------------------------------------------------------

/-- Whether a type is expanded to the end within so many levels. The type of the elements of an
array matters only if there are elements, and the signature that a pointer leads to has to be there
if it is one to a function. -/
inductive Expands (g : TypeGraph) : Nat → Int → Prop
  | leaf {levels : Nat} {ref : Int} {node : TypeNode} (hnode : g.resolve ref = .ok node)
      (harray : ∀ element dims stride size, node.body ≠ .array element dims stride size)
      (hcomposite : node.body.isComposite = false)
      (hsignature : ∀ target size isFunction isReference,
        node.body = .pointer target size isFunction isReference →
          ∃ signature, g.signature? target isFunction = .ok signature) :
      Expands g (levels + 1) ref
  | array {levels : Nat} {ref : Int} {node : TypeNode} {element inner : Int} {dims : List Int}
      {stride explicitSize size : Option Int} {shape : ArrayShape}
      (hnode : g.resolve ref = .ok node)
      (hbody : node.body = .array element dims stride explicitSize)
      (hshape : g.arrayShape g.foldAll element dims stride = .ok (shape, inner))
      (hsize : g.byteSize ref = .ok size)
      (helements : shape.positions ≠ [] → Expands g levels inner) : Expands g (levels + 1) ref
  | composite {levels : Nat} {ref : Int} {node : TypeNode} {kind : CompositeKind}
      {size : Option Int} {members : List Member} {isClass : Bool}
      (hnode : g.resolve ref = .ok node)
      (hbody : node.body = .composite kind size members isClass)
      (hmembers : ∀ m ∈ members, Expands g levels m.typeRef) : Expands g (levels + 1) ref

/-- A leaf can be made of any type without parts, but of a pointer to a function only with its
signature. -/
theorem exists_leaf_iff {node : TypeNode} :
    (∃ n, g.leaf ref node address name path = .ok n) ↔
      ∀ target size isFunction isReference,
        node.body = .pointer target size isFunction isReference →
          ∃ signature, g.signature? target isFunction = .ok signature := by
  unfold leaf
  cases hbody : node.body with
  | pointer target size isFunction isReference =>
    simp only [exists_map_eq_ok, pointerLeaf, bind_eq_ok, pure_eq_ok]
    constructor
    · rintro ⟨_, signature, hsignature, -⟩ target' size' isFunction' isReference' heq
      obtain ⟨rfl, -, rfl, -⟩ := TypeBody.pointer.inj heq
      exact ⟨signature, hsignature⟩
    · intro h
      obtain ⟨signature, hsignature⟩ := h target size isFunction isReference rfl
      exact ⟨_, signature, hsignature, rfl⟩
  | _ => exact iff_of_true ⟨_, rfl⟩ (by simp)

/-- A member contributes to its composite exactly if its type is expanded. -/
theorem exists_expandMember_iff
    (h : ∀ {ref address name path}, g.Expands levels ref ↔
      ∃ n, g.expandWith g.foldAll levels ref address name path = .ok n)
    {isUnion : Bool} {m : Member} :
    (∃ part, expandMember (g.expandWith g.foldAll levels) isUnion address path m = .ok part) ↔
      g.Expands levels m.typeRef := by
  obtain ⟨start, name, path', contribute, hmap⟩ :=
    expandMember_eq_map (g.expandWith g.foldAll levels) isUnion address path m
  rw [hmap, exists_map_eq_ok]
  exact h.symm

/-- A type is expanded to the end wherever it lies and whatever it is called, or nowhere. -/
theorem expands_iff :
    g.Expands levels ref ↔ ∃ n, g.expandWith g.foldAll levels ref address name path = .ok n := by
  induction levels generalizing ref address name path with
  | zero => exact iff_of_false (by rintro ⟨⟩) (by simp [expandWith])
  | succ levels ih =>
    constructor
    · -- one case for each rule, in which the parts have a level less
      rintro (⟨hnode, harray, hcomposite, hsignature⟩ | ⟨hnode, hbody, hshape, hsize, helements⟩ |
        ⟨hnode, hbody, hmembers⟩)
      · simp only [expandWith_leaf_iff hnode harray hcomposite]
        exact exists_leaf_iff.2 hsignature
      · obtain ⟨elements, helements⟩ := exists_forall₂_iff.2 fun position hposition =>
          ih.1 (helements (List.ne_nil_of_mem hposition))
        exact ⟨_, expandWith_succ_iff.2 (.array hnode hbody hshape hsize helements)⟩
      · obtain ⟨parts, hparts⟩ := exists_forall₂_iff.2 fun m hm =>
          (exists_expandMember_iff ih).2 (hmembers m hm)
        exact ⟨_, expandWith_succ_iff.2 (.composite hnode hbody hparts)⟩
    · rintro ⟨n, h⟩
      cases expandWith_succ_iff.1 h with
      | leaf hnode harray hcomposite hleaf =>
        exact .leaf hnode harray hcomposite (exists_leaf_iff.1 ⟨_, hleaf⟩)
      | array hnode hbody hshape hsize helements =>
        refine .array hnode hbody hshape hsize fun hfilled => ?_
        obtain ⟨position, hposition⟩ := List.exists_mem_of_ne_nil _ hfilled
        exact ih.2 (exists_forall₂_iff.1 ⟨_, helements⟩ position hposition)
      | composite hnode hbody hparts =>
        exact .composite hnode hbody fun m hm =>
          (exists_expandMember_iff ih).1 (exists_forall₂_iff.1 ⟨_, hparts⟩ m hm)

-- ---------------------------------------------------------------------------
-- Up to an array without shape
-- ---------------------------------------------------------------------------

/-- Whether an expansion within so many levels comes to an array without shape: the type is one, or
the elements that it has come to one, or one of its members does after all members in front of it
have been expanded. The numbers of an array are those that it has once it is folded. -/
inductive Meets (g : TypeGraph) : Nat → Int → Prop
  | here {levels : Nat} {ref : Int} {node : TypeNode} {element inner : Int} {dims dims' : List Int}
      {stride outer stride' explicitSize : Option Int} (hnode : g.resolve ref = .ok node)
      (hbody : node.body = .array element dims stride explicitSize)
      (houter : g.arrayStride element stride = .ok outer)
      (hfold : g.foldAll dims element outer = .ok (dims', inner, stride'))
      (hnumbers : dims' = [] ∨ (∃ d ∈ dims', d < 0) ∨ stride'.getD 0 < 0) :
      Meets g (levels + 1) ref
  | element {levels : Nat} {ref : Int} {node : TypeNode} {element inner : Int} {dims : List Int}
      {stride explicitSize size : Option Int} {shape : ArrayShape}
      (hnode : g.resolve ref = .ok node)
      (hbody : node.body = .array element dims stride explicitSize)
      (hshape : g.arrayShape g.foldAll element dims stride = .ok (shape, inner))
      (hsize : g.byteSize ref = .ok size) (hfilled : shape.positions ≠ [])
      (h : Meets g levels inner) : Meets g (levels + 1) ref
  | member {levels : Nat} {ref : Int} {node : TypeNode} {kind : CompositeKind} {size : Option Int}
      {before after : List Member} {m : Member} {isClass : Bool} (hnode : g.resolve ref = .ok node)
      (hbody : node.body = .composite kind size (before ++ m :: after) isClass)
      (hbefore : ∀ m' ∈ before, g.Expands levels m'.typeRef) (h : Meets g levels m.typeRef) :
      Meets g (levels + 1) ref

/-- The numbers of an array, once it is folded, make no shape. -/
theorem arrayShape_eq_shape_iff {element : Int} {dims : List Int} {stride : Option Int} :
    (∃ fault, g.arrayShape g.foldAll element dims stride = .error (.shape fault)) ↔
      ∃ outer dims' inner stride', g.arrayStride element stride = .ok outer ∧
        g.foldAll dims element outer = .ok (dims', inner, stride') ∧
        (dims' = [] ∨ (∃ d ∈ dims', d < 0) ∨ stride'.getD 0 < 0) := by
  simp only [← ArrayShape.exists_ofInts_eq_error_iff]
  constructor
  · rintro ⟨fault, h⟩
    cases unshaped_of_arrayShape h with
    | numbers houter hfold hfault => exact ⟨_, _, _, _, houter, hfold, _, hfault⟩
  · rintro ⟨outer, dims', inner, stride', houter, hfold, fault, hfault⟩
    refine ⟨fault, ?_⟩
    simp only [arrayShape, houter, hfold, hfault, orStop, bind, Except.bind]
    rfl

/-- An expansion that comes to an array without shape stops there. -/
theorem exists_of_meets (h : g.Meets levels ref) (address : Int) (name path : String) :
    ∃ fault, g.expandWith g.foldAll levels ref address name path = .error (.shape fault) := by
  induction h generalizing address name path with
  | here hnode hbody houter hfold hnumbers =>
    obtain ⟨fault, hfault⟩ := arrayShape_eq_shape_iff.2 ⟨_, _, _, _, houter, hfold, hnumbers⟩
    refine ⟨fault, bind_eq_error.2 (.inr ⟨_, orStop_eq_ok.2 hnode, ?_⟩)⟩
    rw [hbody]
    exact bind_eq_error.2 (.inl hfault)
  | @element _ _ _ _ inner _ _ _ _ shape hnode hbody hshape hsize hfilled _ ih =>
    -- the first element already stops
    obtain ⟨position, positions, hpositions⟩ := List.exists_cons_of_ne_nil hfilled
    obtain ⟨fault, hfault⟩ := ih ..
    refine ⟨fault, bind_eq_error.2 (.inr ⟨_, orStop_eq_ok.2 hnode, ?_⟩)⟩
    rw [hbody]
    refine bind_eq_error.2 (.inr ⟨_, hshape, ?_⟩)
    refine bind_eq_error.2 (.inr ⟨_, orStop_eq_ok.2 hsize, bind_eq_error.2 (.inl ?_)⟩)
    rw [hpositions, expandElements]
    exact bind_eq_error.2 (.inl hfault)
  | @member levels _ _ kind _ before after m _ hnode hbody hbefore _ ih =>
    obtain ⟨start, name', path', contribute, hmap⟩ := expandMember_eq_map
      (g.expandWith g.foldAll levels) (kind = .union) address path m
    obtain ⟨fault, hfault⟩ := ih start name' path'
    refine ⟨fault, bind_eq_error.2 (.inr ⟨_, orStop_eq_ok.2 hnode, ?_⟩)⟩
    rw [hbody]
    refine bind_eq_error.2 (.inl (expandMembers_eq_error_iff.2 ⟨before, m, after, rfl,
      fun m' hm' => (exists_expandMember_iff expands_iff).2 (hbefore m' hm'), ?_⟩))
    rw [hmap, map_eq_error]
    exact hfault

/-- An expansion that stops at numbers has come to an array without shape. -/
theorem meets_of_expandWith {fault : ShapeFault}
    (h : g.expandWith g.foldAll levels ref address name path = .error (.shape fault)) :
    g.Meets levels ref := by
  induction levels generalizing ref address name path with
  | zero => exact absurd h (by simp [expandWith])
  | succ levels ih =>
    -- what is missing stops the expansion otherwise
    have hmissing : ∀ {α : Type} {x : Except Dangling α}, orStop x ≠ .error (.shape fault) := by
      intro α x hx
      obtain ⟨_, -, heq⟩ := exists_of_orStop_eq_error hx
      exact absurd heq (by simp)
    rw [expandWith] at h
    rcases bind_eq_error.1 h with h | ⟨node, hnode, h⟩
    · exact absurd h hmissing
    have hnode := orStop_eq_ok.1 hnode
    split at h
    · rename_i element dims stride explicitSize hbody
      rcases bind_eq_error.1 h with h | ⟨⟨shape, inner⟩, hshape, h⟩
      · obtain ⟨_, _, _, _, houter, hfold, hnumbers⟩ := arrayShape_eq_shape_iff.1 ⟨fault, h⟩
        exact .here hnode hbody houter hfold hnumbers
      rcases bind_eq_error.1 h with h | ⟨size, hsize, h⟩
      · exact absurd h hmissing
      rcases bind_eq_error.1 h with h | ⟨elements, -, h⟩
      · -- without elements nothing below would have been expanded
        have hfilled : shape.positions ≠ [] := by
          intro hnil
          rw [hnil] at h
          exact absurd h (by simp [expandElements])
        obtain ⟨address', name', path', h⟩ := expandElements_eq_error h
        exact .element hnode hbody hshape (orStop_eq_ok.1 hsize) hfilled (ih h)
      · exact absurd h pure_ne_error
    · rename_i kind size members isClass hbody
      rcases bind_eq_error.1 h with h | ⟨nodes, -, h⟩
      · obtain ⟨before, m, after, rfl, hbefore, h⟩ := expandMembers_eq_error_iff.1 h
        obtain ⟨start, name', path', contribute, hmap⟩ := expandMember_eq_map
          (g.expandWith g.foldAll levels) (kind = .union) address path m
        exact .member hnode hbody
          (fun m' hm' => (exists_expandMember_iff expands_iff).1 (hbefore m' hm'))
          (ih (map_eq_error.1 (hmap.symm.trans h)))
      · exact absurd h pure_ne_error
    · exact absurd h hmissing

/-- The layout of a symbol stops at numbers exactly if its type comes to an array without shape
within the levels that a layout has. -/
theorem meets_iff {depth : Nat} (address : Int) (name : String) :
    g.Meets (depth + 1) ref ↔
      ∃ fault, g.layout depth ref address name = .error (.shape fault) := by
  unfold layout layoutWith
  constructor
  · intro h
    obtain ⟨fault, hfault⟩ := exists_of_meets h address name name
    exact ⟨fault, by rw [hfault]⟩
  · rintro ⟨fault, h⟩
    split at h
    · exact absurd h (by simp)
    · exact absurd h (by simp)
    · exact absurd h (by simp)
    · rename_i hshape
      exact meets_of_expandWith hshape

end TypeGraph

end DebugLayout
