import DebugLayout.Layout.Resolve
import DebugLayout.Proofs.Outcome
import DebugLayout.Proofs.TypeGraph.Coherent
import Mathlib.Data.List.Perm.Subperm

/-!
# DebugLayout — the way down aliases and elements

Three walks through a graph go down aliases and elements of arrays without a limit of their own: to
the node at the end of aliases, to the size of an array, and through the arrays that are folded into
one. Where they end is told by derivations, which are finite, and in a ranked graph every walk has
one. A walk never meets a reference twice, so that the steps that the library allows are enough.

The library bounds its walks by the number of nodes or aliases. A walk that took more steps would
meet a reference twice, by the pigeonhole principle, and then it would go round.

* `TypeGraph.Ranked.exists_canonicalRef`: aliases never go round;
* `TypeGraph.SizeOf`, `Ranked.sizeOf_byteSize`: a size, and that it is found;
* `TypeGraph.Folds`, `Ranked.folds_foldAll`: a folded array, and that it is found.
-/

namespace DebugLayout

open Relation (ReflTransGen TransGen)

namespace TypeGraph

variable {g : TypeGraph} {ref canonical : Int}

/-- In a ranked graph no way down leads back. -/
theorem Ranked.acyclic (hranked : g.Ranked) (ref : Int) : ¬ TransGen g.Inside ref ref := by
  obtain ⟨rank, hrank⟩ := hranked
  have hlower : ∀ a b, TransGen g.Inside a b → rank b < rank a := by
    intro a b h
    induction h with
    | single h => exact hrank _ _ h
    | tail _ h ih => exact Nat.lt_trans (hrank _ _ h) ih
  exact fun h => Nat.lt_irrefl _ (hlower ref ref h)

/-- Keys of a map that are all different are no more than the map has entries. -/
theorem length_le_size {α : Type} {m : OrderedMap Int α} {refs : List Int} (hnodup : refs.Nodup)
    (hkeys : ∀ r ∈ refs, (m.get? r).isSome = true) : refs.length ≤ m.size := by
  have hsub : refs ⊆ m.keys := fun r hr => OrderedMap.contains_iff.1 (hkeys r hr)
  have hlength := (List.subperm_of_subset hnodup hsub).length_le
  rwa [OrderedMap.keys, List.length_map] at hlength

-- ---------------------------------------------------------------------------
-- Aliases
-- ---------------------------------------------------------------------------

/-- The way down aliases, from a reference to another one. -/
abbrev Aliased (g : TypeGraph) : Int → Int → Prop :=
  ReflTransGen fun ref target => g.aliases.get? ref = some target

/-- Following aliases ends at a reference that is no alias. -/
theorem follow_eq_ok {aliases : OrderedMap Int Int} {steps : Nat} {visited : List Int}
    (h : follow aliases steps visited ref = .ok canonical) :
    ReflTransGen (fun ref target => aliases.get? ref = some target) ref canonical ∧
      aliases.get? canonical = none := by
  induction steps generalizing visited ref with
  | zero => exact absurd h (by simp [follow])
  | succ steps ih =>
    rw [follow] at h
    split at h
    · rename_i hnone
      obtain rfl := Except.ok.inj h
      exact ⟨.refl, hnone⟩
    · rename_i target htarget
      split at h
      · exact absurd h (by simp)
      · obtain ⟨hchain, hend⟩ := ih h
        exact ⟨.head htarget hchain, hend⟩

/-- Aliases of which each has a lower rank than the one before are never seen twice, and there are
not enough of them to run out of steps. -/
theorem exists_follow {aliases : OrderedMap Int Int} {rank : Int → Nat}
    (hrank : ∀ ref target, aliases.get? ref = some target → rank target < rank ref) (steps : Nat) :
    ∀ (visited : List Int) (ref : Int), visited.Nodup →
      (∀ v ∈ visited, (aliases.get? v).isSome = true ∧ rank ref < rank v) →
      aliases.size < visited.length + steps →
      ∃ canonical, follow aliases steps visited ref = .ok canonical := by
  induction steps with
  | zero =>
    intro visited ref hnodup hvisited hsteps
    -- the steps are used up, but there are not that many different aliases
    have hle := length_le_size hnodup fun v hv => (hvisited v hv).1
    omega
  | succ steps ih =>
    intro visited ref hnodup hvisited hsteps
    rw [follow]
    cases htarget : aliases.get? ref with
    | none => exact ⟨ref, rfl⟩
    | some target =>
      -- all references visited so far rank above this one
      have hnew : ref ∉ visited := fun hmem => Nat.lt_irrefl _ (hvisited ref hmem).2
      have hlower : rank target < rank ref := hrank ref target htarget
      simp only [List.contains_iff_mem, hnew, if_false]
      refine ih (ref :: visited) target (List.nodup_cons.2 ⟨hnew, hnodup⟩) ?_ ?_
      · intro v hv
        rcases List.mem_cons.1 hv with rfl | hv
        · exact ⟨by rw [htarget]; rfl, hlower⟩
        · exact ⟨(hvisited v hv).1, Nat.lt_trans hlower (hvisited v hv).2⟩
      · rw [List.length_cons]
        omega

/-- In a ranked graph aliases never go round. -/
theorem Ranked.exists_canonicalRef (hranked : g.Ranked) (ref : Int) :
    ∃ canonical, g.canonicalRef ref = .ok canonical := by
  obtain ⟨rank, hrank⟩ := hranked
  have hfollow := exists_follow (fun ref target h => hrank ref target (.inl h))
    (g.aliases.size + 1) [] ref
  exact hfollow List.nodup_nil (by simp) (by simp)

/-- The canonical reference is one that aliases lead to and that is no alias. -/
theorem canonicalRef_eq_ok (h : g.canonicalRef ref = .ok canonical) :
    g.Aliased ref canonical ∧ g.aliases.get? canonical = none :=
  follow_eq_ok h

/-- The end of aliases is one. -/
theorem Aliased.unique {other : Int} (h : g.Aliased ref canonical)
    (hend : g.aliases.get? canonical = none) (h' : g.Aliased ref other)
    (hend' : g.aliases.get? other = none) : canonical = other := by
  induction h using ReflTransGen.head_induction_on with
  | refl =>
    rcases h'.cases_head with heq | ⟨target, htarget, -⟩
    · exact heq
    · rw [hend] at htarget
      exact absurd htarget (by simp)
  | head hstep _ ih =>
    rcases h'.cases_head with rfl | ⟨target, htarget, hrest⟩
    · rw [hend'] at hstep
      exact absurd hstep (by simp)
    · obtain rfl := Option.some.inj (hstep.symm.trans htarget)
      exact ih hrest

/-- In a ranked graph the canonical reference is the end of the aliases. -/
theorem Ranked.canonicalRef_eq (hranked : g.Ranked) (h : g.Aliased ref canonical)
    (hend : g.aliases.get? canonical = none) : g.canonicalRef ref = .ok canonical := by
  obtain ⟨other, hother⟩ := hranked.exists_canonicalRef ref
  obtain ⟨h', hend'⟩ := canonicalRef_eq_ok hother
  rw [hother, h.unique hend h' hend']

/-- The node of a reference is listed under its canonical reference. -/
theorem get_eq_ok {node : TypeNode} (h : g.get ref = .ok node) :
    ∃ canonical, g.canonicalRef ref = .ok canonical ∧ g.nodes.get? canonical = some node := by
  obtain ⟨canonical, hcanonical, h⟩ := bind_eq_ok.1 h
  split at h
  · rename_i found hfound
    obtain rfl := pure_eq_ok.1 h
    exact ⟨canonical, hcanonical, hfound⟩
  · exact absurd h throw_ne_ok

/-- The node that is listed under the canonical reference is the node of a reference. -/
theorem get_of_canonicalRef {node : TypeNode} (h : g.canonicalRef ref = .ok canonical)
    (hnode : g.nodes.get? canonical = some node) : g.get ref = .ok node := by
  rw [get, h]
  simp [bind, Except.bind, hnode, pure, Except.pure]

/-- A reference is resolved by a node that is no placeholder. -/
theorem resolve_eq_ok {node : TypeNode} :
    g.resolve ref = .ok node ↔ g.get ref = .ok node ∧ node.isPlaceholder = false := by
  rw [resolve, bind_eq_ok]
  constructor
  · rintro ⟨found, hfound, h⟩
    split at h
    · exact absurd h throw_ne_ok
    · rename_i hreal
      obtain rfl := pure_eq_ok.1 h
      exact ⟨hfound, by simpa using hreal⟩
  · rintro ⟨hget, hreal⟩
    exact ⟨node, hget, by simp [hreal, pure, Except.pure]⟩

/-- Going down aliases does not raise the rank. -/
theorem rank_le_of_aliased {rank : Int → Nat}
    (hrank : ∀ ref inner, g.Inside ref inner → rank inner < rank ref)
    (h : g.Aliased ref canonical) : rank canonical ≤ rank ref := by
  induction h with
  | refl => exact Nat.le_refl _
  | tail _ hstep ih => exact Nat.le_trans (Nat.le_of_lt (hrank _ _ (.inl hstep))) ih

-- ---------------------------------------------------------------------------
-- Sizes
-- ---------------------------------------------------------------------------

/-- How the size of a type is found: it is given, or it is that of the elements of an array as often
as the array has elements, or a type is missing on the way. -/
inductive SizeOf (g : TypeGraph) : Int → Except Dangling (Option Int) → Prop
  | unresolved {ref : Int} {fault : Dangling} (h : g.resolve ref = .error fault) :
      SizeOf g ref (.error fault)
  | given {ref : Int} {node : TypeNode} (hnode : g.resolve ref = .ok node)
      (h : ∀ element dims stride, node.body ≠ .array element dims stride none) :
      SizeOf g ref (.ok node.byteSize?)
  | strided {ref element stride : Int} {node : TypeNode} {dims : List Int}
      (hnode : g.resolve ref = .ok node)
      (hbody : node.body = .array element dims (some stride) none) :
      SizeOf g ref (.ok (some (elementCount dims * stride)))
  | measured {ref element : Int} {node : TypeNode} {dims : List Int}
      {outcome : Except Dangling (Option Int)} (hnode : g.resolve ref = .ok node)
      (hbody : node.body = .array element dims none none) (h : SizeOf g element outcome) :
      SizeOf g ref (outcome.map (Option.map (elementCount dims * ·)))

/-- Whether some arrays are different nodes of the graph that all rank above a reference. -/
def Above (g : TypeGraph) (rank : Int → Nat) (arrays : List Int) (ref : Int) : Prop :=
  arrays.Nodup ∧ ∀ a ∈ arrays, (g.nodes.get? a).isSome = true ∧ rank ref < rank a

/-- There are not more arrays above a reference than there are nodes. -/
theorem Above.length_le {rank : Int → Nat} {arrays : List Int} (h : g.Above rank arrays ref) :
    arrays.length ≤ g.nodes.size :=
  length_le_size h.1 fun a ha => (h.2 a ha).1

theorem above_nil (rank : Int → Nat) : g.Above rank [] ref := ⟨List.nodup_nil, by simp⟩

/-- The array under a reference is another one, and its elements rank below it. -/
theorem Above.next {rank : Int → Nat}
    (hrank : ∀ ref inner, g.Inside ref inner → rank inner < rank ref) {arrays : List Int}
    {element : Int} {node : TypeNode} (h : g.Above rank arrays ref)
    (hnode : g.resolve ref = .ok node) (hbody : node.body.element? = some element) :
    ∃ array, g.Above rank (array :: arrays) element := by
  obtain ⟨hget, -⟩ := resolve_eq_ok.1 hnode
  obtain ⟨array, hcanonical, hfound⟩ := get_eq_ok hget
  have hle : rank array ≤ rank ref := rank_le_of_aliased hrank (canonicalRef_eq_ok hcanonical).1
  have hlt : rank element < rank array := hrank array element (.inr ⟨node, hfound, hbody⟩)
  refine ⟨array, List.nodup_cons.2 ⟨fun hmem => ?_, h.1⟩, fun a ha => ?_⟩
  · have habove := (h.2 array hmem).2
    omega
  · rcases List.mem_cons.1 ha with rfl | ha
    · exact ⟨by rw [hfound]; rfl, hlt⟩
    · have habove := (h.2 a ha).2
      exact ⟨(h.2 a ha).1, by omega⟩

/-- Arrays of which each has a lower rank than the one around it are not enough to run out of
levels. -/
theorem sizeOf_byteSizeWithin {rank : Int → Nat}
    (hrank : ∀ ref inner, g.Inside ref inner → rank inner < rank ref) (levels : Nat) :
    ∀ (arrays : List Int) (ref : Int), g.Above rank arrays ref →
      g.nodes.size ≤ arrays.length + levels → g.SizeOf ref (g.byteSizeWithin levels ref) := by
  induction levels with
  | zero =>
    intro arrays ref habove hlevels
    rw [byteSizeWithin]
    cases hnode : g.resolve ref with
    | error fault => exact .unresolved hnode
    | ok node =>
      refine .given hnode fun element dims stride hbody => ?_
      have helement : node.body.element? = some element := by rw [hbody]; rfl
      -- one more array would be more than there are nodes
      obtain ⟨array, habove'⟩ := habove.next hrank hnode helement
      have hle := habove'.length_le
      rw [List.length_cons] at hle
      omega
  | succ levels ih =>
    intro arrays ref habove hlevels
    rw [byteSizeWithin]
    cases hnode : g.resolve ref with
    | error fault => exact .unresolved hnode
    | ok node =>
      simp only [bind, Except.bind]
      split
      · rename_i element dims hbody
        have helement : node.body.element? = some element := by rw [hbody]; rfl
        obtain ⟨array, habove'⟩ := habove.next hrank hnode helement
        -- the array joins those above its elements
        have hinner := ih (array :: arrays) element habove' (by rw [List.length_cons]; omega)
        cases hsize : g.byteSizeWithin levels element with
        | error fault => exact .measured hnode hbody (hsize ▸ hinner)
        | ok size => exact .measured hnode hbody (hsize ▸ hinner)
      · rename_i element dims stride hbody
        exact .strided hnode hbody
      · rename_i hmeasured hstrided
        refine .given hnode fun element dims stride hbody => ?_
        cases stride with
        | none => exact hmeasured element dims hbody
        | some stride => exact hstrided element dims stride hbody

/-- In a ranked graph the size of every type is found. -/
theorem Ranked.sizeOf_byteSize (hranked : g.Ranked) (ref : Int) :
    g.SizeOf ref (g.byteSize ref) := by
  obtain ⟨rank, hrank⟩ := hranked
  have hwithin := sizeOf_byteSizeWithin hrank (g.nodes.size + 1) [] ref
  exact hwithin (above_nil rank) (by rw [List.length_nil]; omega)

/-- A type has one size, however it is found. -/
theorem SizeOf.unique {outcome outcome' : Except Dangling (Option Int)}
    (h : g.SizeOf ref outcome) (h' : g.SizeOf ref outcome') : outcome = outcome' := by
  -- which way the size is found is decided by the node alone, so that all mixed cases are
  -- contradictory
  induction h generalizing outcome' with
  | unresolved hfault =>
    cases h' with
    | unresolved hfault' => rw [Except.error.inj (hfault.symm.trans hfault')]
    | given hnode | strided hnode | measured hnode =>
      rw [hfault] at hnode
      exact absurd hnode (by simp)
  | given hnode hbody =>
    cases h' with
    | unresolved hfault =>
      rw [hfault] at hnode
      exact absurd hnode (by simp)
    | given hnode' => rw [eq_of_ok hnode hnode']
    | strided hnode' hbody' | measured hnode' hbody' =>
      obtain rfl := eq_of_ok hnode hnode'
      exact absurd hbody' (hbody _ _ _)
  | strided hnode hbody =>
    cases h' with
    | unresolved hfault =>
      rw [hfault] at hnode
      exact absurd hnode (by simp)
    | given hnode' hbody' =>
      obtain rfl := eq_of_ok hnode hnode'
      exact absurd hbody (hbody' _ _ _)
    | strided hnode' hbody' | measured hnode' hbody' =>
      obtain rfl := eq_of_ok hnode hnode'
      rw [hbody] at hbody'
      cases hbody' <;> rfl
  | measured hnode hbody _ ih =>
    cases h' with
    | unresolved hfault =>
      rw [hfault] at hnode
      exact absurd hnode (by simp)
    | given hnode' hbody' =>
      obtain rfl := eq_of_ok hnode hnode'
      exact absurd hbody (hbody' _ _ _)
    | strided hnode' hbody' =>
      obtain rfl := eq_of_ok hnode hnode'
      rw [hbody] at hbody'
      exact absurd hbody' (by simp)
    | measured hnode' hbody' hinner =>
      obtain rfl := eq_of_ok hnode hnode'
      rw [hbody] at hbody'
      obtain ⟨rfl, rfl, -⟩ := TypeBody.array.inj hbody'
      -- both take the size of the same elements
      rw [ih hinner]

-- ---------------------------------------------------------------------------
-- Folded arrays
-- ---------------------------------------------------------------------------

/-- How nested arrays are folded into one, from the dimensions, the elements and the stride so far:
inner arrays are taken in as long as they have elements and leave no gap. -/
inductive Folds (g : TypeGraph) : List Int → Int → Option Int →
    Except Dangling (List Int × Int × Option Int) → Prop
  | unresolved {dims : List Int} {element : Int} {stride : Option Int} {fault : Dangling}
      (h : g.resolve element = .error fault) : Folds g dims element stride (.error fault)
  | unmeasured {dims innerDims : List Int} {element innerElement : Int}
      {stride explicit size : Option Int} {node : TypeNode} {fault : Dangling}
      (hnode : g.resolve element = .ok node)
      (hbody : node.body = .array innerElement innerDims explicit size) (hzero : 0 ∉ innerDims)
      (h : g.arrayStride innerElement explicit = .error fault) :
      Folds g dims element stride (.error fault)
  | nest {dims innerDims : List Int} {element innerElement innerStride : Int}
      {stride explicit size : Option Int} {node : TypeNode}
      {outcome : Except Dangling (List Int × Int × Option Int)}
      (hnode : g.resolve element = .ok node)
      (hbody : node.body = .array innerElement innerDims explicit size) (hzero : 0 ∉ innerDims)
      (hstride : g.arrayStride innerElement explicit = .ok (some innerStride))
      (hfit : stride = some (innerStride * elementCount innerDims))
      (h : Folds g (dims ++ innerDims) innerElement (some innerStride) outcome) :
      Folds g dims element stride outcome
  | innermost {dims : List Int} {element : Int} {stride : Option Int} {node : TypeNode}
      (hnode : g.resolve element = .ok node)
      (h : ∀ innerElement innerDims explicit size,
        node.body = .array innerElement innerDims explicit size → 0 ∉ innerDims →
        ∃ innerStride, g.arrayStride innerElement explicit = .ok innerStride ∧
          ∀ step, innerStride = some step → stride ≠ some (step * elementCount innerDims)) :
      Folds g dims element stride (.ok (dims, element, stride))

/-- Arrays of which each has a lower rank than the one around it are not enough to run out of
steps. -/
theorem folds_foldNested {rank : Int → Nat}
    (hrank : ∀ ref inner, g.Inside ref inner → rank inner < rank ref) (steps : Nat) :
    ∀ (arrays dims : List Int) (element : Int) (stride : Option Int), g.Above rank arrays element →
      g.nodes.size < arrays.length + steps →
      g.Folds dims element stride (g.foldNested steps dims element stride) := by
  induction steps with
  | zero =>
    intro arrays dims element stride habove hsteps
    -- the steps are used up, but there are not that many arrays
    have hle := habove.length_le
    omega
  | succ steps ih =>
    intro arrays dims element stride habove hsteps
    rw [foldNested]
    cases hnode : g.resolve element with
    | error fault => exact .unresolved hnode
    | ok node =>
      simp only [bind, Except.bind]
      split
      · rename_i innerElement innerDims explicit size hbody
        by_cases hzero : 0 ∈ innerDims
        · rw [if_pos (List.contains_iff_mem.2 hzero)]
          -- an inner array without elements is not taken in
          refine .innermost hnode fun _ dims' _ _ hbody' hzero' => ?_
          obtain ⟨-, rfl, -⟩ := TypeBody.array.inj (hbody.symm.trans hbody')
          exact absurd hzero hzero'
        · rw [if_neg fun h => hzero (List.contains_iff_mem.1 h)]
          cases hstride : g.arrayStride innerElement explicit with
          | error fault => exact .unmeasured hnode hbody hzero hstride
          | ok innerStride =>
            -- the loop goes on only if the strides fit
            have hends : (∀ step, innerStride = some step →
                stride ≠ some (step * elementCount innerDims)) →
                g.Folds dims element stride (.ok (dims, element, stride)) := by
              intro hgap
              refine .innermost hnode fun _ _ _ _ hbody' _ => ?_
              obtain ⟨rfl, rfl, rfl, -⟩ := TypeBody.array.inj (hbody.symm.trans hbody')
              exact ⟨innerStride, hstride, hgap⟩
            cases innerStride with
            | none => exact hends fun step h => absurd h (by simp)
            | some step =>
              simp only
              split
              · rename_i hfit
                have helement : node.body.element? = some innerElement := by rw [hbody]; rfl
                obtain ⟨array, habove'⟩ := habove.next hrank hnode helement
                -- the inner array is taken in and joins those above its elements
                refine .nest hnode hbody hzero hstride hfit ?_
                exact ih (array :: arrays) _ _ _ habove' (by rw [List.length_cons]; omega)
              · rename_i hgap
                refine hends fun step' h => ?_
                rwa [← Option.some.inj h]
      · rename_i hleaf
        exact .innermost hnode fun innerElement innerDims explicit size hbody =>
          absurd hbody (hleaf _ _ _ _)

/-- In a ranked graph the folding of every array is found. -/
theorem Ranked.folds_foldAll (hranked : g.Ranked) (dims : List Int) (element : Int)
    (stride : Option Int) : g.Folds dims element stride (g.foldAll dims element stride) := by
  obtain ⟨rank, hrank⟩ := hranked
  have hsteps := folds_foldNested hrank (g.nodes.size + 1) [] dims element stride
  exact hsteps (above_nil rank) (by rw [List.length_nil]; omega)

end TypeGraph

end DebugLayout
