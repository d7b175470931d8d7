import DebugLayout.Proofs.Layout.Expansion
import Mathlib.Logic.Relation

/-!
# DebugLayout — types within types

A type contains others **by value**: an array its elements, a composite its members. What an
expansion comes to are the types that can be reached this way, and so a property of all of them is
one that the expansion can rely on.

Whatever is proved of an expansion by induction on its levels needs its hypothesis for the types one
level below. Since those are reached as well, a hypothesis on all reachable types passes down by
itself (`Reaches.of_part`).

* `TypeGraph.Part`, `TypeGraph.Reaches`: one step, and any number of them;
* `TypeGraph.Nests`: how deep the types go;
* `TypeGraph.partsOf`, `Reaches.mem_of_closed`: the types that are reached, as a list;
* `TypeGraph.byteSize_array`: the size of an array is the one it gives, or that of its elements.
-/

namespace DebugLayout

/-- Whether a type contains others by value. -/
def TypeBody.hasParts : TypeBody → Bool
  | .array .. | .composite .. => true
  | _ => false

namespace TypeGraph

variable {g : TypeGraph}

/-- Whether a type has a property, if the reference has a type at all. -/
def Holds (g : TypeGraph) (P : TypeBody → Prop) (ref : Int) : Prop :=
  ∀ node, g.resolve ref = .ok node → P node.body

instance (P : TypeBody → Prop) [DecidablePred P] (ref : Int) : Decidable (g.Holds P ref) :=
  inferInstanceAs (Decidable (∀ node, g.resolve ref = .ok node → P node.body))

-- ---------------------------------------------------------------------------
-- Reachable types
-- ---------------------------------------------------------------------------

/-- Whether a type directly contains another one by value. -/
inductive Part (g : TypeGraph) (whole : Int) : Int → Prop
  | element {node : TypeNode} {element : Int} {dims : List Int} {stride size : Option Int}
      (hnode : g.resolve whole = .ok node) (hbody : node.body = .array element dims stride size) :
      Part g whole element
  | member {node : TypeNode} {kind : CompositeKind} {size : Option Int} {members : List Member}
      {isClass : Bool} {m : Member} (hnode : g.resolve whole = .ok node)
      (hbody : node.body = .composite kind size members isClass) (hm : m ∈ members) :
      Part g whole m.typeRef

/-- The types that a type directly contains by value. -/
def partsOf (g : TypeGraph) (whole : Int) : List Int :=
  match g.resolve whole with
  | .error _ => []
  | .ok node =>
    match node.body with
    | .array element _ _ _ => [element]
    | .composite _ _ members _ => members.map Member.typeRef
    | _ => []

theorem mem_partsOf {whole part : Int} (h : g.Part whole part) : part ∈ g.partsOf whole := by
  cases h with
  | element hnode hbody => simp [partsOf, hnode, hbody]
  | member hnode hbody hm =>
    simp only [partsOf, hnode, hbody]
    exact List.mem_map_of_mem hm

/-- Whether a type is another one or is contained in it by value, through any number of types. -/
def Reaches (g : TypeGraph) : Int → Int → Prop := Relation.ReflTransGen g.Part

theorem Reaches.refl (g : TypeGraph) (ref : Int) : g.Reaches ref ref := Relation.ReflTransGen.refl

theorem Reaches.tail {a b c : Int} (h : g.Reaches a b) (hpart : g.Part b c) : g.Reaches a c :=
  Relation.ReflTransGen.tail h hpart

theorem Reaches.head {a b c : Int} (hpart : g.Part a b) (h : g.Reaches b c) : g.Reaches a c :=
  Relation.ReflTransGen.head hpart h

/-- A property of all types that can be reached is one of those that a part reaches. -/
theorem Reaches.of_part {P : Int → Prop} {whole part : Int} (hpart : g.Part whole part)
    (h : ∀ t, g.Reaches whole t → P t) : ∀ t, g.Reaches part t → P t :=
  fun t ht => h t (.head hpart ht)

/-- A set of types that holds the parts of all its types holds all that these reach. -/
theorem Reaches.closed {S : Int → Prop} (hclosed : ∀ a b, S a → g.Part a b → S b) {a b : Int}
    (h : g.Reaches a b) (ha : S a) : S b := by
  induction h with
  | refl => exact ha
  | tail _ hpart ih => exact hclosed _ _ ih hpart

/-- Types that hold the parts of all of them hold all that they reach. -/
theorem Reaches.mem_of_closed {refs : List Int} {ref t : Int}
    (hclosed : ∀ a ∈ refs, ∀ b ∈ g.partsOf a, b ∈ refs) (hmem : ref ∈ refs)
    (h : g.Reaches ref t) : t ∈ refs :=
  h.closed (fun _ _ ha hpart => hclosed _ ha _ (mem_partsOf hpart)) hmem

/-- Whether types are contained in each other by value so many levels deep from a type on. -/
def Nests (g : TypeGraph) : Nat → Int → Prop
  | 0, _ => True
  | levels + 1, ref => ∃ part, g.Part ref part ∧ g.Nests levels part

theorem Nests.pred {levels : Nat} {ref : Int} (h : g.Nests (levels + 1) ref) :
    g.Nests levels ref := by
  induction levels generalizing ref with
  | zero => trivial
  | succ levels ih =>
    obtain ⟨part, hpart, hnests⟩ := h
    exact ⟨part, hpart, ih hnests⟩

/-- A type nests at least as deep as what it reaches. -/
theorem Nests.of_reaches {levels : Nat} {ref part : Int} (hreach : g.Reaches ref part)
    (h : g.Nests levels part) : g.Nests levels ref := by
  induction hreach using Relation.ReflTransGen.head_induction_on with
  | refl => exact h
  | head hpart _ ih => exact Nests.pred ⟨_, hpart, ih⟩

-- ---------------------------------------------------------------------------
-- Sizes
-- ---------------------------------------------------------------------------

/-- A size that is found within some levels is found within one more. -/
theorem byteSizeWithin_succ {levels : Nat} {ref size : Int}
    (h : g.byteSizeWithin levels ref = .ok (some size)) :
    g.byteSizeWithin (levels + 1) ref = .ok (some size) := by
  induction levels generalizing ref size with
  | zero =>
    rw [byteSizeWithin] at h
    rw [byteSizeWithin.eq_2]
    obtain ⟨node, hnode, h⟩ := bind_eq_ok.1 h
    refine bind_eq_ok.2 ⟨node, hnode, ?_⟩
    -- an array that gives no size has none at this level
    split
    · rename_i hbody
      rw [pure_eq_ok, TypeNode.byteSize?, hbody] at h
      exact absurd h (by simp [TypeBody.byteSize?])
    · rename_i hbody
      rw [pure_eq_ok, TypeNode.byteSize?, hbody] at h
      exact absurd h (by simp [TypeBody.byteSize?])
    · exact h
  | succ levels ih =>
    rw [byteSizeWithin] at h ⊢
    obtain ⟨node, hnode, h⟩ := bind_eq_ok.1 h
    refine bind_eq_ok.2 ⟨node, hnode, ?_⟩
    split
    · rename_i element dims hbody
      simp only [hbody] at h
      obtain ⟨inner, hinner, h⟩ := bind_eq_ok.1 h
      cases inner with
      | none =>
        -- without a size of the element there is none of the array
        exact absurd h (by simp [pure_eq_ok])
      | some inner => exact bind_eq_ok.2 ⟨some inner, ih hinner, h⟩
    · rename_i hbody
      simp only [hbody] at h
      exact h
    · -- a node that is no array has the same size at every level
      rename_i hnone hsome
      split at h
      · rename_i hbody
        exact absurd hbody (hnone _ _)
      · rename_i hbody
        exact absurd hbody (hsome _ _ _)
      · exact h

/-- The size of an array that is known is the one that the array gives, or else its stride as often
as it has elements. -/
theorem byteSize_array {ref element total step : Int} {node : TypeNode} {dims : List Int}
    {stride size : Option Int} (hnode : g.resolve ref = .ok node)
    (hbody : node.body = .array element dims stride size)
    (htotal : g.byteSize ref = .ok (some total))
    (hstep : g.arrayStride element stride = .ok (some step)) :
    size = some total ∨ size = none ∧ total = elementCount dims * step := by
  rw [byteSize, byteSizeWithin, hnode] at htotal
  simp only [bind, Except.bind, hbody] at htotal
  cases size with
  | some explicit =>
    -- a size in the entry stands before any product
    have hexplicit : some explicit = some total := by
      simpa [pure_eq_ok, TypeNode.byteSize?, hbody, TypeBody.byteSize?] using htotal
    exact .inl hexplicit
  | none =>
    cases stride with
    | some explicit =>
      have hstep : explicit = step := by simpa [arrayStride] using hstep
      have htotal : elementCount dims * explicit = total := by simpa [pure_eq_ok] using htotal
      exact .inr ⟨rfl, by rw [← htotal, hstep]⟩
    | none =>
      simp only at htotal
      cases hinner : g.byteSizeWithin g.nodes.size element with
      | error fault =>
        rw [hinner] at htotal
        exact absurd htotal (by simp)
      | ok inner =>
        rw [hinner] at htotal
        obtain ⟨inner, rfl, hproduct⟩ := Option.map_eq_some_iff.1 (pure_eq_ok.1 htotal)
        -- both ask for the size of the element, one of them a level deeper
        have hsame : g.byteSize element = .ok (some inner) := byteSizeWithin_succ hinner
        have hstep : g.byteSize element = .ok (some step) := hstep
        obtain rfl : inner = step := Option.some.inj (eq_of_ok hsame hstep)
        exact .inr ⟨rfl, hproduct.symm⟩

end TypeGraph

end DebugLayout
