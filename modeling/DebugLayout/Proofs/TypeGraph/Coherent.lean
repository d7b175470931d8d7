import DebugLayout.Proofs.TypeGraph.Run
import Mathlib.Logic.Function.Basic

/-!
# DebugLayout — coherent graphs

A graph that is being built may hold references to composites that are not there yet, and some of
these never come. What a graph keeps to all the time is its **coherence**: a type that is referred
to by value is there, or else it is a composite that contains itself, and the way down aliases and
elements never leads back. The second follows from the order in which types are added: an alias or
an array comes after what it refers to, and the composites, which alone may go away again, lead
nowhere.

The ranks that witness the order are not computed anywhere. It is enough that each addition allows
ranks for the new graph, given some for the old one: what is added last gets a rank above all
others.

* `TypeGraph.Refers`, `TypeGraph.Inside`: the references by value, and those that lead down aliases
  and elements; `TypeGraph.Ranked`: the second have an end;
* `TypeGraph.Coherent`, `BuildState.Coherent`: coherence;
* `BuildState.Run.coherent`: a run keeps it;
* `BuildState.Surrounds`: the composites being built contain what is being built for them.
-/

namespace DebugLayout

open Relation (ReflTransGen TransGen)

-- ---------------------------------------------------------------------------
-- References
-- ---------------------------------------------------------------------------

/-- The references to what a type contains by value. -/
def TypeBody.parts : TypeBody → List Int
  | .array element _ _ _ => [element]
  | .composite _ _ members _ => members.map Member.typeRef
  | _ => []

/-- The reference to the elements of an array. -/
def TypeBody.element? : TypeBody → Option Int
  | .array element _ _ _ => some element
  | _ => none

theorem TypeBody.mem_parts_of_element? {body : TypeBody} {element : Int}
    (h : body.element? = some element) : element ∈ body.parts := by
  cases body with
  | array e dims stride size =>
    obtain rfl : e = element := Option.some.inj h
    exact List.mem_singleton_self e
  | _ => exact absurd h (by simp [TypeBody.element?])

namespace TypeGraph

/-- Whether what is under a reference refers to a type by value: an alias to what it stands for, a
node to its parts. -/
def Refers (g : TypeGraph) (ref part : Int) : Prop :=
  g.aliases.get? ref = some part ∨ ∃ node, g.nodes.get? ref = some node ∧ part ∈ node.body.parts

/-- Whether a reference leads to another one down an alias or to the elements of an array. -/
def Inside (g : TypeGraph) (ref inner : Int) : Prop :=
  g.aliases.get? ref = some inner ∨
    ∃ node, g.nodes.get? ref = some node ∧ node.body.element? = some inner

/-- Whether the way down aliases and elements has an end from everywhere: each step comes closer. -/
def Ranked (g : TypeGraph) : Prop :=
  ∃ rank : Int → Nat, ∀ ref inner, g.Inside ref inner → rank inner < rank ref

variable {g g' : TypeGraph} {store : Store} {node : TypeNode} {ref part inner other : Int}

/-- A step down an alias or to the elements of an array is a reference. -/
theorem Inside.refers (h : g.Inside ref inner) : g.Refers ref inner := by
  rcases h with h | ⟨node, hnode, h⟩
  · exact .inl h
  · exact .inr ⟨node, hnode, TypeBody.mem_parts_of_element? h⟩

/-- What refers to anything is in the graph. -/
theorem has_of_refers (h : g.Refers ref part) : g.has ref = true := by
  rcases h with h | ⟨node, hnode, -⟩
  · exact has_iff.2 (.inl ⟨part, h⟩)
  · exact has_iff.2 (.inr ⟨node, hnode⟩)

/-- A node that is added refers to its parts, and all else to what it did. -/
theorem refers_insert_node (node : TypeNode)
    (h : ({ g with nodes := g.nodes.insert node.ref node } : TypeGraph).Refers ref part) :
    g.Refers ref part ∨ ref = node.ref ∧ part ∈ node.body.parts := by
  rcases h with h | ⟨found, hfound, h⟩
  · exact .inl (.inl h)
  · rw [OrderedMap.get?_insert] at hfound
    split at hfound
    · rename_i href
      obtain rfl := Option.some.inj hfound
      exact .inr ⟨href.symm, h⟩
    · exact .inl (.inr ⟨found, hfound, h⟩)

/-- A new node adds the step to its own elements only. -/
theorem inside_insert_node
    (h : ({ g with nodes := g.nodes.insert node.ref node } : TypeGraph).Inside ref inner) :
    g.Inside ref inner ∨ ref = node.ref ∧ node.body.element? = some inner := by
  rcases h with h | ⟨found, hfound, h⟩
  · exact .inl (.inl h)
  · rw [OrderedMap.get?_insert] at hfound
    split at hfound
    · rename_i href
      obtain rfl := Option.some.inj hfound
      exact .inr ⟨href.symm, h⟩
    · exact .inl (.inr ⟨found, hfound, h⟩)

/-- An alias that is added refers to what it stands for, and all else to what it did. -/
theorem refers_of_addAlias {target : Int} {name : Option String}
    (hadd : g.addAlias other target name = .ok g') (h : g'.Refers ref part) :
    g.Refers ref part ∨ ref = other ∧ part = target := by
  obtain ⟨-, hnodes, haliases, -⟩ := addAlias_eq_ok hadd
  rcases h with h | ⟨node, hnode, h⟩
  · rw [haliases, OrderedMap.get?_insert] at h
    split at h
    · rename_i href
      exact .inr ⟨href.symm, (Option.some.inj h).symm⟩
    · exact .inl (.inl h)
  · exact .inl (.inr ⟨node, hnodes ▸ hnode, h⟩)

/-- A new alias adds the step to its target only. -/
theorem inside_of_addAlias {target : Int} {name : Option String}
    (hadd : g.addAlias other target name = .ok g') (h : g'.Inside ref inner) :
    g.Inside ref inner ∨ ref = other ∧ inner = target := by
  obtain ⟨-, hnodes, haliases, -⟩ := addAlias_eq_ok hadd
  rcases h with h | ⟨node, hnode, h⟩
  · rw [haliases, OrderedMap.get?_insert] at h
    split at h
    · rename_i href
      exact .inr ⟨href.symm, (Option.some.inj h).symm⟩
    · exact .inl (.inl h)
  · exact .inl (.inr ⟨node, hnodes ▸ hnode, h⟩)

theorem refers_discardPlaceholder (h : (g.discardPlaceholder other).Refers ref part) :
    g.Refers ref part := by
  rcases h with h | ⟨node, hnode, h⟩
  · rw [discardPlaceholder_aliases] at h
    exact .inl h
  · rw [get?_discardPlaceholder] at hnode
    split at hnode
    · exact absurd hnode (by simp)
    · exact .inr ⟨node, hnode, h⟩

theorem inside_discardPlaceholder (h : (g.discardPlaceholder other).Inside ref inner) :
    g.Inside ref inner := by
  rcases h with h | ⟨node, hnode, h⟩
  · rw [discardPlaceholder_aliases] at h
    exact .inl h
  · rw [get?_discardPlaceholder] at hnode
    split at hnode
    · exact absurd hnode (by simp)
    · exact .inr ⟨node, hnode, h⟩

-- ---------------------------------------------------------------------------
-- Coherent graphs
-- ---------------------------------------------------------------------------

/-- Whether a reference is there or is that of a composite that contains itself. -/
def Accounted (g : TypeGraph) (store : Store) (ref : Int) : Prop :=
  g.has ref = true ∨ store.SelfContaining ref

/-- What a graph keeps to while it is being built from a store. -/
structure Coherent (g : TypeGraph) (store : Store) : Prop where
  ownRef : ∀ ref node, g.nodes.get? ref = some node → node.ref = ref
  apart : ∀ ref target, g.aliases.get? ref = some target → g.nodes.get? ref = none
  placeholders : ∀ ref, g.hasPlaceholder ref = true → store.IsBody ref
  needs : ∀ ref part, g.Refers ref part → store.Needs ref part
  grounded : ∀ ref part, g.Refers ref part → g.Accounted store part
  ranked : g.Ranked

theorem coherent_empty (store : Store) : empty.Coherent store where
  ownRef _ _ h := absurd h (by simp [empty])
  apart _ _ h := absurd h (by simp [empty])
  placeholders _ h := absurd h (by simp [empty, hasPlaceholder])
  needs _ _ h := absurd h (by simp [empty, Refers])
  grounded _ _ h := absurd h (by simp [empty, Refers])
  ranked := ⟨fun _ => 0, fun _ _ h => absurd h (by simp [empty, Inside])⟩

/-- A new reference that leads to an older one gets a rank above it. No older one leads to it. -/
theorem Ranked.extend (hranked : g.Ranked) (top : Option Int)
    (hold : ∀ x y, g'.Inside x y → g.Inside x y ∨ x = ref ∧ top = some y)
    (hunused : ∀ x y, g.Inside x y → x ≠ ref ∧ y ≠ ref) (htop : top ≠ some ref) :
    g'.Ranked := by
  obtain ⟨rank, hrank⟩ := hranked
  refine ⟨Function.update rank ref (top.elim 0 (rank · + 1)), fun x y h => ?_⟩
  rcases hold x y h with h | ⟨rfl, rfl⟩
  · obtain ⟨hx, hy⟩ := hunused x y h
    rw [Function.update_of_ne hx, Function.update_of_ne hy]
    exact hrank x y h
  · have hy : y ≠ x := fun heq => htop (congrArg some heq)
    rw [Function.update_self, Function.update_of_ne hy, Option.elim_some]
    exact Nat.lt_succ_self _

namespace Coherent

variable (hg : g.Coherent store)
include hg

/-- Nothing refers to a reference that is not there and is no composite. -/
theorem unused (hbody : ¬ store.IsBody ref) (hnew : g.has ref = false) (x y : Int)
    (h : g.Inside x y) : x ≠ ref ∧ y ≠ ref := by
  constructor
  · rintro rfl
    rw [has_of_refers h.refers] at hnew
    exact absurd hnew (by decide)
  · rintro rfl
    rcases hg.grounded x y h.refers with hhas | hself
    · rw [hhas] at hnew
      exact absurd hnew (by decide)
    · exact hbody hself.1

/-- A graph with a new node, or with one in the place of another node, stays coherent, provided that
all parts of the node are there and are needed. -/
theorem insertNode (halias : g.aliases.get? node.ref = none)
    (hplaceholder : node.isPlaceholder = true → store.IsBody node.ref)
    (hparts : ∀ part ∈ node.body.parts, g.has part = true ∧ store.Needs node.ref part)
    (hranked : ({ g with nodes := g.nodes.insert node.ref node } : TypeGraph).Ranked) :
    ({ g with nodes := g.nodes.insert node.ref node } : TypeGraph).Coherent store := by
  have hkept : ∀ other, g.has other = true →
      ({ g with nodes := g.nodes.insert node.ref node } : TypeGraph).has other = true :=
    fun other hother => (has_insert_node _).2 (.inr hother)
  refine ⟨?ownRef, ?apart, ?placeholders, ?needs, ?grounded, hranked⟩
  case ownRef =>
    intro ref found hfound
    rw [OrderedMap.get?_insert] at hfound
    split at hfound
    · rename_i href
      obtain rfl := Option.some.inj hfound
      exact href
    · exact hg.ownRef ref found hfound
  case apart =>
    intro ref target htarget
    rw [OrderedMap.get?_insert, if_neg]
    · exact hg.apart ref target htarget
    · rintro rfl
      rw [halias] at htarget
      exact absurd htarget (by simp)
  case placeholders =>
    intro ref href
    rw [hasPlaceholder_insert_node] at href
    split at href
    · rename_i hsame
      exact hsame ▸ hplaceholder href
    · exact hg.placeholders ref href
  case needs =>
    intro ref part hrefers
    rcases refers_insert_node node hrefers with hrefers | ⟨rfl, hpart⟩
    · exact hg.needs ref part hrefers
    · exact (hparts part hpart).2
  case grounded =>
    -- what was there still is, and the parts of the node are
    intro ref part hrefers
    rcases refers_insert_node node hrefers with hrefers | ⟨rfl, hpart⟩
    · exact (hg.grounded ref part hrefers).imp_left (hkept part)
    · exact .inl (hkept part (hparts part hpart).1)

/-- A graph with a node that it admits stays coherent. -/
theorem addNode (hbody : ¬ store.IsBody node.ref) (hadmits : g.Admits store node.ref node.body)
    (h : g.addNode node = .ok g') : g'.Coherent store := by
  obtain ⟨-, hfree, rfl⟩ := addNode_eq_ok h
  -- a placeholder would be one of a composite
  have hnew : g.has node.ref = false := by
    by_contra hhas
    exact hbody (hg.placeholders _ (hfree (by simpa using hhas)))
  have hparts : ∀ part ∈ node.body.parts, g.has part = true ∧ store.Needs node.ref part := by
    intro part hpart
    generalize node.body = body at hadmits hpart
    cases hadmits with
    | array stride size helement hneeds hdims =>
      obtain rfl := List.mem_singleton.1 hpart
      exact ⟨helement, hneeds⟩
    | _ => exact absurd hpart (by simp [TypeBody.parts])
  have hreal : ¬ node.isPlaceholder = true := Bool.eq_false_iff.1 hadmits.isPlaceholder
  refine hg.insertNode (has_eq_false_iff.1 hnew).1 (fun h => absurd h hreal) hparts ?_
  -- nothing leads to the new node yet, so that it may be ranked above its elements
  refine hg.ranked.extend node.body.element? (fun x y hinside => inside_insert_node hinside)
    (hg.unused hbody hnew) fun htop => ?_
  have hself := (hparts _ (TypeBody.mem_parts_of_element? htop)).1
  rw [hnew] at hself
  exact absurd hself (by decide)

/-- A graph with one more alias stays coherent, if the target is there and is needed. -/
theorem addAlias {target : Int} {name : Option String} (hbody : ¬ store.IsBody ref)
    (hneeds : store.Needs ref target) (htarget : g.has target = true)
    (h : g.addAlias ref target name = .ok g') : g'.Coherent store := by
  obtain ⟨hnew, hnodes, haliases, -⟩ := addAlias_eq_ok h
  have hkept : ∀ other, g.has other = true → g'.has other = true :=
    fun other hother => (has_of_addAlias h other).2 (.inr hother)
  constructor
  · intro other node hnode
    exact hg.ownRef other node (hnodes ▸ hnode)
  · intro other aim haim
    rw [haliases, OrderedMap.get?_insert] at haim
    rw [hnodes]
    split at haim
    · rename_i href
      exact href ▸ (has_eq_false_iff.1 hnew).2
    · exact hg.apart other aim haim
  · intro other hplaceholder
    rw [hasPlaceholder_iff, hnodes] at hplaceholder
    exact hg.placeholders other (hasPlaceholder_iff.2 hplaceholder)
  · intro other part hrefers
    rcases refers_of_addAlias h hrefers with hrefers | ⟨rfl, rfl⟩
    · exact hg.needs other part hrefers
    · exact hneeds
  · intro other part hrefers
    rcases refers_of_addAlias h hrefers with hrefers | ⟨rfl, rfl⟩
    · exact (hg.grounded other part hrefers).imp_left (hkept part)
    · exact .inl (hkept part htarget)
  · -- nothing leads to the alias yet, so that it may be ranked above its target
    refine hg.ranked.extend (some target) (fun x y hinside => ?_)
      (hg.unused hbody hnew) fun htop => ?_
    · exact (inside_of_addAlias h hinside).imp_right fun heq => ⟨heq.1, congrArg some heq.2.symm⟩
    · rw [Option.some.inj htop, hnew] at htarget
      exact absurd htarget (by decide)

/-- A placeholder, or a composite in its place, may stand under the reference of a composite that is
no alias. -/
theorem insertBody (node : TypeNode) (hbody : store.IsBody node.ref)
    (halias : g.aliases.get? node.ref = none) (helement : node.body.element? = none)
    (hparts : ∀ part ∈ node.body.parts, g.has part = true ∧ store.Needs node.ref part) :
    ({ g with nodes := g.nodes.insert node.ref node } : TypeGraph).Coherent store := by
  refine hg.insertNode halias (fun _ => hbody) hparts ?_
  -- the node has no elements, so that the ranks may stay what they are
  obtain ⟨rank, hrank⟩ := hg.ranked
  refine ⟨rank, fun x y hinside => ?_⟩
  rcases inside_insert_node hinside with hinside | ⟨-, htop⟩
  · exact hrank x y hinside
  · rw [helement] at htop
    exact absurd htop (by simp)

/-- A graph with the placeholder of a composite stays coherent. -/
theorem addPlaceholder (hbody : store.IsBody ref) (h : g.addPlaceholder ref = .ok g') :
    g'.Coherent store := by
  obtain ⟨hnew, rfl⟩ := addPlaceholder_eq_ok h
  have halias : g.aliases.get? ref = none := (has_eq_false_iff.1 hnew).1
  refine hg.insertBody (placeholder ref) hbody halias rfl fun part hpart => ?_
  exact absurd hpart (by simp [placeholder, TypeBody.parts])

/-- A graph whose placeholder is filled stays coherent, if the types of the members are there and
are needed. -/
theorem fillPlaceholder {name : Option String} {kind : CompositeKind} {size : Option Int}
    {members : List Member} {isClass : Bool} (hbody : store.IsBody ref)
    (hmembers : ∀ m ∈ members, g.has m.typeRef = true ∧ store.Needs ref m.typeRef)
    (h : g.fillPlaceholder ⟨ref, name, .composite kind size members isClass⟩ = .ok g') :
    g'.Coherent store := by
  obtain ⟨hplaceholder, rfl⟩ := fillPlaceholder_eq_ok h
  have halias : g.aliases.get? ref = none := by
    obtain ⟨node, hnode, -⟩ := hasPlaceholder_iff.1 hplaceholder
    by_contra hsome
    obtain ⟨target, htarget⟩ := Option.ne_none_iff_exists'.1 hsome
    rw [hg.apart ref target htarget] at hnode
    exact absurd hnode (by simp)
  refine hg.insertBody ⟨ref, name, .composite kind size members isClass⟩ hbody halias rfl
    fun part hpart => ?_
  obtain ⟨m, hm, rfl⟩ := List.mem_map.1 hpart
  exact hmembers m hm

/-- A composite may be given up if all that refer to it by then were built for it. -/
theorem discardPlaceholder (hbody : store.IsBody ref)
    (hfor : ∀ x, g.Refers x ref → ReflTransGen store.Needs ref x ∨ store.SelfContaining ref) :
    (g.discardPlaceholder ref).Coherent store := by
  constructor
  · intro other node hnode
    rw [get?_discardPlaceholder] at hnode
    split at hnode
    · exact absurd hnode (by simp)
    · exact hg.ownRef other node hnode
  · intro other target htarget
    rw [discardPlaceholder_aliases] at htarget
    rw [get?_discardPlaceholder]
    split
    · rfl
    · exact hg.apart other target htarget
  · intro other hplaceholder
    exact hg.placeholders other (hasPlaceholder_discardPlaceholder hplaceholder).2
  · intro other part hrefers
    exact hg.needs other part (refers_discardPlaceholder hrefers)
  · intro other part hrefers
    have hbefore : g.Refers other part := refers_discardPlaceholder hrefers
    -- what refers to the discarded composite is part of it, so that it contains itself
    by_cases hpart : part = ref
    · subst hpart
      rcases hfor other hbefore with hneeds | hself
      · exact .inr ⟨hbody, TransGen.tail' hneeds (hg.needs other part hbefore)⟩
      · exact .inr hself
    · exact (hg.grounded other part hbefore).imp_left (has_discardPlaceholder hpart)
  · obtain ⟨rank, hrank⟩ := hg.ranked
    exact ⟨rank, fun x y hinside => hrank x y (inside_discardPlaceholder hinside)⟩

end Coherent

end TypeGraph

-- ---------------------------------------------------------------------------
-- Coherent states
-- ---------------------------------------------------------------------------

namespace BuildState

variable {store : Store} {root ref : Int} {s t : BuildState}

/-- What the state of a building keeps to: composites are not followed as aliases are, an entry is
never blamed for a reference to a composite, and every fault for which a type is left out is
recorded, but for those that only the graph itself can come to. -/
structure Coherent (s : BuildState) (store : Store) : Prop where
  graph : s.graph.Coherent store
  following : ∀ ref ∈ s.following, ¬ store.IsBody ref
  faults : ∀ missing, .dangling missing ∈ s.graph.faults → ¬ store.IsBody missing.ref
  failures : ∀ ref fault, s.failures.get? ref = some fault →
    fault ∈ s.graph.faults ∨ fault.Unlisted store

theorem coherent_start (store : Store) : start.Coherent store where
  graph := TypeGraph.coherent_empty store
  following _ h := absurd h (by simp [start])
  faults _ h := absurd h (by simp [start, TypeGraph.empty])
  failures _ _ h := absurd h (by simp [start])

/-- Another graph with the same faults is as good. -/
theorem Coherent.withGraph {g : TypeGraph} (hs : s.Coherent store) (hg : g.Coherent store)
    (hfaults : g.faults = s.graph.faults) :
    ({ s with graph := g } : BuildState).Coherent store where
  graph := hg
  following := hs.following
  faults missing h := hs.faults missing (hfaults ▸ h)
  failures ref fault h := by
    show fault ∈ g.faults ∨ _
    rw [hfaults]
    exact hs.failures ref fault h

/-- What refers to a type after a run did so before, or was built in the run. -/
theorem Run.refers {x y : Int} (h : Run store root s t) (href : t.graph.Refers x y) :
    s.graph.Refers x y ∨ ReflTransGen store.Needs root x := by
  -- a run adds references under the type itself and under those that it needs
  induction h with
  | refl | record | remember => exact .inl href
  | trans _ _ ih ih' =>
    rcases ih' href with href | hneeds
    · exact ih href
    · exact .inr hneeds
  | needed hneeds _ ih => exact (ih href).imp_right (.head hneeds)
  | followed _ _ ih => exact ih href
  | node _ _ h =>
    obtain ⟨-, -, rfl⟩ := TypeGraph.addNode_eq_ok h
    rcases TypeGraph.refers_insert_node _ href with href | ⟨rfl, -⟩
    · exact .inl href
    · exact .inr .refl
  | synonym _ _ _ h =>
    rcases TypeGraph.refers_of_addAlias h href with href | ⟨rfl, -⟩
    · exact .inl href
    · exact .inr .refl
  | composite _ hplaceholder _ _ h ih =>
    obtain ⟨-, rfl⟩ := TypeGraph.addPlaceholder_eq_ok hplaceholder
    obtain ⟨-, rfl⟩ := TypeGraph.fillPlaceholder_eq_ok h
    rcases TypeGraph.refers_insert_node _ href with href | ⟨rfl, -⟩
    · rcases ih href with href | hneeds
      · rcases TypeGraph.refers_insert_node (TypeGraph.placeholder _) href with href | ⟨rfl, -⟩
        · exact .inl href
        · exact .inr .refl
      · exact .inr hneeds
    · exact .inr .refl
  | abandoned _ hplaceholder _ ih =>
    obtain ⟨-, rfl⟩ := TypeGraph.addPlaceholder_eq_ok hplaceholder
    rcases ih (TypeGraph.refers_discardPlaceholder href) with href | hneeds
    · rcases TypeGraph.refers_insert_node (TypeGraph.placeholder _) href with href | ⟨rfl, -⟩
      · exact .inl href
      · exact .inr .refl
    · exact .inr hneeds

/-- A run keeps the coherence of the state. -/
theorem Run.coherent (h : Run store root s t) (hs : s.Coherent store) : t.Coherent store := by
  induction h with
  | refl => exact hs
  | trans _ _ ih ih' => exact ih' (ih hs)
  | needed _ _ ih => exact ih hs
  | node hbody hadmits h =>
    obtain ⟨-, -, hg⟩ := TypeGraph.addNode_eq_ok h
    exact hs.withGraph (hs.graph.addNode hbody hadmits h) (by rw [hg])
  | synonym hbody hneeds htarget h =>
    obtain ⟨-, -, -, hfaults⟩ := TypeGraph.addAlias_eq_ok h
    exact hs.withGraph (hs.graph.addAlias hbody hneeds htarget h) hfaults
  | composite hbody hplaceholder _ hmembers h ih =>
    obtain ⟨-, hg⟩ := TypeGraph.addPlaceholder_eq_ok hplaceholder
    have hinner := ih (hs.withGraph (hs.graph.addPlaceholder hbody hplaceholder) (by rw [hg]))
    obtain ⟨-, hg'⟩ := TypeGraph.fillPlaceholder_eq_ok h
    exact hinner.withGraph (hinner.graph.fillPlaceholder hbody hmembers h) (by rw [hg'])
  | @abandoned s t ref g hbody hplaceholder hrun ih =>
    -- the composite was begun and given up again
    obtain ⟨hnew, hg⟩ := TypeGraph.addPlaceholder_eq_ok hplaceholder
    have hinner := ih (hs.withGraph (hs.graph.addPlaceholder hbody hplaceholder) (by rw [hg]))
    refine hinner.withGraph (hinner.graph.discardPlaceholder hbody fun x hx => ?_)
      TypeGraph.discardPlaceholder_faults
    -- what referred to the composite before it was begun knew that it was missing
    rcases hrun.refers hx with hx | hneeds
    · subst hg
      rcases TypeGraph.refers_insert_node (TypeGraph.placeholder _) hx with hx | ⟨rfl, -⟩
      · rcases hs.graph.grounded x ref hx with hhas | hself
        · rw [hnew] at hhas
          exact absurd hhas (by decide)
        · exact .inr hself
      · exact .inl .refl
    · exact .inl hneeds
  | @record _ s fault h =>
    refine ⟨⟨hs.graph.ownRef, hs.graph.apart, hs.graph.placeholders, hs.graph.needs,
      hs.graph.grounded, hs.graph.ranked⟩, hs.following, fun missing hmissing => ?_,
      fun ref other hother => ?_⟩
    · rcases List.mem_append.1 hmissing with hmissing | hmissing
      · exact hs.faults missing hmissing
      · exact h missing (List.mem_singleton.1 hmissing).symm
    · exact (hs.failures ref other hother).imp_left (List.mem_append_left _)
  | remember h =>
    refine ⟨hs.graph, hs.following, hs.faults, fun ref other hother => ?_⟩
    rw [failures_remembering] at hother
    split at hother
    · obtain rfl := Option.some.inj hother
      exact h
    · exact hs.failures ref other hother
  | @followed ref s t hbody _ ih =>
    have hinner := ih ⟨hs.graph, fun other hother => ?_, hs.faults, hs.failures⟩
    · exact ⟨hinner.graph, fun other hother =>
        hinner.following other (List.mem_filter.1 hother).1, hinner.faults, hinner.failures⟩
    · rcases List.mem_insert_iff.1 hother with rfl | hother
      · exact hbody
      · exact hs.following other hother

-- ---------------------------------------------------------------------------
-- Composites being built
-- ---------------------------------------------------------------------------

/-- Whether every composite that is being built contains a type by value, or is that type. -/
def Surrounds (s : BuildState) (store : Store) (ref : Int) : Prop :=
  ∀ outer, s.graph.hasPlaceholder outer = true → ReflTransGen store.Needs outer ref

/-- What contains a type contains what the type needs. -/
theorem Surrounds.needed {needed : Int} (hs : s.Surrounds store ref)
    (hneeds : store.Needs ref needed) : s.Surrounds store needed :=
  fun outer houter => (hs outer houter).tail hneeds

/-- A run leaves the composites that are being built as they are. -/
theorem Run.surrounds (h : Run store root s t) (hs : s.Surrounds store ref) :
    t.Surrounds store ref :=
  fun outer houter => hs outer (h.hasPlaceholder houter)

/-- The composite that is begun is the type itself, so that all that is being built still contains
it. -/
theorem Surrounds.addPlaceholder {g : TypeGraph} (hs : s.Surrounds store ref)
    (h : s.graph.addPlaceholder ref = .ok g) :
    ({ s with graph := g } : BuildState).Surrounds store ref := by
  obtain ⟨-, rfl⟩ := TypeGraph.addPlaceholder_eq_ok h
  intro outer houter
  have houter : ({ s.graph with
      nodes := s.graph.nodes.insert ref (TypeGraph.placeholder ref) } :
      TypeGraph).hasPlaceholder outer = true := houter
  rw [TypeGraph.hasPlaceholder_insert_node] at houter
  split at houter
  · rename_i heq
    exact heq ▸ .refl
  · exact hs outer houter

end BuildState

end DebugLayout
