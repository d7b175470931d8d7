import DebugLayout.Proofs.TypeGraph.Exec

/-!
# DebugLayout — runs of the building

Building a type graph is a long recursion, but it changes the graph in few ways: it adds a node that
an entry describes, an alias of something that is there, or a composite, which has a placeholder
while its members are built and loses it again if they cannot be. A **run** is any sequence of such
changes on behalf of one type and of the types that it needs, as a relation between the states
before and after it. What every single change keeps, all runs keep.

A run forgets in which function a change was made and which types were asked for in between. What is
left is enough for every statement about what graphs keep, and a new kind of entry that adds nodes
or aliases in the same ways changes nothing about it.

* `TypeGraph.Admits`: the nodes that may be added to a graph;
* `BuildState.Run`: the runs;
* `TypeGraph.addNode_eq_ok`, …: what the operations on the arena do;
* `BuildState.Run.has`, `Run.hasPlaceholder`: nothing that is in the graph goes away, and no
  placeholder is left behind;
* `BuildState.Run.forall_nodes`: what holds of all nodes.
-/

namespace DebugLayout

open Relation (ReflTransGen)

-- ---------------------------------------------------------------------------
-- Runs
-- ---------------------------------------------------------------------------

/-- A reference to a composite that contains itself. The graph itself may report one, and then no
entry is to blame. -/
def TypeFault.Unlisted (store : Store) (fault : TypeFault) : Prop :=
  ∃ missing, fault = .dangling missing ∧ store.SelfContaining missing.ref

/-- Whether a node of some kind other than a composite may be added to a graph under a reference. -/
inductive TypeGraph.Admits (g : TypeGraph) (store : Store) (ref : Int) : TypeBody → Prop
  | scalar (encoding : Option Encoding) (size : Int) :
      Admits g store ref (.scalar encoding size (dataTypeOf encoding size))
  | enum {size : Int} {type : DataType} (enumerators : List (String × Int))
      (h : type = .unknown ∨ (type.byteSize : Int) = size) :
      Admits g store ref (.enum size type enumerators)
  | pointer (target : Option Int) (size : Int) (isFunction isReference : Bool) :
      Admits g store ref (.pointer target size isFunction isReference)
  | array {element : Int} {dims : List Int} (stride size : Option Int)
      (helement : g.has element = true) (hneeds : store.Needs ref element) (hdims : dims ≠ []) :
      Admits g store ref (.array element dims stride size)
  | signature (result : Option Int) (parameters : List Int) (isVariadic : Bool) :
      Admits g store ref (.signature result parameters isVariadic)
  | void : Admits g store ref .void
  | unspecified (size : Option Int) : Admits g store ref (.unspecified size)

theorem TypeGraph.Admits.isPlaceholder {g : TypeGraph} {store : Store} {ref : Int} {body : TypeBody}
    (h : g.Admits store ref body) : body.isPlaceholder = false := by
  cases h <;> rfl

namespace BuildState

/-- What the building of a type, and of the types that it needs, can do to the state. -/
inductive Run (store : Store) : Int → BuildState → BuildState → Prop
  | refl (ref : Int) (s : BuildState) : Run store ref s s
  | trans {ref : Int} {s t u : BuildState} (h : Run store ref s t) (h' : Run store ref t u) :
      Run store ref s u
  | needed {ref needed : Int} {s t : BuildState} (hneeds : store.Needs ref needed)
      (h : Run store needed s t) : Run store ref s t
  | node {s : BuildState} {node : TypeNode} {g : TypeGraph} (hbody : ¬ store.IsBody node.ref)
      (hadmits : s.graph.Admits store node.ref node.body) (h : s.graph.addNode node = .ok g) :
      Run store node.ref s { s with graph := g }
  | synonym {s : BuildState} {ref target : Int} {name : Option String} {g : TypeGraph}
      (hbody : ¬ store.IsBody ref) (hneeds : store.Needs ref target)
      (htarget : s.graph.has target = true) (h : s.graph.addAlias ref target name = .ok g) :
      Run store ref s { s with graph := g }
  | composite {s t : BuildState} {ref : Int} {name : Option String} {kind : CompositeKind}
      {size : Option Int} {members : List Member} {isClass : Bool} {g g' : TypeGraph}
      (hbody : store.IsBody ref) (hplaceholder : s.graph.addPlaceholder ref = .ok g)
      (hrun : Run store ref { s with graph := g } t)
      (hmembers : ∀ m ∈ members, t.graph.has m.typeRef = true ∧ store.Needs ref m.typeRef)
      (h : t.graph.fillPlaceholder ⟨ref, name, .composite kind size members isClass⟩ = .ok g') :
      Run store ref s { t with graph := g' }
  | abandoned {s t : BuildState} {ref : Int} {g : TypeGraph} (hbody : store.IsBody ref)
      (hplaceholder : s.graph.addPlaceholder ref = .ok g)
      (hrun : Run store ref { s with graph := g } t) :
      Run store ref s { t with graph := t.graph.discardPlaceholder ref }
  | record {ref : Int} {s : BuildState} {fault : TypeFault}
      (h : ∀ missing, fault = .dangling missing → ¬ store.IsBody missing.ref) :
      Run store ref s (s.recorded fault)
  | remember {ref : Int} {s : BuildState} {fault : TypeFault}
      (h : fault ∈ s.graph.faults ∨ fault.Unlisted store) :
      Run store ref s (s.remembering ref fault)
  | followed {ref : Int} {s t : BuildState} (hbody : ¬ store.IsBody ref)
      (hrun : Run store ref (s.entering ref) t) : Run store ref s (t.leaving ref)

end BuildState

-- ---------------------------------------------------------------------------
-- Operations on the arena
-- ---------------------------------------------------------------------------

namespace TypeGraph

variable {g g' : TypeGraph} {node : TypeNode} {ref other : Int}

theorem hasPlaceholder_iff :
    g.hasPlaceholder ref = true ↔ ∃ node, g.nodes.get? ref = some node ∧ node.isPlaceholder := by
  unfold hasPlaceholder
  cases g.nodes.get? ref with
  | none => simp
  | some node => simp

theorem has_iff : g.has ref = true ↔
    (∃ target, g.aliases.get? ref = some target) ∨ ∃ node, g.nodes.get? ref = some node := by
  rw [has, isAlias, Bool.or_eq_true, OrderedMap.contains, OrderedMap.contains,
    Option.isSome_iff_exists, Option.isSome_iff_exists]

/-- A reference is not there if it is neither an alias nor a node. -/
theorem has_eq_false_iff :
    g.has ref = false ↔ g.aliases.get? ref = none ∧ g.nodes.get? ref = none := by
  rw [has, isAlias, Bool.or_eq_false_iff, OrderedMap.contains, OrderedMap.contains,
    Option.isSome_eq_false_iff, Option.isSome_eq_false_iff, Option.isNone_iff_eq_none,
    Option.isNone_iff_eq_none]

/-- What a node is added to is free, but for a placeholder. -/
theorem addNode_eq_ok (h : g.addNode node = .ok g') :
    g.isAlias node.ref = false ∧
      (g.has node.ref = true → g.hasPlaceholder node.ref = true) ∧
      g' = { g with nodes := g.nodes.insert node.ref node } := by
  unfold addNode at h
  split at h
  · exact absurd h (by simp)
  · rename_i hfree
    split at h
    · exact absurd h (by simp)
    · rename_i halias
      have halias : g.isAlias node.ref = false := Bool.eq_false_iff.2 halias
      refine ⟨halias, fun hhas => ?_, (Except.ok.inj h).symm⟩
      have hnode : g.nodes.contains node.ref = true := by simpa [has, halias] using hhas
      simpa [hnode] using hfree

/-- A placeholder is added where nothing is there yet. -/
theorem addPlaceholder_eq_ok (h : g.addPlaceholder ref = .ok g') :
    g.has ref = false ∧ g' = { g with nodes := g.nodes.insert ref (placeholder ref) } := by
  unfold addPlaceholder at h
  split at h
  · exact absurd h (by simp)
  · rename_i hhas
    exact ⟨Bool.eq_false_iff.2 hhas, (Except.ok.inj h).symm⟩

/-- A node takes the place of a placeholder that is there. -/
theorem fillPlaceholder_eq_ok (h : g.fillPlaceholder node = .ok g') :
    g.hasPlaceholder node.ref = true ∧
      g' = { g with nodes := g.nodes.insert node.ref node } := by
  unfold fillPlaceholder at h
  split at h
  · rename_i hplaceholder
    exact ⟨hplaceholder, (Except.ok.inj h).symm⟩
  · exact absurd h (by simp)

/-- An alias is added where nothing is there yet, and only the aliases change. -/
theorem addAlias_eq_ok {target : Int} {name : Option String}
    (h : g.addAlias ref target name = .ok g') :
    g.has ref = false ∧ g'.nodes = g.nodes ∧ g'.aliases = g.aliases.insert ref target ∧
      g'.faults = g.faults := by
  unfold addAlias at h
  split at h
  · exact absurd h (by simp)
  · rename_i hhas
    obtain rfl := Except.ok.inj h
    exact ⟨Bool.eq_false_iff.2 hhas, rfl, rfl, rfl⟩

/-- After a node has been inserted its reference is there, and so is what was there before. -/
theorem has_insert_node (r : Int) :
    ({ g with nodes := g.nodes.insert r node } : TypeGraph).has ref = true ↔
      r = ref ∨ g.has ref = true := by
  simp only [has_iff, OrderedMap.get?_insert]
  by_cases hr : r = ref
  · simp [hr]
  · simp [hr]

/-- After a node has been inserted, whether there is a placeholder is a matter of that node under
its own reference. -/
theorem hasPlaceholder_insert_node (r : Int) :
    ({ g with nodes := g.nodes.insert r node } : TypeGraph).hasPlaceholder ref =
      if r = ref then node.isPlaceholder else g.hasPlaceholder ref := by
  unfold hasPlaceholder
  rw [OrderedMap.get?_insert]
  by_cases hr : r = ref
  · simp [hr]
  · simp [hr]

/-- After an alias has been added it is there, and so is what was there before. -/
theorem has_of_addAlias {target : Int} {name : Option String}
    (h : g.addAlias ref target name = .ok g') (other : Int) :
    g'.has other = true ↔ ref = other ∨ g.has other = true := by
  obtain ⟨-, hnodes, haliases, -⟩ := addAlias_eq_ok h
  simp only [has_iff, hnodes, haliases, OrderedMap.get?_insert]
  by_cases hr : ref = other
  · simp [hr]
  · simp [hr]

theorem discardPlaceholder_faults : (g.discardPlaceholder ref).faults = g.faults := by
  unfold discardPlaceholder
  split <;> rfl

theorem discardPlaceholder_aliases : (g.discardPlaceholder ref).aliases = g.aliases := by
  unfold discardPlaceholder
  split <;> rfl

/-- A placeholder is taken out, and nothing else is. -/
theorem get?_discardPlaceholder :
    (g.discardPlaceholder ref).nodes.get? other =
      if g.hasPlaceholder ref = true ∧ ref = other then none else g.nodes.get? other := by
  unfold discardPlaceholder
  by_cases hplaceholder : g.hasPlaceholder ref = true
  · rw [if_pos hplaceholder, OrderedMap.get?_erase]
    simp [hplaceholder]
  · rw [if_neg hplaceholder, if_neg fun h => hplaceholder h.1]

/-- Nothing but the placeholder goes away. -/
theorem has_discardPlaceholder (hne : other ≠ ref) (h : g.has other = true) :
    (g.discardPlaceholder ref).has other = true := by
  rw [has_iff] at h ⊢
  rw [get?_discardPlaceholder, if_neg fun h => hne h.2.symm, discardPlaceholder_aliases]
  exact h

/-- What is there after a placeholder has been discarded was there before. -/
theorem has_of_discardPlaceholder (h : (g.discardPlaceholder ref).has other = true) :
    g.has other = true := by
  rw [has_iff] at h ⊢
  rw [get?_discardPlaceholder, discardPlaceholder_aliases] at h
  refine h.imp_right ?_
  rintro ⟨node, hnode⟩
  split at hnode
  · exact absurd hnode (by simp)
  · exact ⟨node, hnode⟩

/-- The placeholders that are there after one has been discarded are the others. -/
theorem hasPlaceholder_discardPlaceholder
    (h : (g.discardPlaceholder ref).hasPlaceholder other = true) :
    other ≠ ref ∧ g.hasPlaceholder other = true := by
  obtain ⟨node, hnode, hplaceholder⟩ := hasPlaceholder_iff.1 h
  rw [get?_discardPlaceholder] at hnode
  split at hnode
  · exact absurd hnode (by simp)
  · rename_i hkept
    have hother : g.hasPlaceholder other = true := hasPlaceholder_iff.2 ⟨node, hnode, hplaceholder⟩
    refine ⟨?_, hother⟩
    rintro rfl
    exact hkept ⟨hother, rfl⟩

end TypeGraph

-- ---------------------------------------------------------------------------
-- What runs keep
-- ---------------------------------------------------------------------------

namespace BuildState

variable {store : Store} {root ref : Int} {s t : BuildState}

/-- What is in the graph stays there through a run. -/
theorem Run.has (h : Run store root s t) (href : s.graph.has ref = true) :
    t.graph.has ref = true := by
  induction h with
  | refl => exact href
  | trans _ _ ih ih' => exact ih' (ih href)
  | needed _ _ ih | followed _ _ ih => exact ih href
  | node _ _ h =>
    obtain ⟨-, -, rfl⟩ := TypeGraph.addNode_eq_ok h
    exact (TypeGraph.has_insert_node _).2 (.inr href)
  | synonym _ _ _ h => exact (TypeGraph.has_of_addAlias h ref).2 (.inr href)
  | composite _ hplaceholder _ _ h ih =>
    obtain ⟨-, rfl⟩ := TypeGraph.addPlaceholder_eq_ok hplaceholder
    obtain ⟨-, rfl⟩ := TypeGraph.fillPlaceholder_eq_ok h
    exact (TypeGraph.has_insert_node _).2 (.inr (ih ((TypeGraph.has_insert_node _).2 (.inr href))))
  | abandoned _ hplaceholder _ ih =>
    obtain ⟨hnew, rfl⟩ := TypeGraph.addPlaceholder_eq_ok hplaceholder
    refine TypeGraph.has_discardPlaceholder ?_ (ih ((TypeGraph.has_insert_node _).2 (.inr href)))
    -- what is discarded was not there before the composite was begun
    rintro rfl
    exact absurd href (by rw [hnew]; decide)
  | record | remember => exact href

/-- A run leaves no placeholder behind that was not there before. -/
theorem Run.hasPlaceholder (h : Run store root s t) (href : t.graph.hasPlaceholder ref = true) :
    s.graph.hasPlaceholder ref = true := by
  induction h with
  | refl => exact href
  | trans _ _ ih ih' => exact ih (ih' href)
  | needed _ _ ih | followed _ _ ih => exact ih href
  | @node s node g _ hadmits h =>
    obtain ⟨-, -, rfl⟩ := TypeGraph.addNode_eq_ok h
    rw [TypeGraph.hasPlaceholder_insert_node] at href
    split at href
    · -- the nodes that are admitted are no placeholders
      have hreal : node.isPlaceholder = false := hadmits.isPlaceholder
      rw [hreal] at href
      exact absurd href (by decide)
    · exact href
  | synonym _ _ _ h =>
    obtain ⟨-, hnodes, -⟩ := TypeGraph.addAlias_eq_ok h
    rw [TypeGraph.hasPlaceholder_iff] at href ⊢
    rwa [hnodes] at href
  | composite _ hplaceholder _ _ h ih =>
    obtain ⟨-, rfl⟩ := TypeGraph.addPlaceholder_eq_ok hplaceholder
    obtain ⟨-, rfl⟩ := TypeGraph.fillPlaceholder_eq_ok h
    rw [TypeGraph.hasPlaceholder_insert_node] at href
    split at href
    · exact absurd href (by simp [TypeNode.isPlaceholder, TypeBody.isPlaceholder])
    · -- the placeholder of the composite is gone when it is filled, and the others were there
      -- before
      rename_i hne
      have hbefore := ih href
      rwa [TypeGraph.hasPlaceholder_insert_node, if_neg hne] at hbefore
  | abandoned _ hplaceholder _ ih =>
    obtain ⟨-, rfl⟩ := TypeGraph.addPlaceholder_eq_ok hplaceholder
    obtain ⟨hne, href⟩ := TypeGraph.hasPlaceholder_discardPlaceholder href
    have hbefore := ih href
    rwa [TypeGraph.hasPlaceholder_insert_node, if_neg hne.symm] at hbefore
  | record | remember => exact href

/-- The placeholder of a composite that is being built stays through the runs of what it needs. -/
theorem Run.keepsPlaceholder (h : Run store root s t) (hbody : store.IsBody ref)
    (href : s.graph.hasPlaceholder ref = true) : t.graph.hasPlaceholder ref = true := by
  -- a composite is begun where nothing is yet, and so under another reference
  have hnew : ∀ {g : TypeGraph} {other : Int}, g.has other = false →
      g.hasPlaceholder ref = true → other ≠ ref := by
    rintro g other hother href rfl
    obtain ⟨node, hnode, -⟩ := TypeGraph.hasPlaceholder_iff.1 href
    rw [(TypeGraph.has_eq_false_iff.1 hother).2] at hnode
    exact absurd hnode (by simp)
  induction h with
  | refl | record | remember => exact href
  | trans _ _ ih ih' => exact ih' (ih href)
  | needed _ _ ih | followed _ _ ih => exact ih href
  | node hother _ h =>
    obtain ⟨-, -, rfl⟩ := TypeGraph.addNode_eq_ok h
    rw [TypeGraph.hasPlaceholder_insert_node, if_neg (by rintro rfl; exact hother hbody)]
    exact href
  | synonym _ _ _ h =>
    obtain ⟨-, hnodes, -⟩ := TypeGraph.addAlias_eq_ok h
    rw [TypeGraph.hasPlaceholder_iff] at href ⊢
    rwa [hnodes]
  | composite _ hplaceholder _ _ h ih =>
    obtain ⟨hother, rfl⟩ := TypeGraph.addPlaceholder_eq_ok hplaceholder
    obtain ⟨-, rfl⟩ := TypeGraph.fillPlaceholder_eq_ok h
    have hne := hnew hother href
    rw [TypeGraph.hasPlaceholder_insert_node, if_neg hne]
    refine ih ?_
    rw [TypeGraph.hasPlaceholder_insert_node, if_neg hne]
    exact href
  | abandoned _ hplaceholder _ ih =>
    obtain ⟨hother, rfl⟩ := TypeGraph.addPlaceholder_eq_ok hplaceholder
    have hne := hnew hother href
    have hkept := ih (by rw [TypeGraph.hasPlaceholder_insert_node, if_neg hne]; exact href)
    rw [TypeGraph.hasPlaceholder_iff] at hkept ⊢
    rwa [TypeGraph.get?_discardPlaceholder, if_neg fun h => hne h.2]

/-- Why a type is left out may be learned, but is not forgotten. -/
theorem Run.failures (h : Run store root s t) (href : (s.failures.get? ref).isSome = true) :
    (t.failures.get? ref).isSome = true := by
  induction h with
  | refl | node | synonym | record => exact href
  | trans _ _ ih ih' => exact ih' (ih href)
  | needed _ _ ih | followed _ _ ih | composite _ _ _ _ _ ih | abandoned _ _ _ ih => exact ih href
  | remember =>
    rw [failures_remembering]
    split
    · rfl
    · exact href

/-- What is recorded stays recorded. -/
theorem Run.faults (h : Run store root s t) {fault : TypeFault} (hfault : fault ∈ s.graph.faults) :
    fault ∈ t.graph.faults := by
  induction h with
  | refl | remember => exact hfault
  | trans _ _ ih ih' => exact ih' (ih hfault)
  | needed _ _ ih | followed _ _ ih => exact ih hfault
  | node _ _ h =>
    obtain ⟨-, -, rfl⟩ := TypeGraph.addNode_eq_ok h
    exact hfault
  | synonym _ _ _ h =>
    obtain ⟨-, -, -, hfaults⟩ := TypeGraph.addAlias_eq_ok h
    exact hfaults ▸ hfault
  | composite _ hplaceholder _ _ h ih =>
    obtain ⟨-, rfl⟩ := TypeGraph.addPlaceholder_eq_ok hplaceholder
    obtain ⟨-, rfl⟩ := TypeGraph.fillPlaceholder_eq_ok h
    exact ih hfault
  | abandoned _ hplaceholder _ ih =>
    obtain ⟨-, rfl⟩ := TypeGraph.addPlaceholder_eq_ok hplaceholder
    rw [TypeGraph.discardPlaceholder_faults]
    exact ih hfault
  | record => exact List.mem_append_left _ hfault

/-- No alias is followed any longer that was not followed before. -/
theorem Run.following (h : Run store root s t) : ∀ other ∈ t.following, other ∈ s.following := by
  induction h with
  | refl | node | synonym | record | remember => exact fun _ h => h
  | trans _ _ ih ih' => exact fun other hother => ih other (ih' other hother)
  | needed _ _ ih | composite _ _ _ _ _ ih | abandoned _ _ _ ih => exact ih
  | followed _ _ ih =>
    intro other hother
    obtain ⟨hother, hne⟩ := List.mem_filter.1 hother
    exact (List.mem_insert_iff.1 (ih other hother)).resolve_left (by simpa using hne)

/-- What is known of a reference: its node, its target as an alias, and why it was left out. -/
def known (s : BuildState) (ref : Int) : Option TypeNode × Option Int × Option TypeFault :=
  (s.graph.nodes.get? ref, s.graph.aliases.get? ref, s.failures.get? ref)

/-- A node tells nothing of other references than its own. -/
theorem known_insert_node (node : TypeNode) (hne : node.ref ≠ ref) :
    ({ s with graph := { s.graph with nodes := s.graph.nodes.insert node.ref node } } :
      BuildState).known ref = s.known ref := by
  rw [known, known, OrderedMap.get?_insert, if_neg hne]

theorem known_addAlias {target : Int} {name : Option String} {g : TypeGraph} {other : Int}
    (h : s.graph.addAlias other target name = .ok g) (hne : other ≠ ref) :
    ({ s with graph := g } : BuildState).known ref = s.known ref := by
  obtain ⟨-, hnodes, haliases, -⟩ := TypeGraph.addAlias_eq_ok h
  rw [known, known, hnodes, haliases, OrderedMap.get?_insert, if_neg hne]

/-- Discarding a placeholder tells nothing of other references. -/
theorem known_discardPlaceholder {other : Int} (hne : other ≠ ref) :
    ({ s with graph := s.graph.discardPlaceholder other } : BuildState).known ref =
      s.known ref := by
  rw [known, known, TypeGraph.get?_discardPlaceholder, if_neg fun h => hne h.2,
    TypeGraph.discardPlaceholder_aliases]

/-- A type to which the needs of another do not lead is not that other one. -/
theorem ne_of_not_needs (h : ¬ ReflTransGen store.Needs root ref) : root ≠ ref := by
  rintro rfl
  exact h .refl

/-- A run changes nothing about types that are not needed. -/
theorem Run.known (h : Run store root s t) (hne : ¬ ReflTransGen store.Needs root ref) :
    t.known ref = s.known ref := by
  -- every step is one for the type itself or for a type that it needs
  induction h with
  | refl | record => rfl
  | trans _ _ ih ih' => exact (ih' hne).trans (ih hne)
  | needed hneeds _ ih => exact ih fun h => hne (.head hneeds h)
  | followed _ _ ih => exact ih hne
  | node _ _ h =>
    obtain ⟨-, -, rfl⟩ := TypeGraph.addNode_eq_ok h
    exact known_insert_node _ (ne_of_not_needs hne)
  | synonym _ _ _ h => exact known_addAlias h (ne_of_not_needs hne)
  | composite _ hplaceholder _ _ h ih =>
    obtain ⟨-, rfl⟩ := TypeGraph.addPlaceholder_eq_ok hplaceholder
    obtain ⟨-, rfl⟩ := TypeGraph.fillPlaceholder_eq_ok h
    rw [known_insert_node _ (ne_of_not_needs hne), ih hne]
    exact known_insert_node (TypeGraph.placeholder _) (ne_of_not_needs hne)
  | abandoned _ hplaceholder _ ih =>
    obtain ⟨-, rfl⟩ := TypeGraph.addPlaceholder_eq_ok hplaceholder
    rw [known_discardPlaceholder (ne_of_not_needs hne), ih hne]
    exact known_insert_node (TypeGraph.placeholder _) (ne_of_not_needs hne)
  | remember =>
    rw [BuildState.known, failures_remembering, if_neg (ne_of_not_needs hne)]
    rfl

/-- What holds of every node that may be added, of placeholders and of composites holds of all nodes
after a run, if it did before. -/
theorem Run.forall_nodes {P : TypeBody → Prop} (hplaceholder : P .placeholder)
    (hcomposite : ∀ kind size members isClass, P (.composite kind size members isClass))
    (hadmits : ∀ g ref body, TypeGraph.Admits g store ref body → P body) (h : Run store root s t)
    (hs : ∀ ref node, s.graph.nodes.get? ref = some node → P node.body) :
    ∀ ref node, t.graph.nodes.get? ref = some node → P node.body := by
  -- an insertion puts in one node and keeps the others
  have hinsert : ∀ {g : TypeGraph} (r : Int) (new : TypeNode), P new.body →
      (∀ ref node, g.nodes.get? ref = some node → P node.body) →
      ∀ ref node, (g.nodes.insert r new).get? ref = some node → P node.body := by
    intro g r new hnew hg ref node hnode
    rw [OrderedMap.get?_insert] at hnode
    split at hnode
    · obtain rfl := Option.some.inj hnode
      exact hnew
    · exact hg ref node hnode
  induction h with
  | refl => exact hs
  | trans _ _ ih ih' => exact ih' (ih hs)
  | needed _ _ ih | followed _ _ ih => exact ih hs
  | node _ hbody h =>
    obtain ⟨-, -, rfl⟩ := TypeGraph.addNode_eq_ok h
    exact hinsert _ _ (hadmits _ _ _ hbody) hs
  | synonym _ _ _ h =>
    obtain ⟨-, hnodes, -⟩ := TypeGraph.addAlias_eq_ok h
    intro ref node hnode
    exact hs ref node (hnodes ▸ hnode)
  | composite _ hplaced _ _ h ih =>
    obtain ⟨-, rfl⟩ := TypeGraph.addPlaceholder_eq_ok hplaced
    obtain ⟨-, rfl⟩ := TypeGraph.fillPlaceholder_eq_ok h
    exact hinsert _ _ (hcomposite ..) (ih (hinsert _ _ hplaceholder hs))
  | abandoned _ hplaced _ ih =>
    obtain ⟨-, rfl⟩ := TypeGraph.addPlaceholder_eq_ok hplaced
    intro ref node hnode
    refine ih (hinsert _ _ hplaceholder hs) ref node ?_
    rw [TypeGraph.get?_discardPlaceholder] at hnode
    split at hnode
    · exact absurd hnode (by simp)
    · exact hnode
  | record | remember => exact hs

end BuildState

end DebugLayout
